import FlowQoS.Pipe.Defs
import FlowQoS.Lib.Trace

/-!
# Insertions that are not processed in time

The driver takes an entry at once and installs it in a processing call, not always in the one of
`flowQoS_add_entry`. An entry that is taken stays with the driver whatever `flowQoS_add_entry` returns:
nothing removes it where the number of processed entries is not the expected one. So a failing insertion
leaves no hardware entry only where the driver has taken none (`insertion_clean_iff`), and a caller that
tries again gets one hardware entry for each entry the driver has taken (`timeout_leaves_entry`).

Where the driver either takes no entry or installs it in time and counts it alone, the hardware entries of
a `FlowQoS_ENTRY` are as many as the insertions that returned 1 (`insertions_owned`), and an insertion is
the one the tracker is modelled with (`flowQoSAddEntry_refines`).
-/

namespace FlowQoS.Pipe

open Lib

/-! ### The driver -/

/-- A hardware entry and the `FlowQoS_ENTRY` it was asked for. -/
structure Submission where
  owner : CtxId
  entry : HwEntry

/-- The entries the driver has installed and those it has taken and not processed yet. -/
structure Driver where
  installed : List Submission := []
  outstanding : List Submission := []
  next : Handle := 0

/-- What the driver answers to an insertion: whether `doca_flow_pipe_add_entry` returns an entry, which of
the outstanding entries the call of `doca_flow_entries_process` installs, and its result. -/
structure Answer where
  submitted : Bool
  completes : Handle → Bool
  processed : ℤ

namespace Driver

/-- `doca_flow_pipe_add_entry`, where the driver takes the entry. -/
def submit (d : Driver) (x : Submission) : Driver :=
  { d with outstanding := d.outstanding ++ [x], next := d.next + 1 }

/-- `doca_flow_entries_process`. -/
def process (d : Driver) (completes : Handle → Bool) : Driver :=
  { d with
    installed := d.installed ++ d.outstanding.filter fun x => completes x.entry.handle
    outstanding := d.outstanding.filter fun x => !completes x.entry.handle }

/-- The hardware entries of a `FlowQoS_ENTRY`, in the hardware or outstanding. -/
def owned (d : Driver) (self : CtxId) : ℕ := (d.installed ++ d.outstanding).countP fun x => x.owner == self

/-- A processing call neither adds nor removes an entry. -/
@[simp] theorem owned_process (d : Driver) (completes : Handle → Bool) (self : CtxId) :
    (d.process completes).owned self = d.owned self := by
  unfold owned process
  apply List.Perm.countP_eq
  rw [List.append_assoc]
  apply List.Perm.append_left
  exact List.filter_append_perm _ _

theorem owned_submit (d : Driver) (x : Submission) (self : CtxId) :
    (d.submit x).owned self = d.owned self + if x.owner = self then 1 else 0 := by
  unfold owned submit
  rw [← List.append_assoc, List.countP_append]
  simp

end Driver

/-- The entry of the call is installed in it. -/
def Answer.completed (a : Answer) (d : Driver) : Bool := a.submitted && a.completes d.next

/-- The hardware entry that `flowQoS_add_entry` asks for. -/
def submission (pipe : FlowQoSPipe) (self : CtxId) (entry : FlowQoSEntry) (d : Driver) : Submission :=
  let action : FlowQoSAction := { entry.action with flags := pipe.action_pattern.flags }
  { owner := self
    entry :=
      { handle := d.next
        pipe := pipe
        match_ := { entry.match_ with flags := pipe.match_pattern.flags }
        action := action
        aging := action.flags &&& AGING != 0
        user_data := if entry.expireTime > 0 then some self else none } }

/-- `flowQoS_add_entry` for the entry of the context `self`. -/
def flowQoSAddEntry (pipe : FlowQoSPipe) (self : CtxId) (entry : FlowQoSEntry) (flush : ℤ) (a : Answer)
    (d : Driver) : ℤ × FlowQoSEntry × Driver :=
  let entry' : FlowQoSEntry :=
    { entry with
      pipe := some pipe
      match_ := { entry.match_ with flags := pipe.match_pattern.flags }
      action := { entry.action with flags := pipe.action_pattern.flags }
      entry := if a.submitted then some d.next else none }
  let ret : ℤ := if entry'.entry.isNone then 0 else 1
  let d' := if a.submitted then d.submit (submission pipe self entry d) else d
  if flush ≠ 0 then
    let num_of_entries := if entry'.entry.isNone then flush - 1 else flush
    (if a.processed ≠ num_of_entries then 0 else ret, entry', d'.process a.completes)
  else (ret, entry', d')

section

variable (pipe : FlowQoSPipe) (self : CtxId) (entry : FlowQoSEntry) {a : Answer} (d : Driver)

/-- The driver takes no entry. -/
theorem flowQoSAddEntry_refused (h : a.submitted = false) : (flowQoSAddEntry pipe self entry 1 a d).1 = 0 ∧
    (flowQoSAddEntry pipe self entry 1 a d).2.2 = d.process a.completes := by
  unfold flowQoSAddEntry
  simp [h]

/-- The driver takes the entry: the call returns 1 if it counts one processed entry. -/
theorem flowQoSAddEntry_submitted (h : a.submitted = true) :
    (flowQoSAddEntry pipe self entry 1 a d).1 = (if a.processed = 1 then 1 else 0) ∧
    (flowQoSAddEntry pipe self entry 1 a d).2.2 =
      (d.submit (submission pipe self entry d)).process a.completes := by
  unfold flowQoSAddEntry
  simp [h]

/-- What an insertion adds to the hardware entries of its `FlowQoS_ENTRY`. -/
theorem flowQoSAddEntry_owned (a : Answer) : ((flowQoSAddEntry pipe self entry 1 a d).2.2).owned self =
    d.owned self + if a.submitted then 1 else 0 := by
  cases h : a.submitted with
  | false =>
    rw [(flowQoSAddEntry_refused pipe self entry d h).2]
    simp
  | true =>
    rw [(flowQoSAddEntry_submitted pipe self entry d h).2, Driver.owned_process, Driver.owned_submit]
    simp [submission]

end

/-! ### A failing insertion leaves nothing -/

/-- An insertion returns 1 exactly if the entry is taken and installed, and leaves no hardware entry of its
`FlowQoS_ENTRY` where it returns 0. -/
def Clean (pipe : FlowQoSPipe) (self : CtxId) (entry : FlowQoSEntry) (a : Answer) (d : Driver) : Prop :=
  ((flowQoSAddEntry pipe self entry 1 a d).1 = 1 ↔ a.completed d = true) ∧
    ((flowQoSAddEntry pipe self entry 1 a d).1 = 0 →
      ((flowQoSAddEntry pipe self entry 1 a d).2.2).owned self = 0)

/-- **Failing insertions.** An insertion is clean exactly if the driver takes no entry and has none of the
`FlowQoS_ENTRY` yet, or takes it, installs it in the call and counts one processed entry. -/
theorem insertion_clean_iff (pipe : FlowQoSPipe) (self : CtxId) (entry : FlowQoSEntry) (a : Answer)
    (d : Driver) : Clean pipe self entry a d ↔
    (a.submitted = false ∧ d.owned self = 0) ∨ (a.completed d = true ∧ a.processed = 1) := by
  unfold Clean
  rw [flowQoSAddEntry_owned]
  unfold Answer.completed
  cases h : a.submitted with
  | false =>
    rw [(flowQoSAddEntry_refused pipe self entry d h).1]
    simp
  | true =>
    rw [(flowQoSAddEntry_submitted pipe self entry d h).1]
    by_cases hone : a.processed = 1
    · simp [hone]
    · simp [hone]

/-- The driver takes the entry of a new `FlowQoS_ENTRY` and does not process it in time: the insertion
returns 0 and leaves it outstanding. The caller tries again, the driver installs the first entry in the call
and counts it, and the insertion returns 1 with both entries of the `FlowQoS_ENTRY` at the driver. -/
theorem timeout_leaves_entry :
    let pipe := buildPipe 0 (SIP ||| TCP) DROP
    let r₁ := flowQoSAddEntry pipe 0 {} 1 ⟨true, fun _ => false, 0⟩ {}
    let r₂ := flowQoSAddEntry pipe 0 r₁.2.1 1 ⟨true, fun h => h == 0, 1⟩ r₁.2.2
    ¬ Clean pipe 0 {} ⟨true, fun _ => false, 0⟩ {} ∧ r₁.1 = 0 ∧ r₁.2.2.owned 0 = 1 ∧
      r₂.1 = 1 ∧ r₂.2.2.owned 0 = 2 := by
  refine ⟨fun h => ?_, rfl, rfl, rfl, rfl⟩
  exact absurd (h.2 rfl) (by decide)

/-! ### Callers that try again -/

variable {pipe : FlowQoSPipe} {self : CtxId} {entry : FlowQoSEntry} {a : Answer} {d : Driver}

/-- What becomes of a `FlowQoS_ENTRY`: an insertion and its result, or a later processing call. -/
inductive InsertionEvent where
  | insert (a : Answer) (ret : ℤ)
  | process (completes : Handle → Bool)

/-- A step of the caller and the driver. -/
def InsertionSteps (pipe : FlowQoSPipe) (self : CtxId) (s : FlowQoSEntry × Driver) :
    InsertionEvent → FlowQoSEntry × Driver → Prop
  | .insert a ret, s' => flowQoSAddEntry pipe self s.1 1 a s.2 = (ret, s')
  | .process completes, s' => s' = (s.1, s.2.process completes)

/-- The condition on an insertion: the driver takes no entry, or installs it in the call and counts it alone. -/
def InTime (s : FlowQoSEntry × Driver) : InsertionEvent → Prop
  | .insert a _ => a.submitted = false ∨ (a.completed s.2 = true ∧ a.processed = 1)
  | .process _ => True

def InsertionEvent.inserted : InsertionEvent → Bool
  | .insert _ ret => ret == 1
  | .process _ => false

theorem InsertionSteps.owned {s s' : FlowQoSEntry × Driver} {e : InsertionEvent} (hin : InTime s e)
    (h : InsertionSteps pipe self s e s') :
    s'.2.owned self = s.2.owned self + if e.inserted then 1 else 0 := by
  cases e with
  | insert a ret =>
    have howned := flowQoSAddEntry_owned pipe self s.1 s.2 a
    change flowQoSAddEntry pipe self s.1 1 a s.2 = (ret, s') at h
    rw [h] at howned
    rw [howned]
    rcases hin with hno | ⟨hyes, hone⟩
    · have hret := (flowQoSAddEntry_refused pipe self s.1 s.2 hno).1
      rw [h] at hret
      simp only at hret
      simp [hno, hret, InsertionEvent.inserted]
    · have hsub : a.submitted = true := by
        unfold Answer.completed at hyes
        rw [Bool.and_eq_true] at hyes
        exact hyes.1
      have hret := (flowQoSAddEntry_submitted pipe self s.1 s.2 hsub).1
      rw [h, if_pos hone] at hret
      simp only at hret
      simp [hsub, hret, InsertionEvent.inserted]
  | process completes =>
    cases h
    simp [InsertionEvent.inserted]

/-- **Callers that try again.** Where the driver takes no entry or installs it in time, the hardware entries
of a `FlowQoS_ENTRY` are as many as its insertions that returned 1: none while they fail, and one where the
caller stops at the first that does not. -/
theorem insertions_owned {s s' : FlowQoSEntry × Driver} {es : List InsertionEvent}
    (hr : Trace (fun s e s' => InTime s e ∧ InsertionSteps pipe self s e s') s es s') :
    s'.2.owned self = s.2.owned self + es.countP InsertionEvent.inserted := by
  induction hr with
  | nil => simp
  | cons h _ ih =>
    rw [ih, h.2.owned h.1, List.countP_cons]
    omega

/-! ### The insertions of the tracker -/

/-- The hardware of the tracker's model, where the driver has no entry outstanding. -/
def Agrees (d : Driver) (hw : Hardware) : Prop :=
  d.installed.map Submission.entry = hw.entries ∧ d.outstanding = [] ∧ d.next = hw.next

/-- **The tracker's insertions.** Where the driver takes no entry or installs it in time, the insertion gives
what `addEntry` gives. -/
theorem flowQoSAddEntry_refines {hw : Hardware} (hd : Agrees d hw)
    (hin : a.submitted = false ∨ (a.completed d = true ∧ a.processed = 1)) :
    let r := flowQoSAddEntry pipe self entry 1 a d
    let r' := addEntry pipe self entry ⟨a.submitted, a.processed⟩ hw
    r.1 = r'.1 ∧ r.2.1 = r'.2.1 ∧ Agrees r.2.2 r'.2.2 := by
  obtain ⟨hinst, hout, hnext⟩ := hd
  rcases hin with hno | ⟨hyes, hone⟩
  · simp [flowQoSAddEntry, addEntry, Outcome.ok, hno, Agrees, Driver.process, hout, hinst, hnext]
  · unfold Answer.completed at hyes
    rw [Bool.and_eq_true] at hyes
    simp [flowQoSAddEntry, addEntry, Outcome.ok, Outcome.expected, hyes.1, hone, Agrees, Driver.process,
      Driver.submit, hout, hinst, submission, ← hnext, hyes.2]

end FlowQoS.Pipe
