import Mathlib.Data.Int.Notation
import Mathlib.Data.Nat.Notation

/-!
# Pipes and their entries (`flowQoS_pipe.c`)

A pipe has a pattern of the header fields its entries match and of the fields they set; an entry gives
the values. `flowQoS_add_entry` puts an entry into the hardware, and the hardware reports an entry
that has not been hit for its expire time, with the address of the `FlowQoS_ENTRY` it was added for.

What the driver answers is part of the input. Here the driver processes an entry in the call that asks for
it or not at all: an insertion that returns 1 has installed one entry, an insertion that returns 0 none.
`FlowQoS.Pipe.Insertion` is about a driver that processes an entry later.
-/

namespace FlowQoS.Pipe

def SMAC : UInt64 := (1 : UInt64) <<< 0
def DMAC : UInt64 := (1 : UInt64) <<< 1
def SIP : UInt64 := (1 : UInt64) <<< 2
def DIP : UInt64 := (1 : UInt64) <<< 3
def ICMP : UInt64 := (1 : UInt64) <<< 4
def TCP : UInt64 := (1 : UInt64) <<< 5
def UDP : UInt64 := (1 : UInt64) <<< 6
def SPORT : UInt64 := (1 : UInt64) <<< 7
def DPORT : UInt64 := (1 : UInt64) <<< 8
def TTL_DECREASE : UInt64 := (1 : UInt64) <<< 9
def AGING : UInt64 := (1 : UInt64) <<< 10
def COUNTER : UInt64 := (1 : UInt64) <<< 11
def DROP : UInt64 := (1 : UInt64) <<< 12
def PORT : UInt64 := (1 : UInt64) <<< 13
def RSS_TO_QUEUE : UInt64 := (1 : UInt64) <<< 14

def maxAgedCtPerPoll : ℕ := 256

/-- Six bytes. -/
abbrev EtherAddr := BitVec 48

structure FlowQoSMatch where
  flags : UInt64 := 0
  src_ip : UInt32 := 0
  dst_ip : UInt32 := 0
  proto : UInt8 := 0
  src_port : UInt16 := 0
  dst_port : UInt16 := 0
  rss : UInt32 := 0
  deriving DecidableEq

structure FlowQoSAction where
  flags : UInt64 := 0
  src_mac : EtherAddr := 0
  dst_mac : EtherAddr := 0
  src_ip : UInt32 := 0
  dst_ip : UInt32 := 0
  src_port : UInt16 := 0
  dst_port : UInt16 := 0
  deriving DecidableEq

/-- A pipe; it does not change once it is built, and stands for the pointer to it. -/
structure FlowQoSPipe where
  match_pattern : FlowQoSMatch
  action_pattern : FlowQoSAction
  port_id : ℕ
  deriving DecidableEq

/-- `flowQoS_build_pipe`, where the driver creates the pipe. -/
def buildPipe (port_id : ℕ) (matchFlags actionFlags : UInt64) : FlowQoSPipe where
  match_pattern := { flags := matchFlags }
  action_pattern := { flags := actionFlags }
  port_id := port_id

/-- A context of the connection tracker, which stands for the pointer to it and to its entry. -/
abbrev CtxId := ℕ

/-- A hardware entry, as `doca_flow_pipe_add_entry` returns it. -/
abbrev Handle := ℕ

/-- The callbacks of an aged entry. -/
inductive AgingCallback where
  | flowQoS_conn_expire_hw_cb
  deriving DecidableEq

/-- The callbacks of an entry that the scheduler has offloaded. -/
inductive QosHandler where
  | flowQoS_qosHandler
  deriving DecidableEq

/-- The queue link `index` is kept in the queue. -/
structure FlowQoSEntry where
  match_ : FlowQoSMatch := {}
  action : FlowQoSAction := {}
  entry : Option Handle := none
  pipe : Option FlowQoSPipe := none
  expireTime : UInt64 := 0
  cb : Option AgingCallback := none
  cb_args : Option CtxId := none
  priority : UInt64 := 0
  flowQoS_qosHandler : Option QosHandler := none
  flowQoS_args : Option CtxId := none
  deriving DecidableEq

/-- An entry in the hardware: what it matches and sets, whether it is monitored for aging, and the
address it is reported with. -/
structure HwEntry where
  handle : Handle
  pipe : FlowQoSPipe
  match_ : FlowQoSMatch
  action : FlowQoSAction
  aging : Bool
  user_data : Option CtxId
  reported : Bool := false
  deriving DecidableEq

/-- The entries in the hardware, and the next handle. -/
structure Hardware where
  entries : List HwEntry := []
  next : Handle := 0

/-- What the driver answers to an insertion: whether `doca_flow_pipe_add_entry` returns an entry, and
the result of `doca_flow_entries_process`. -/
structure Outcome where
  entry : Bool
  processed : ℤ
  deriving DecidableEq

/-- The number of entries that `flowQoS_add_entry` expects to be processed when it is flushed. -/
def Outcome.expected (o : Outcome) : ℤ := if o.entry then 1 else 0

/-- `flowQoS_add_entry` returns 1. -/
def Outcome.ok (o : Outcome) : Bool := o.entry && o.processed == o.expected

/-- `flowQoS_add_entry(pipe, entry, queue, 1)` for the entry of the context `self`: the entry takes over
the flags of the pipe and the handle. -/
def addEntry (pipe : FlowQoSPipe) (self : CtxId) (entry : FlowQoSEntry) (o : Outcome) (hw : Hardware) :
    ℤ × FlowQoSEntry × Hardware :=
  let entry' : FlowQoSEntry :=
    { entry with
      pipe := some pipe
      match_ := { entry.match_ with flags := pipe.match_pattern.flags }
      action := { entry.action with flags := pipe.action_pattern.flags }
      entry := if o.entry then some hw.next else none }
  let installed : HwEntry :=
    { handle := hw.next
      pipe := pipe
      match_ := entry'.match_
      action := entry'.action
      aging := entry'.action.flags &&& AGING != 0
      user_data := if entry.expireTime > 0 then some self else none }
  (if o.ok then 1 else 0, entry',
    { entries := if o.ok then hw.entries ++ [installed] else hw.entries
      next := if o.entry then hw.next + 1 else hw.next })

namespace Hardware

def installed (hw : Hardware) (h : Handle) : Prop := ∃ e ∈ hw.entries, e.handle = h

instance (hw : Hardware) (h : Handle) : Decidable (hw.installed h) := by
  unfold installed; infer_instance

/-- `doca_flow_pipe_rm_entry`: the driver can remove an entry that is installed, if it does not fail. -/
def rmEntry (hw : Hardware) (entry : Option Handle) (ok : Bool) : Option Hardware :=
  match entry with
  | none => none
  | some h =>
    if ok ∧ hw.installed h then some { hw with entries := hw.entries.filter fun e => e.handle != h }
    else none

/-- The entries of a poll will not be reported again. -/
def report (hw : Hardware) (hs : List Handle) : Hardware :=
  { hw with entries := hw.entries.map fun e => if e.handle ∈ hs then { e with reported := true } else e }

end Hardware

/-- The handles in use are older than the next one. -/
def Hardware.Fresh (hw : Hardware) : Prop := ∀ e ∈ hw.entries, e.handle < hw.next

variable (pipe : FlowQoSPipe) (self : CtxId) (entry : FlowQoSEntry) {o : Outcome} {hw : Hardware}

/-- An insertion that returns 1. -/
theorem addEntry_ok (hw : Hardware) (h : o.ok = true) : ∃ e : HwEntry,
    (addEntry pipe self entry o hw).1 = 1 ∧
    (addEntry pipe self entry o hw).2.1.entry = some e.handle ∧
    (addEntry pipe self entry o hw).2.2 = { entries := hw.entries ++ [e], next := hw.next + 1 } ∧
    e.handle = hw.next ∧ e.pipe = pipe ∧
    e.match_ = { entry.match_ with flags := pipe.match_pattern.flags } ∧
    e.action.flags = pipe.action_pattern.flags := by
  have hentry : o.entry = true := by
    rw [Outcome.ok, Bool.and_eq_true] at h
    exact h.1
  simp only [addEntry, h, hentry, if_true, true_and]
  exact ⟨_, rfl, rfl, rfl, rfl, rfl, rfl⟩

/-- An insertion that returns 0. -/
theorem addEntry_fail (hw : Hardware) (h : o.ok = false) :
    (addEntry pipe self entry o hw).1 = 0 ∧ (addEntry pipe self entry o hw).2.2.entries = hw.entries ∧
    hw.next ≤ (addEntry pipe self entry o hw).2.2.next := by
  simp only [addEntry, h, Bool.false_eq_true, if_false, true_and]
  split
  · exact Nat.le_succ _
  · exact Nat.le_refl _

/-- The entry takes over the flags of the pipe. -/
theorem addEntry_match (hw : Hardware) : (addEntry pipe self entry o hw).2.1.match_ =
    { entry.match_ with flags := pipe.match_pattern.flags } := rfl

theorem Hardware.Fresh.addEntry (h : hw.Fresh) (o : Outcome) :
    (addEntry pipe self entry o hw).2.2.Fresh := by
  intro e he
  cases hok : o.ok with
  | true =>
    obtain ⟨x, -, -, hhw, hx, -⟩ := addEntry_ok pipe self entry hw hok
    rw [hhw] at he ⊢
    rcases List.mem_append.1 he with he | he
    · exact Nat.lt_succ_of_lt (h e he)
    · rw [List.mem_singleton.1 he, hx]
      exact Nat.lt_succ_self _
  | false =>
    obtain ⟨-, hentries, hnext⟩ := addEntry_fail pipe self entry hw hok
    rw [hentries] at he
    exact Nat.lt_of_lt_of_le (h e he) hnext

theorem rmEntry_some {hw hw' : Hardware} {x : Option Handle} {ok : Bool}
    (h : hw.rmEntry x ok = some hw') : ∃ y, x = some y ∧ hw.installed y ∧
      hw' = { hw with entries := hw.entries.filter fun e => e.handle != y } := by
  unfold Hardware.rmEntry at h
  cases x with
  | none => cases h
  | some y =>
    simp only at h
    split at h
    · next hin =>
      cases h
      exact ⟨y, rfl, hin.2, rfl⟩
    · cases h

end FlowQoS.Pipe
