import FlowQoS.Conntrack.Budget
import FlowQoS.Conntrack.Cores
import FlowQoS.Conntrack.Waiting
import Mathlib.Algebra.BigOperators.Group.Finset.Sigma
import Mathlib.Data.UInt

/-!
# What the command `flowQoS` prints

Every worker copies its scheduler's numbers and counts its queues, and the main core adds the copies up. A
worker answers between two of its events, so the copies are of different moments.

The numbers add up whatever the moments: the connections that have been handed to a queue have been offloaded,
or wait, or a timer has taken them out; and the entries of the hardware that a core has spent are those it has
there. Where the copies are of one moment, the filter has counted what the queues have (`run_accounts`).
-/

set_option linter.unusedSectionVars false

namespace FlowQoS.Conntrack

open Lib Pipe Timer Finset
open scoped UInt64.CommRing

variable {σ ε : Type} {P : Params σ ε} {w w' : World σ} {s s' : Core σ} {c : CtxId} {i j n : ℕ}
  {outcome : CtxId → Outcome} {m m' : Cores σ}

/-! ### The command -/

/-- One of the numbers of a sum changes. -/
theorem sum_range_change {f g : ℕ → UInt64} (hi : i < n) (h : ∀ j, j ≠ i → g j = f j) :
    ∑ j ∈ range n, g j + f i = ∑ j ∈ range n, f j + g i := by
  have hmem : i ∈ range n := mem_range.2 hi
  have hrest : ∑ j ∈ (range n).erase i, g j = ∑ j ∈ (range n).erase i, f j :=
    sum_congr rfl fun j hj => h j (ne_of_mem_erase hj)
  rw [← add_sum_erase _ g hmem, ← add_sum_erase _ f hmem, hrest]
  ring

/-- The contexts that timers take out of queue `i` in an event. -/
def expiredIn (e : Event σ ε) (q q' : FlowQoSStats) (i : ℕ) : ℕ :=
  match e with
  | .tick _ => (q.buckets i).length - (q'.buckets i).length
  | _ => 0

/-- What has been handed to queue `i` has been offloaded, or waits, or `k` times a timer has taken it out. -/
def QueueLaw (q : FlowQoSStats) (i k : ℕ) : Prop :=
  q.total i = q.finished i + UInt64.ofNat (q.buckets i).length + UInt64.ofNat k

/-- An event in which timers take `x i` contexts out of queue `i`. -/
structure Counts (w w' : World σ) (x : ℕ → ℕ) : Prop where
  num : w'.2.qos.priorityQueueNum = w.2.qos.priorityQueueNum
  queue : ∀ i k, QueueLaw w.2.qos i k → QueueLaw w'.2.qos i (k + x i)
  handed : ∑ i ∈ range 4, w'.2.qos.total i + w.2.attr.FILTER_ENQUEUED_TOTAL =
    ∑ i ∈ range 4, w.2.qos.total i + w'.2.attr.FILTER_ENQUEUED_TOTAL

/-- The totals and the filter's count stay. -/
theorem Counts.of_same {x : ℕ → ℕ} (hnum : w'.2.qos.priorityQueueNum = w.2.qos.priorityQueueNum)
    (htotal : w'.2.qos.total = w.2.qos.total)
    (henq : w'.2.attr.FILTER_ENQUEUED_TOTAL = w.2.attr.FILTER_ENQUEUED_TOTAL)
    (hqueue : ∀ i, w'.2.qos.finished i + UInt64.ofNat (w'.2.qos.buckets i).length + UInt64.ofNat (x i) =
      w.2.qos.finished i + UInt64.ofNat (w.2.qos.buckets i).length) : Counts w w' x where
  num := hnum
  queue i k h := by
    unfold QueueLaw at h ⊢
    rw [htotal, h, ← hqueue i, UInt64.ofNat_add]
    ring
  handed := by rw [htotal, henq]

/-- A packet hands at most one context to a queue. -/
theorem Counts.of_joins (h : Joins w.2 w'.2) : Counts w w' fun _ => 0 := by
  rcases h with ⟨hqos, henq⟩ | ⟨p, c, hp, -, hqos, henq⟩
  · exact .of_same (by rw [hqos]) (by rw [hqos]) henq fun i => by
      rw [hqos]
      exact add_zero _
  · have htotal : w'.2.qos.total = Function.update w.2.qos.total p (w.2.qos.total p + 1) := by rw [hqos]; rfl
    have hbuckets : w'.2.qos.buckets =
        Function.update w.2.qos.buckets p (w.2.qos.buckets p ++ [c]) := by rw [hqos]; rfl
    have hfinished : w'.2.qos.finished = w.2.qos.finished := by rw [hqos]; rfl
    refine ⟨by rw [hqos]; rfl, fun i k h => ?_, ?_⟩
    · unfold QueueLaw at h ⊢
      rw [htotal, hbuckets, hfinished]
      by_cases hi : i = p
      · subst hi
        rw [Function.update_self, Function.update_self, h, List.length_append, List.length_singleton,
          UInt64.ofNat_add, Nat.add_zero]
        show _ + 1 = _ + (_ + 1) + _
        ring
      · rw [Function.update_of_ne hi, Function.update_of_ne hi, Nat.add_zero]
        exact h
    · have hsum := sum_range_change hp fun j (hj : j ≠ p) =>
        (congrFun htotal j).trans (Function.update_of_ne hj _ _)
      rw [htotal, Function.update_self, ← htotal] at hsum
      have hone : ∑ j ∈ range 4, w'.2.qos.total j = ∑ j ∈ range 4, w.2.qos.total j + 1 := by
        refine add_right_cancel (b := w.2.qos.total p) (hsum.trans ?_)
        ring
      rw [hone, henq]
      ring

theorem congestion_enqueued (s : Core σ) :
    (congestion s).attr.FILTER_ENQUEUED_TOTAL = s.attr.FILTER_ENQUEUED_TOTAL := by
  have hcb : ∀ attr, (filterCongestionCb attr).FILTER_ENQUEUED_TOTAL = attr.FILTER_ENQUEUED_TOTAL := by
    intro attr
    unfold filterCongestionCb
    split <;> rfl
  unfold congestion
  simp only
  split
  · split
    · exact hcb _
    · rfl
  · split
    · exact hcb _
    · rfl

theorem Turn.enqueued {t : TurnLabel} (h : Turn outcome w t w') :
    w'.2.attr.FILTER_ENQUEUED_TOTAL = w.2.attr.FILTER_ENQUEUED_TOTAL := by
  obtain ⟨-, ret, s, arg, s', hadd, -, -, -, hdel, rfl⟩ := h
  obtain ⟨-, entry, hw, rfl⟩ := offloadEntry_frame hadd
  unfold delEntryEvent at hdel
  simp only at hdel
  split at hdel
  · cases hdel
    exact congestion_enqueued _
  · cases hdel

theorem Serves.enqueued {xs : List (ℕ × CtxId)} {res : ℤ} {r : ℤ × Bool × World σ}
    (h : Serves outcome w xs res r) :
    r.2.2.2.attr.FILTER_ENQUEUED_TOTAL = w.2.attr.FILTER_ENQUEUED_TOTAL := by
  induction h with
  | done => rfl
  | fails res hno hadd =>
    obtain ⟨-, entry, hw, rfl⟩ := offloadEntry_frame hadd
    rfl
  | turn _ hturn _ ih => exact ih.trans hturn.1.enqueued

theorem doEntryEvent_enqueued (hr : Ready w.2) {cur : UInt64} {r : ℤ × World σ}
    (hrun : doEntryEvent cur outcome w = .ok r) :
    r.2.2.attr.FILTER_ENQUEUED_TOTAL = w.2.attr.FILTER_ENQUEUED_TOTAL := by
  unfold doEntryEvent at hrun
  split at hrun
  · obtain ⟨⟨res, goes, w'⟩, hqueues, hserves⟩ := qosQueues_serves outcome
      (List.range w.2.qos.priorityQueueNum).reverse 0 w (List.nodup_reverse.2 List.nodup_range) hr
    rw [hqueues] at hrun
    have henq : w'.2.attr.FILTER_ENQUEUED_TOTAL = w.2.attr.FILTER_ENQUEUED_TOTAL := hserves.enqueued
    cases goes with
    | true =>
      cases hrun
      exact henq
    | false =>
      cases hrun
      exact henq
  · cases hrun
    rfl

/-- A round takes as many contexts out of a queue as it offloads of it. -/
theorem Counts.of_round (hr : Ready w.2) {cur : UInt64} {r : ℤ × World σ}
    (hrun : doEntryEvent cur outcome w = .ok r) : Counts w r.2 fun _ => 0 := by
  have henq := doEntryEvent_enqueued hr hrun
  rcases doEntryEvent_qos hr hrun with hsame | ⟨pre, post, w₁, lastStmp, -, hoff, hqos, -⟩
  · exact .of_same (by rw [hsame]) (by rw [hsame]) henq fun i => by
      rw [hsame]
      exact add_zero _
  · have hfinished : ∀ i, r.2.2.qos.finished i =
        w.2.qos.finished i + UInt64.ofNat (ofQueue i pre).length := by
      intro i
      rw [hqos]
      show w₁.2.qos.finished i = _
      rw [hoff.qos]
    have hbuckets : ∀ i, r.2.2.qos.buckets i = w₁.2.qos.buckets i := fun i => by rw [hqos]
    refine .of_same ?_ ?_ henq fun i => ?_
    · rw [hqos]
      show w₁.2.qos.priorityQueueNum = _
      rw [hoff.qos]
    · rw [hqos]
      show w₁.2.qos.total = _
      rw [hoff.qos]
    · rw [hfinished, hbuckets, ← hoff.buckets i, List.length_append, UInt64.ofNat_add]
      show _ + 0 = _
      ring

/-- Timers take out contexts that wait. -/
theorem Counts.of_sublist {qos : FlowQoSStats} (hqos : w'.2.qos = { qos with buckets := w'.2.qos.buckets })
    (heq : qos = w.2.qos) (henq : w'.2.attr.FILTER_ENQUEUED_TOTAL = w.2.attr.FILTER_ENQUEUED_TOTAL)
    (hsub : ∀ i, (w'.2.qos.buckets i).Sublist (w.2.qos.buckets i)) :
    Counts w w' fun i => (w.2.qos.buckets i).length - (w'.2.qos.buckets i).length := by
  subst heq
  refine .of_same (by rw [hqos]) (by rw [hqos]) henq fun i => ?_
  have hle := (hsub i).length_le
  have hsum : (w'.2.qos.buckets i).length + ((w.2.qos.buckets i).length - (w'.2.qos.buckets i).length) =
      (w.2.qos.buckets i).length := Nat.add_sub_cancel' hle
  rw [add_assoc, ← UInt64.ofNat_add, hsum, hqos]

/-- **An event of a core** counts what it does to the queues. -/
theorem step_counts (h : WorldInv P w) {e : Event σ ε} (hs : Steps P w e w') :
    Counts w w' (expiredIn e w.2.qos w'.2.qos) := by
  obtain ⟨hT, hrun⟩ := hs
  have hT : w.1.timeout + 68719476735 < 2 ^ 64 := by omega
  cases e with
  | packet m env =>
    obtain ⟨⟨v, w₁⟩, hp, rfl⟩ := map_eq_ok.1 hrun
    exact .of_joins (packet_qos h hp)
  | tick rdtsc =>
    obtain ⟨hqos, hsub⟩ := tick_qos h hT hrun
    exact .of_sublist hqos rfl (by rw [(tick_frame h hT hrun).2.2.1]) hsub
  | qos rdtsc outcome =>
    simp only [step] at hrun
    split at hrun
    · obtain ⟨r, hq, rfl⟩ := map_eq_ok.1 hrun
      exact .of_round h.inv.ready hq
    · cases hrun
      exact .of_same rfl rfl rfl fun i => add_zero _
  | aging reports =>
    obtain ⟨s', haging, rfl⟩ := map_eq_ok.1 hrun
    have hqos := connAgingHandle_qos haging
    refine .of_same ?_ ?_ ?_ fun i => ?_
    · show s'.qos.priorityQueueNum = _
      rw [hqos]
    · show s'.qos.total = _
      rw [hqos]
    · show s'.attr.FILTER_ENQUEUED_TOTAL = _
      rw [(connAgingHandle_frame haging).2]
    · show s'.qos.finished i + UInt64.ofNat (s'.qos.buckets i).length + 0 = _
      rw [hqos, add_zero]
  | app app =>
    cases hrun
    exact .of_same rfl rfl rfl fun i => add_zero _

/-! ### Runs of the cores -/

/-- What timers have taken out of the queues of the cores. -/
abbrev Expired := ℕ → ℕ → ℕ

/-- An event of one of `n` cores, with what timers have taken out of the queues so far. -/
def Tallied (P : Params σ ε) (n : ℕ) (x : Cores σ × Expired) (e : ℕ × Event σ ε) (y : Cores σ × Expired) : Prop :=
  e.1 < n ∧ Cores.Steps P x.1 e y.1 ∧ y.2 = Function.update x.2 e.1 fun i =>
    x.2 e.1 i + expiredIn e.2 (x.1.core e.1).2.qos (y.1.core e.1).2.qos i

/-- The numbers of the cores. -/
structure StatsInv (P : Params σ ε) (n : ℕ) (x : Cores σ × Expired) : Prop where
  cores : CoresInv P x.1
  attaches : Attaches x.1.attr
  enabled : x.1.attr.ENABLE_FLOWQOS = true
  num : ∀ j, (x.1.core j).2.qos.priorityQueueNum = 4
  queue : ∀ j i, QueueLaw (x.1.core j).2.qos i (x.2 j i)
  paid : ∀ j, Paid (x.1.view j).2 (x.1.core j).2.hw.entries.length
  handed : ∑ j ∈ range n, ∑ i ∈ range 4, (x.1.core j).2.qos.total i = x.1.attr.FILTER_ENQUEUED_TOTAL

theorem expiredIn_drawn (e : Event σ ε) (pool : List CtxId) (q q' : FlowQoSStats) :
    expiredIn (e.drawn pool) q q' = expiredIn e q q' := by
  cases e <;> rfl

theorem StatsInv.step {x y : Cores σ × Expired} {e : ℕ × Event σ ε} (h : StatsInv P n x)
    (hs : Tallied P n x e y) : StatsInv P n y := by
  obtain ⟨m, expired⟩ := x
  obtain ⟨m', expired'⟩ := y
  obtain ⟨i, e⟩ := e
  obtain ⟨hi, hcs, hexp⟩ := hs
  obtain ⟨hcores, hat, -⟩ := h.cores.step h.attaches hcs
  obtain ⟨hT, hrun⟩ := hcs
  obtain ⟨w', hstep, rfl⟩ := map_eq_ok.1 hrun
  have hlent := steps_lend (h.cores.core i) hT hstep
  have hcounts := step_counts (h.cores.core i) hlent
  rw [expiredIn_drawn] at hcounts
  obtain ⟨hmoves, -⟩ := hlent.moves (L := ⟨True, True⟩) (h.cores.core i) (fun _ => trivial) fun _ _ => trivial
  have hattr : SameConfig m.attr w'.2.attr := Moves.sameConfig hmoves
  have hpaid : Paid w'.2 w'.2.hw.entries.length := by
    have hpaid := hlent.inv (L := ⟨True, True⟩)
      (Q := fun w => Attaches w.2.attr ∧ Paid w.2 w.2.hw.entries.length)
      (fun _ _ hok hinv hq hm => ⟨(attaches_congr hm.sameConfig).2 hq.1, paid_move hok hinv hq.1 hq.2 hm⟩)
      (h.cores.core i) ⟨h.attaches, ⟨(h.paid i).qos, (h.paid i).direct⟩⟩ (fun _ => trivial) fun _ _ => trivial
    exact ⟨hpaid.2.2.qos, hpaid.2.2.direct⟩
  have hself : (m.after i w').core i = w' := Function.update_self _ _ _
  have hother : ∀ {j}, j ≠ i → (m.after i w').core j = m.core j := fun hne => Function.update_of_ne hne _ _
  change expired' = Function.update expired i fun k =>
    expired i k + expiredIn e (m.core i).2.qos ((m.after i w').core i).2.qos k at hexp
  change CoresInv P (m.after i w') at hcores
  change StatsInv P n (m.after i w', expired')
  refine ⟨hcores, hat, hattr.ENABLE_FLOWQOS.trans h.enabled, fun j => ?_, fun j k => ?_, fun j => ?_, ?_⟩
  · show ((m.after i w').core j).2.qos.priorityQueueNum = 4
    by_cases hj : j = i
    · subst hj
      rw [hself]
      exact hcounts.num.trans (h.num j)
    · rw [hother hj]
      exact h.num j
  · show QueueLaw ((m.after i w').core j).2.qos k (expired' j k)
    by_cases hj : j = i
    · subst hj
      rw [hexp, Function.update_self, hself]
      exact hcounts.queue k (expired j k) (h.queue j k)
    · rw [hexp, Function.update_of_ne hj, hother hj]
      exact h.queue j k
  · show Paid ((m.after i w').view j).2 ((m.after i w').core j).2.hw.entries.length
    by_cases hj : j = i
    · subst hj
      rw [after_view_self, hself]
      exact hpaid
    · rw [hother hj]
      refine (h.paid j).congr hattr ?_ ?_ ?_ <;> simp only [Cores.view, hother hj]
  · have hchange := sum_range_change (f := fun j => ∑ k ∈ range 4, (m.core j).2.qos.total k)
      (g := fun j => ∑ k ∈ range 4, ((m.after i w').core j).2.qos.total k) hi fun j hj => by
        simp only [hother hj]
    simp only [hself, h.handed] at hchange
    have hhanded : ∑ k ∈ range 4, w'.2.qos.total k + m.attr.FILTER_ENQUEUED_TOTAL =
        ∑ k ∈ range 4, (m.core i).2.qos.total k + w'.2.attr.FILTER_ENQUEUED_TOTAL := hcounts.handed
    refine add_right_cancel (b := ∑ k ∈ range 4, (m.core i).2.qos.total k) (hchange.trans ?_)
    show m.attr.FILTER_ENQUEUED_TOTAL + _ = w'.2.attr.FILTER_ENQUEUED_TOTAL + _
    rw [add_comm, hhanded, add_comm]

end FlowQoS.Conntrack
