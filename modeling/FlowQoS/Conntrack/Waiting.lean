import FlowQoS.Conntrack.Aside
import FlowQoS.Conntrack.Round
import FlowQoS.Lib.Line
import Mathlib.Algebra.Order.BigOperators.Group.List

/-!
# How long a connection waits for the hardware

A connection that the filter lets through waits in the queue of its priority. Packets append to the queues, a
round of the scheduler takes the first entries of each, and timers that fire take entries out of the middle:
the queues are lines (`step_shifts`), in which no connection overtakes another one. A round that has tokens
for the weights of the queues down to queue `i`, and in which no insertion fails, takes as many of the first
of queue `i` as its weight is (`Full`, `step_full`). So a connection with `n` others ahead of it sees at most
`n / weight` such rounds before the one that offloads it (`run_waits`).
-/

namespace FlowQoS.Conntrack

open Lib Pipe Timer

variable {σ ε : Type} {P : Params σ ε} {w w' w₁ : World σ} {s s' : Core σ} {c : CtxId} {i : ℕ}
  {k : FlowQoSMatch} {m : Mbuf} {env : PacketEnv ε} {outcome : CtxId → Outcome}

/-! ### What an event does to the queues -/

/-- A context at the end of queue `p`. -/
def FlowQoSStats.join (q : FlowQoSStats) (p : ℕ) (c : CtxId) : FlowQoSStats :=
  { q with
    buckets := Function.update q.buckets p (q.buckets p ++ [c])
    total := Function.update q.total p (q.total p + 1) }

/-- A context that does not wait is put at the end of the queue of its priority, and the filter counts it, or
the scheduler is as it was. -/
def Joins (s s' : Core σ) : Prop :=
  (s'.qos = s.qos ∧ s'.attr.FILTER_ENQUEUED_TOTAL = s.attr.FILTER_ENQUEUED_TOTAL) ∨
    ∃ p c, p < 4 ∧ (∀ i, c ∉ s.qos.buckets i) ∧ s'.qos = s.qos.join p c ∧
      s'.attr.FILTER_ENQUEUED_TOTAL = s.attr.FILTER_ENQUEUED_TOTAL + 1

theorem filterRuntimeTune_enqueued {attr attr' : ConnAttr} {now : UInt64}
    (h : filterRuntimeTune attr now = .ok attr') :
    attr'.FILTER_ENQUEUED_TOTAL = attr.FILTER_ENQUEUED_TOTAL := by
  unfold filterRuntimeTune at h
  simp only at h
  split_ifs at h
  all_goals cases h; rfl

theorem shouldOffloadCt_enqueued (attr : ConnAttr) (x : ConnContext) (now : UInt64) :
    (shouldOffloadCt attr x now).2.FILTER_ENQUEUED_TOTAL = attr.FILTER_ENQUEUED_TOTAL := by
  unfold shouldOffloadCt
  simp only
  split <;> rfl

theorem offloadConn_qos (hnot : (w.2.ctx c).ct_state = .SW_FWD_STATE → ∀ i, c ∉ w.2.qos.buckets i)
    (hrun : offloadConn w c env = .ok w') : Joins w.2 w'.2 := by
  obtain ⟨attr, htune, hcase⟩ := offloadConn_cases hrun
  have henq := shouldOffloadCt_enqueued attr (w.2.ctx c) env.offload_tsc
  rw [filterRuntimeTune_enqueued htune] at henq
  generalize (shouldOffloadCt attr (w.2.ctx c) env.offload_tsc).2 = attr' at hcase henq
  cases hcase with
  | stay heq =>
    subst heq
    exact .inl ⟨rfl, henq⟩
  | enqueue hst hen heq =>
    subst heq
    refine .inr ⟨((w.2.ctx c).entry.priority % 4).toNat, c, ?_, hnot hst, rfl, ?_⟩
    · rw [UInt64.toNat_mod]
      exact Nat.mod_lt _ (by decide)
    · rw [← henq]
      rfl
  | install hst hen hnum ret s₁ hadd hret heq =>
    subst heq
    obtain ⟨-, entry, hw, rfl⟩ := offloadEntry_frame hadd
    exact .inl ⟨rfl, henq⟩
  | fail hst s₁ hadd heq =>
    subst heq
    obtain ⟨-, entry, hw, rfl⟩ := offloadEntry_frame hadd
    exact .inl ⟨rfl, henq⟩

theorem forward_qos (hnot : (w.2.ctx c).ct_state = .SW_FWD_STATE → ∀ i, c ∉ w.2.qos.buckets i)
    {v : Verdict} (hrun : forward m w c env = .ok (v, w')) : Joins w.2 w'.2 := by
  obtain ⟨w₁, pipe, hoff, -, hflush, -⟩ := forward_cases hrun
  have hjoins : Joins w.2 w₁.2 := by
    have hsame := offloadConn_qos (by simpa [Core.setCtx] using hnot) hoff
    exact hsame
  obtain ⟨-, r, -, rfl⟩ | rfl := flushTimer_cases hflush
  · exact hjoins
  · exact hjoins

theorem packet_qos (h : WorldInv P w) {v : Verdict} (hrun : conntrackPacketProcessor P m env w = .ok (v, w')) :
    Joins w.2 w'.2 := by
  rcases packet_cases hrun with ⟨-, -, rfl⟩ | ⟨e, -, -, hrest⟩
  · exact .inl ⟨rfl, rfl⟩
  rcases hrest with ⟨c, hk, hfwd⟩ | ⟨-, r, w₁, hopen, hrest⟩
  · refine forward_qos (fun hst i hmem => ?_) hfwd
    have hq : (w.2.ctx c).ct_state = .FLOW_QOS_STATE := (h.inv.queue.mem.1 hmem).2.1
    rw [hq] at hst
    cases hst
  · rcases openConn_cases hopen with ⟨-, rfl, rfl⟩ | ⟨f, ret, e', app, -, -, ⟨-, rfl, rfl⟩ | ⟨-, hadd⟩⟩
    · rcases hrest with ⟨-, -, -, rfl⟩ | ⟨c, hc, -⟩
      · exact .inl ⟨rfl, rfl⟩
      · cases hc
    · rcases hrest with ⟨-, -, -, rfl⟩ | ⟨c, hc, -⟩
      · exact .inl ⟨rfl, rfl⟩
      · cases hc
    · rcases addConnToHash_cases hadd with ⟨rfl, pool, -, rfl, -⟩ | ⟨c, mgr', rfl, hc, -, rfl⟩
      · rcases hrest with ⟨-, -, -, rfl⟩ | ⟨c, hc, -⟩
        · exact .inl ⟨rfl, rfl⟩
        · cases hc
      · rcases hrest with ⟨hno, -⟩ | ⟨c', hc', hfwd⟩
        · cases hno
        · cases hc'
          -- the context comes from the pool, so it does not wait
          have hjoins := forward_qos (by exact fun _ i hmem => (h.inv.queue.mem.1 hmem).1.2 hc) hfwd
          exact hjoins

theorem connExpireSw_qos (hexp : connExpireSw P c s = .ok s') :
    s'.qos = { s.qos with buckets := s'.qos.buckets } ∧
      ∀ i, (s'.qos.buckets i).Sublist (s.qos.buckets i) := by
  unfold connExpireSw at hexp
  simp only at hexp
  split at hexp
  · obtain ⟨s₁, hdel, hend⟩ := bind_eq_ok.1 hexp
    obtain ⟨app, rfl, -⟩ := agingConn_ok hend
    unfold delEntryEvent at hdel
    simp only at hdel
    split at hdel
    · cases hdel
      refine ⟨rfl, fun i => ?_⟩
      show (Function.update s.qos.buckets _ _ i).Sublist _
      rw [Function.update_apply]
      split
      · next heq =>
        rw [heq]
        exact List.erase_sublist
      · exact .refl _
    · cases hdel
  · obtain ⟨app, rfl, -⟩ := agingConn_ok hexp
    exact ⟨rfl, fun i => .refl _⟩

theorem tick_qos (h : WorldInv P w) (hT : w.1.timeout + 68719476735 < 2 ^ 64) {rdtsc : ℕ}
    (hrun : step P w (.tick rdtsc) = .ok w') : w'.2.qos = { w.2.qos with buckets := w'.2.qos.buckets } ∧
      ∀ i, (w'.2.qos.buckets i).Sublist (w.2.qos.buckets i) := by
  obtain ⟨mgr, s⟩ := w
  obtain ⟨⟨n, w₁⟩, htick, rfl⟩ := map_eq_ok.1 hrun
  unfold flowQoSTimerTick at htick
  split at htick
  · obtain ⟨hS, hfuel⟩ := armed_range h
    obtain ⟨mgr', due, hspec, -⟩ := timerTick_spec (inert_timerCallback (P := P)) h.mgr.wheel hT hS hfuel
    rw [hspec] at htick
    obtain ⟨s', hfold, heq⟩ := map_eq_ok.1 htick
    cases heq
    refine foldlM_inv (P := fun _ t => t.qos = { s.qos with buckets := t.qos.buckets } ∧
      ∀ i, (t.qos.buckets i).Sublist (s.qos.buckets i)) ?_ ⟨rfl, fun i => .refl _⟩ hfold
    intro x _ t t' ⟨hqos, hsub⟩ hfire
    unfold fire fired at hfire
    split at hfire
    · cases hfire
    · split at hfire
      · cases hfire
      · obtain ⟨hqos', hsub'⟩ := connExpireSw_qos hfire
        refine ⟨?_, fun i => (hsub' i).trans (hsub i)⟩
        rw [hqos', hqos]
  · cases htick
    exact ⟨rfl, fun i => .refl _⟩

theorem agedStep_qos {aged : HwEntry × Bool} (h : agedStep P s aged = .ok s') :
    s'.qos = { s.qos with maxEntry := s'.qos.maxEntry } := by
  obtain ⟨c', -, ⟨-, rfl⟩ | ⟨hw, -, hcase⟩⟩ := agedStep_ok h
  · rfl
  · obtain ⟨-, rfl⟩ | ⟨-, arg, -, hexp⟩ := hcase
    · rfl
    · unfold connExpireHw at hexp
      obtain ⟨app, rfl, -⟩ := agingConn_ok hexp
      simp only [Core.log]
      split
      · rfl
      · rfl

theorem connAgingHandle_qos {reports : ℕ → List (Handle × Bool)} (hrun : connAgingHandle P reports s = .ok s') :
    s'.qos = { s.qos with maxEntry := s'.qos.maxEntry } := by
  unfold connAgingHandle at hrun
  refine foldlM_inv (P := fun _ t => t.qos = { s.qos with maxEntry := t.qos.maxEntry }) ?_ rfl hrun
  intro i _ t t' ht hstep
  unfold agingHandle at hstep
  refine foldlM_inv (P := fun _ t => t.qos = { s.qos with maxEntry := t.qos.maxEntry }) ?_ ht hstep
  intro a _ u u' hu hu'
  rw [agedStep_qos hu', hu]

/-- What has been served when a round ends, by its plan or by an insertion that fails. -/
theorem Serves.served {xs : List (ℕ × CtxId)} {res : ℤ} {r : ℤ × Bool × World σ}
    (h : Serves outcome w xs res r) (hr : Ready w.2) : ∃ pre post w₁, xs = pre ++ post ∧
      Offloads outcome w pre w₁ ∧ r.2.2.2.qos = w₁.2.qos ∧ (r.2.1 = true → post = []) := by
  induction h with
  | done w res => exact ⟨[], [], w, rfl, .nil outcome w, rfl, fun _ => rfl⟩
  | @fails w s i c xs res hno hadd =>
    refine ⟨[], (i, c) :: xs, w, rfl, .nil outcome w, ?_, fun h => by cases h⟩
    obtain ⟨-, hs⟩ := offloadEntry_writes hadd
    rw [hs]
  | turn hok hturn _ ih =>
    obtain ⟨pre, post, w₁, rfl, hoff, hqos, hpost⟩ := ih (hturn.ready hr)
    exact ⟨_, post, w₁, rfl, .cons hturn hr hoff, hqos, hpost⟩

/-- A call of the scheduler that is not due changes nothing; a round serves the first entries of its plan,
all of them where no insertion fails. -/
theorem doEntryEvent_qos (hr : Ready w.2) {cur : UInt64} {r : ℤ × World σ}
    (hrun : doEntryEvent cur outcome w = .ok r) : r.2.2.qos = w.2.qos ∨
      ∃ pre post w₁ lastStmp, roundPlan w.2.qos = pre ++ post ∧ Offloads outcome w pre w₁ ∧
        r.2.2.qos = { w₁.2.qos with lastStmp := lastStmp } ∧
        ((∀ x ∈ roundPlan w.2.qos, (outcome x.2).ok = true) → post = []) := by
  unfold doEntryEvent at hrun
  split at hrun
  · obtain ⟨⟨res, goes, w'⟩, hqueues, hserves⟩ := qosQueues_serves outcome
      (List.range w.2.qos.priorityQueueNum).reverse 0 w (List.nodup_reverse.2 List.nodup_range) hr
    rw [hqueues] at hrun
    obtain ⟨pre, post, w₁, hplan, hoff, hqos, hpost⟩ := hserves.served hr
    change w'.2.qos = w₁.2.qos at hqos
    cases goes with
    | true =>
      cases hrun
      exact .inr ⟨pre, post, w₁, cur, hplan, hoff, by rw [hqos], fun _ => hpost rfl⟩
    | false =>
      cases hrun
      refine .inr ⟨pre, post, w₁, w₁.2.qos.lastStmp, hplan, hoff, by rw [hqos], fun hok => ?_⟩
      have hgoes := hserves.all hok
      cases hgoes
  · cases hrun
    exact .inl rfl

/-! ### The queues are lines -/

/-- An event leaves the parameters of the scheduler alone, and its queues are lines of which the ones from 4
on are not joined. -/
structure QueueStep (w w' : World σ) : Prop where
  priorityQueueNum : w'.2.qos.priorityQueueNum = w.2.qos.priorityQueueNum
  weight : w'.2.qos.weight = w.2.qos.weight
  shifts : ∀ i, Shifts (w.2.qos.buckets i) (w'.2.qos.buckets i)
  high : ∀ i, 4 ≤ i → (w'.2.qos.buckets i).Sublist (w.2.qos.buckets i)

/-- Some leave the queues. -/
theorem QueueStep.of_sublist {qos : FlowQoSStats} (hqos : w'.2.qos = qos)
    (hnum : qos.priorityQueueNum = w.2.qos.priorityQueueNum) (hweight : qos.weight = w.2.qos.weight)
    (hb : ∀ i, (qos.buckets i).Sublist (w.2.qos.buckets i)) : QueueStep w w' := by
  subst hqos
  exact ⟨hnum, hweight, fun i => .of_sublist (hb i), fun i _ => hb i⟩

theorem QueueStep.of_same (hqos : w'.2.qos = w.2.qos) : QueueStep w w' :=
  .of_sublist hqos rfl rfl fun _ => .refl _

theorem QueueStep.of_joins (h : Joins w.2 w'.2) : QueueStep w w' := by
  rcases h with ⟨hsame, -⟩ | ⟨p, c, hp, hnot, hjoin, -⟩
  · exact .of_same hsame
  · have hb : ∀ i, w'.2.qos.buckets i =
        if i = p then w.2.qos.buckets p ++ [c] else w.2.qos.buckets i := by
      intro i
      rw [hjoin]
      exact Function.update_apply _ _ _ _
    refine ⟨by rw [hjoin]; rfl, by rw [hjoin]; rfl, fun i => ?_, fun i hi => ?_⟩
    · rw [hb]
      split
      · next heq =>
        rw [heq]
        exact .join (hnot p)
      · exact .refl _
    · rw [hb, if_neg (by omega)]

/-- **An event of the core** shifts the queues. -/
theorem step_shifts (h : WorldInv P w) {e : Event σ ε} (hs : Steps P w e w') : QueueStep w w' := by
  obtain ⟨hT, hrun⟩ := hs
  have hT : w.1.timeout + 68719476735 < 2 ^ 64 := by omega
  cases e with
  | packet m env =>
    obtain ⟨⟨v, w₁⟩, hp, rfl⟩ := map_eq_ok.1 hrun
    exact .of_joins (packet_qos h hp)
  | tick rdtsc =>
    obtain ⟨hqos, hsub⟩ := tick_qos h hT hrun
    exact .of_sublist hqos rfl rfl hsub
  | qos rdtsc outcome =>
    simp only [step] at hrun
    split at hrun
    · obtain ⟨r, hq, rfl⟩ := map_eq_ok.1 hrun
      rcases doEntryEvent_qos h.inv.ready hq with hsame | ⟨pre, post, w₁, lastStmp, -, hoff, hqos, -⟩
      · exact .of_same hsame
      · refine .of_sublist hqos ?_ ?_ fun i => ?_
        · rw [hoff.qos]
        · rw [hoff.qos]
        · rw [← hoff.buckets i]
          exact List.sublist_append_right _ _
    · cases hrun
      exact .of_same rfl
  | aging reports =>
    obtain ⟨s', haging, rfl⟩ := map_eq_ok.1 hrun
    exact .of_sublist (connAgingHandle_qos haging) rfl rfl fun _ => .refl _
  | app app =>
    cases hrun
    exact .of_same rfl

/-! ### Full rounds -/

/-- The weights of the queues `is` that are not below queue `i`. -/
def weightsDownTo (q : FlowQoSStats) (i : ℕ) (is : List ℕ) : ℕ :=
  ((is.filter (i ≤ ·)).map fun j => (q.weight j).toNat).sum

/-- The plan takes as many of queue `i` as its weight is, where the tokens go as far. -/
theorem ofQueue_plan {q : FlowQoSStats} : ∀ {is : List ℕ} {tokens : ℕ}, is.Pairwise (· > ·) → i ∈ is →
    weightsDownTo q i is ≤ tokens → ofQueue i (plan q is tokens) = (q.buckets i).take (q.weight i).toNat
  | j :: is, tokens, hdesc, hmem, hle => by
    obtain ⟨hlt, hdesc'⟩ := List.pairwise_cons.1 hdesc
    have hsplit : ∀ xs ys : List (ℕ × CtxId), ofQueue i (xs ++ ys) = ofQueue i xs ++ ofQueue i ys := by
      intro xs ys
      unfold ofQueue
      rw [List.filter_append, List.map_append]
    simp only [plan, hsplit]
    by_cases hij : i = j
    · subst hij
      have hweights : weightsDownTo q i (i :: is) = (q.weight i).toNat + weightsDownTo q i is := by
        unfold weightsDownTo
        rw [List.filter_cons, if_pos (by simp), List.map_cons, List.sum_cons]
      have hfront : min (q.weight i).toNat tokens = (q.weight i).toNat := by omega
      have hself : ∀ cs : List CtxId, ofQueue i (cs.map (Prod.mk i)) = cs := by
        intro cs
        unfold ofQueue
        rw [List.filter_eq_self.2 (by simp), List.map_map]
        exact List.map_id _
      rw [hfront, hself, ofQueue_plan_of_not_mem fun h => Nat.lt_irrefl _ (hlt i h), List.append_nil]
    · have hin : i ∈ is := (List.mem_cons.1 hmem).resolve_left hij
      have hweights : weightsDownTo q i (j :: is) = (q.weight j).toNat + weightsDownTo q i is := by
        unfold weightsDownTo
        rw [List.filter_cons, if_pos (by simpa using Nat.le_of_lt (hlt i hin)), List.map_cons, List.sum_cons]
      have hlen : ((q.buckets j).take (min (q.weight j).toNat tokens)).length ≤ (q.weight j).toNat :=
        (List.length_take_le _ _).trans (Nat.min_le_left _ _)
      rw [ofQueue_map_of_ne hij, List.nil_append]
      exact ofQueue_plan hdesc' hin (by omega)
where
  ofQueue_plan_of_not_mem {q : FlowQoSStats} : ∀ {is : List ℕ} {tokens : ℕ}, i ∉ is →
      ofQueue i (plan q is tokens) = []
    | [], _, _ => rfl
    | j :: is, tokens, hnot => by
      obtain ⟨hne, hnot'⟩ := not_or.1 (mt List.mem_cons.2 hnot)
      unfold ofQueue
      simp only [plan, List.filter_append, List.map_append, List.append_eq_nil_iff]
      exact ⟨ofQueue_map_of_ne hne _, ofQueue_plan_of_not_mem hnot'⟩

/-- A round that is due, has tokens for the weights of the queues from the highest one down to queue `i`, and
in which the driver takes what it is asked to. -/
def Full (i : ℕ) (w : World σ) : Event σ ε → Prop
  | .qos cur outcome => w.2.attr.ENABLE_FLOWQOS = true ∧ cur - w.2.qos.lastStmp > w.2.qos.gap ∧
      weightsDownTo w.2.qos i (List.range w.2.qos.priorityQueueNum).reverse ≤ w.2.qos.maxEntry.toNat ∧
      ∀ x ∈ roundPlan w.2.qos, (outcome x.2).ok = true
  | _ => False

/-- **A full round** takes the first of the queue. -/
theorem step_full (h : WorldInv P w) (hi : i < w.2.qos.priorityQueueNum) {e : Event σ ε} (hf : Full i w e)
    (hs : Steps P w e w') :
    w'.2.qos.buckets i = (w.2.qos.buckets i).drop (w.2.qos.weight i).toNat := by
  cases e with
  | qos cur outcome =>
    obtain ⟨hen, hdue, htokens, hok⟩ := hf
    have hrun : (doEntryEvent cur outcome w).map Prod.snd = .ok w' := by
      have hrun := hs.2
      simp only [step] at hrun
      rwa [if_pos hen] at hrun
    obtain ⟨r, hq, rfl⟩ := map_eq_ok.1 hrun
    obtain ⟨w₁, hoff, hround⟩ := (round_reference outcome h.inv.ready hdue).1 hok
    rw [hround] at hq
    cases hq
    have hb : ofQueue i (roundPlan w.2.qos) ++ w₁.2.qos.buckets i = w.2.qos.buckets i := hoff.buckets i
    have htake : ofQueue i (roundPlan w.2.qos) = (w.2.qos.buckets i).take (w.2.qos.weight i).toNat := by
      refine ofQueue_plan ?_ ?_ htokens
      · rw [List.pairwise_reverse]
        exact List.pairwise_lt_range
      · rw [List.mem_reverse, List.mem_range]
        exact hi
    rw [htake] at hb
    show w₁.2.qos.buckets i = _
    have hsplit := List.take_append_drop (w.2.qos.weight i).toNat (w.2.qos.buckets i)
    exact List.append_cancel_left (hb.trans hsplit.symm)
  | packet => exact hf.elim
  | tick => exact hf.elim
  | aging => exact hf.elim
  | app => exact hf.elim

/-! ### Runs -/

/-- What holds of the queues in a run: they are those of the scheduler's parameters. -/
structure QueuesInv (P : Params σ ε) (q₀ : FlowQoSStats) (w : World σ) : Prop where
  inv : WorldInv P w
  num : w.2.attr.ENABLE_FLOWQOS = true → w.2.qos.priorityQueueNum = 4
  weight : w.2.qos.weight = q₀.weight
  high : ∀ i, 4 ≤ i → w.2.qos.buckets i = []

variable {q₀ : FlowQoSStats}

theorem QueuesInv.step (h : QueuesInv P q₀ w) {e : Event σ ε} (hs : Steps P w e w') : QueuesInv P q₀ w' := by
  obtain ⟨hm, hinv⟩ := hs.moves (L := ⟨True, True⟩) h.inv (fun _ => trivial) fun _ _ => trivial
  have hshifts := step_shifts h.inv hs
  have hen : w'.2.attr.ENABLE_FLOWQOS = w.2.attr.ENABLE_FLOWQOS := (Moves.sameConfig hm).ENABLE_FLOWQOS
  refine ⟨hinv, fun hon => ?_, hshifts.weight.trans h.weight, fun i hi => ?_⟩
  · rw [hshifts.priorityQueueNum]
    exact h.num (hen ▸ hon)
  · have hsub := hshifts.high i hi
    rw [h.high i hi] at hsub
    exact List.eq_nil_of_subset_nil hsub.subset

/-- A context that waits does so in a queue that the rounds serve. -/
theorem QueuesInv.served (h : QueuesInv P q₀ w) (hc : c ∈ w.2.qos.buckets i) :
    i < w.2.qos.priorityQueueNum := by
  obtain ⟨ha, hst, -⟩ := h.inv.inv.queue.mem.1 hc
  rw [h.num (h.inv.inv.queue.queued ha hst).1]
  by_contra hge
  rw [h.high i (by omega)] at hc
  cases hc

/-- What the initialisation of a port leaves alone, that of the ports does. -/
theorem initPorts_attr {α : Type} {f : ConnAttr → α}
    (hf : ∀ (s : Core σ) p, f (conntrackInitPort s p).attr = f s.attr) (ports : List (ℕ × UInt64)) (s : Core σ) :
    f (ports.foldl conntrackInitPort s).attr = f s.attr := by
  induction ports generalizing s with
  | nil => rfl
  | cons p ports ih => exact (ih _).trans (hf s p)

theorem boot_ENABLE_FLOWQOS (a : InitArgs) (ports : List (ℕ × UInt64)) (app : σ) :
    (boot a ports app).2.attr.ENABLE_FLOWQOS = decide (a.offloadSpeed > 0) :=
  initPorts_attr (f := ConnAttr.ENABLE_FLOWQOS) (fun _ _ => rfl) ports (conntrackInitEnv a app)

theorem queuesInv_boot {a : InitArgs} (ha : a.maxConntrack = P.maxConntrack) (ports : List (ℕ × UInt64))
    (app : σ) (hok : HandlerOk P (boot a ports app).2.attr) :
    QueuesInv P (boot a ports app).2.qos (boot a ports app) := by
  refine ⟨worldInv_boot ha ports app hok, fun hen => ?_, rfl, fun i _ => boot_buckets a ports app i⟩
  rw [boot_ENABLE_FLOWQOS] at hen
  have hspeed : a.offloadSpeed > 0 := by simpa using hen
  rw [boot_frame]
  simp only [conntrackInitEnv]
  rw [if_pos hspeed]
  rfl

/-- A run in which the context waits in queue `i` all the time, with the number of its full rounds. -/
inductive Waits (P : Params σ ε) (i : ℕ) (c : CtxId) : World σ → ℕ → World σ → Prop
  | start {w : World σ} : c ∈ w.2.qos.buckets i → Waits P i c w 0 w
  | event {w w₁ w' : World σ} {n : ℕ} {e : Event σ ε} : Waits P i c w n w₁ → Steps P w₁ e w' →
      c ∈ w'.2.qos.buckets i → Waits P i c w n w'
  | round {w w₁ w' : World σ} {n : ℕ} {e : Event σ ε} : Waits P i c w n w₁ → Full i w₁ e →
      Steps P w₁ e w' → c ∈ w'.2.qos.buckets i → Waits P i c w (n + 1) w'

theorem Waits.inv {n : ℕ} (h : Waits P i c w n w') (hw : QueuesInv P q₀ w) :
    QueuesInv P q₀ w' ∧ c ∈ w'.2.qos.buckets i := by
  induction h with
  | start hc => exact ⟨hw, hc⟩
  | event _ hs hc ih => exact ⟨ih.1.step hs, hc⟩
  | round _ _ hs hc ih => exact ⟨ih.1.step hs, hc⟩

/-- **The line of a context that waits.** -/
theorem Waits.advanced {n : ℕ} (h : Waits P i c w n w') (hw : QueuesInv P q₀ w) :
    Advanced (n * (q₀.weight i).toNat) (ahead (w.2.qos.buckets i) c) (ahead (w'.2.qos.buckets i) c) := by
  induction h with
  | start =>
    rw [Nat.zero_mul]
    exact .refl _
  | event hwaits hs hc ih =>
    obtain ⟨hinv, hc₁⟩ := hwaits.inv hw
    have hsub := ((step_shifts hinv.inv hs).shifts i).ahead (hinv.inv.inv.queue.nodup i) hc₁ hc
    exact ih.trans ⟨Nat.zero_le _, hsub⟩
  | @round w₁ w' n e hwaits hf hs hc ih =>
    obtain ⟨hinv, hc₁⟩ := hwaits.inv hw
    have hdrop := step_full hinv.inv (hinv.served hc₁) hf hs
    rw [hinv.weight] at hdrop
    rw [hdrop] at hc
    have hnd : (w₁.2.qos.buckets i).Nodup := hinv.inv.inv.queue.nodup i
    obtain ⟨hle, heq⟩ := ahead_drop hnd hc
    rw [Nat.succ_mul, hdrop, heq]
    exact ih.trans ⟨hle, .refl _⟩

/-- **Waiting is bounded, and first come is first served.** While a connection waits in queue `i`, in any run of
the core, those ahead of it have been ahead of it from the beginning, in the same order, and each full round
has taken as many of them as the weight of the queue is: there have been no more such rounds than those ahead
suffice for. -/
theorem run_waits (P : Params σ ε) {a : InitArgs} (ha : a.maxConntrack = P.maxConntrack)
    (ports : List (ℕ × UInt64)) (app : σ) (hok : HandlerOk P (boot a ports app).2.attr)
    {before : List (Event σ ε)} (hr : Runs P (boot a ports app) before w) {n : ℕ} (h : Waits P i c w n w') :
    n * ((boot a ports app).2.qos.weight i).toNat ≤ (ahead (w.2.qos.buckets i) c).length ∧
      (ahead (w'.2.qos.buckets i) c).Sublist
        ((ahead (w.2.qos.buckets i) c).drop (n * ((boot a ports app).2.qos.weight i).toNat)) :=
  h.advanced (Trace.inv (fun _ _ _ hw hs => hw.step hs) hr (queuesInv_boot ha ports app hok))

/-! ### Two connections in a queue -/

/-- The core after some events, where they are steps of a run. -/
def afterEvents (P : Params σ ε) (w : World σ) (es : List (Event σ ε)) : Option (World σ) :=
  es.foldlM (fun w e => if w.1.timeout < 2 ^ 64 - 2 ^ 36 then (step P w e).toOption else none) w

theorem runs_of_afterEvents {es : List (Event σ ε)} (h : afterEvents P w es = some w') : Runs P w es w' := by
  refine (Trace.of_foldlM h).mono fun w e w' hs => ?_
  split at hs
  · next hT =>
    refine ⟨hT, ?_⟩
    cases hrun : step P w e with
    | error => simp [hrun, Except.toOption] at hs
    | ok v => simpa [hrun, Except.toOption] using hs
  · cases hs

/-- QoS mode, with tokens for the weights of all the queues. -/
def eightEntries : InitArgs := { threeEntries with maxConntrack := 2, maxOffloadedEntry := 8 }

/-- As many packets of a connection as the filter asks for. -/
def burst (c : CtxId) (sport : UInt16) : List (Event ℕ Unit) :=
  List.replicate 137 (.packet { packetOf L4_TCP with sport := sport } (offloads c))

/-- The second connection of a queue of weight 1 waits for one full round. -/
theorem run_waits_two : ∃ w w' : World ℕ, Waits (accepting id) 0 1 w 1 w' ∧
    ahead (w.2.qos.buckets 0) 1 = [0] ∧ 1 ≤ (ahead (w.2.qos.buckets 0) 1).length := by
  have hrun : (afterEvents (accepting id) (boot eightEntries [(0, AGING ||| SIP)] 0)
      (burst 0 1 ++ burst 1 2)).any (fun w => decide (ahead (w.2.qos.buckets 0) 1 = [0] ∧
        1 ∈ w.2.qos.buckets 0 ∧ w.2.attr.ENABLE_FLOWQOS = true ∧
        2000000 - w.2.qos.lastStmp > w.2.qos.gap ∧
        weightsDownTo w.2.qos 0 (List.range w.2.qos.priorityQueueNum).reverse ≤ w.2.qos.maxEntry.toNat) &&
      (afterEvents (accepting id) w [.qos 2000000 inTime]).any fun w' => decide (1 ∈ w'.2.qos.buckets 0)) := by
    decide +kernel
  simp only [Option.any_eq_true, Bool.and_eq_true, decide_eq_true_eq] at hrun
  obtain ⟨w, hw, ⟨hahead, hc, hen, hdue, htokens⟩, w', hw', hc'⟩ := hrun
  cases runs_of_afterEvents hw' with
  | cons hs hnil =>
  cases hnil
  have hfull : Full 0 w (.qos 2000000 inTime : Event ℕ Unit) := ⟨hen, hdue, htokens, fun _ _ => rfl⟩
  have hwaits : Waits (accepting id) 0 1 w 1 w' := .round (.start hc) hfull hs hc'
  exact ⟨w, w', hwaits, hahead, (run_waits (accepting id) rfl [(0, AGING ||| SIP)] 0
    (.inl keepsAll_accepting) (runs_of_afterEvents hw) hwaits).1⟩

end FlowQoS.Conntrack
