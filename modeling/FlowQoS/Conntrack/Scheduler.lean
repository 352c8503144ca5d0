import FlowQoS.Conntrack.Step
import FlowQoS.Lib.Window
import Mathlib.Algebra.Order.BigOperators.Group.List

/-!
# Rounds of the scheduler

A call of `flowQoS_do_entry_event` is a sequence of turns, each of which offloads one entry (`Turn`).
A round that a failing insertion ends leaves `lastStmp` alone, so that the next one need not wait for
the gap: offloading is limited to the weights of the queues in a gap (`run_rate_limited`) where no
insertion fails after another one of its round has succeeded (`failing_insertion_not_limited`).
-/

set_option linter.unusedSectionVars false

namespace FlowQoS.Conntrack

open Lib Pipe Timer

variable {σ : Type} {w w' w₀ w₁ : World σ} {s s' : Core σ} {c : CtxId} {i : ℕ}
  {outcome : CtxId → Outcome}

/-! ### The congestion signal -/

/-- The first half of the congestion signal. -/
def clearCongested (s : Core σ) : Core σ :=
  let occupied := UInt64.ofInt (s.qos.maxEntryLimit - s.qos.maxEntry)
  let watermark := UInt64.ofInt ((mulInt s.qos.maxEntryLimit s.qos.hwWatermarkPercent).tdiv 100)
  if s.qos.maxEntryLimit > 0 ∧ occupied < watermark then
    { s with qos := { s.qos with hwCongested := 0 } }
  else s

/-- `qosCongestionHandler` is called in the second half. -/
def signals (s : Core σ) : Bool :=
  let occupied := UInt64.ofInt (s.qos.maxEntryLimit - s.qos.maxEntry)
  let watermark := UInt64.ofInt ((mulInt s.qos.maxEntryLimit s.qos.hwWatermarkPercent).tdiv 100)
  decide (s.qos.maxEntryLimit > 0 ∧ s.congestionHandler ∧ occupied ≥ watermark ∧
    (clearCongested s).qos.hwCongested = 0)

theorem congestion_eq_signals (s : Core σ) : congestion s =
    if signals s then
      { clearCongested s with
        qos := { (clearCongested s).qos with hwCongested := 1 }
        attr := filterCongestionCb (clearCongested s).attr }
    else clearCongested s := by
  unfold congestion signals clearCongested
  simp only
  split
  · simp
  · simp

/-! ### Turns -/

/-- The label of a turn: the queue, the context, and whether `qosCongestionHandler` is called. -/
structure TurnLabel where
  queue : ℕ
  ctx : CtxId
  signalled : Bool

/-- A turn of the loop of `flowQoS_do_entry_event` that offloads an entry. -/
def Turn (outcome : CtxId → Outcome) (w : World σ) (t : TurnLabel) (w' : World σ) : Prop :=
  0 < w.2.qos.maxEntry ∧ ∃ ret s arg s',
    offloadEntry w.2 t.ctx (outcome t.ctx) = .ok (ret, s) ∧ 0 < ret ∧
    (s.ctx t.ctx).entry.flowQoS_args = some arg ∧
    t.signalled = signals (spendEntry (qosHandler (w.1, s) arg).2 t.queue) ∧
    delEntryEvent (congestion (spendEntry (qosHandler (w.1, s) arg).2 t.queue)) t.ctx = .ok s' ∧
    w' = ((qosHandler (w.1, s) arg).1, s')

/-- The queues are as `flowQoS_add_entry_event` fills them. -/
structure Queued (s : Core σ) : Prop where
  nodup : ∀ i, (s.qos.buckets i).Nodup
  priority : ∀ {i c}, c ∈ s.qos.buckets i → (s.ctx c).entry.priority.toNat = i

/-- The scheduler's data and the priorities are the same. -/
structure SameScheduler (s s' : Core σ) : Prop where
  qos : s'.qos = s.qos
  handler : s'.congestionHandler = s.congestionHandler
  priority : ∀ c, (s'.ctx c).entry.priority = (s.ctx c).entry.priority

theorem SameScheduler.refl (s : Core σ) : SameScheduler s s := ⟨rfl, rfl, fun _ => rfl⟩

theorem offloadEntry_qos {o : Outcome} {ret : ℤ} (h : offloadEntry s c o = .ok (ret, s')) :
    ret = (if o.ok then 1 else 0) ∧ SameScheduler s s' := by
  unfold offloadEntry at h
  split at h
  · cases h
  · simp only [addEntry, Except.ok.injEq, Prod.mk.injEq] at h
    obtain ⟨hret, rfl⟩ := h
    refine ⟨hret.symm, rfl, rfl, fun c' => ?_⟩
    simp only [Core.setCtx, Function.update_apply]
    split
    · next heq =>
      rw [heq]
    · rfl

/-- The scheduler's data after the congestion signal: the flag may have changed. -/
theorem congestion_qos (s : Core σ) :
    (congestion s).qos = { s.qos with hwCongested := (congestion s).qos.hwCongested } ∧
      (congestion s).congestionHandler = s.congestionHandler ∧ (congestion s).ctx = s.ctx := by
  obtain ⟨n, attr, -, heq⟩ := congestion_eq s
  rw [heq]
  exact ⟨rfl, rfl, rfl⟩

/-- **What a turn does**: an entry of the budget is spent on the queue, and the entry leaves its queue. -/
structure TurnSpec (outcome : CtxId → Outcome) (w : World σ) (t : TurnLabel) (w' : World σ) : Prop where
  room : 0 < w.2.qos.maxEntry
  ok : (outcome t.ctx).ok = true
  qos : w'.2.qos = { w.2.qos with
    maxEntry := w.2.qos.maxEntry - 1
    finished := Function.update w.2.qos.finished t.queue (w.2.qos.finished t.queue + 1)
    hwCongested := w'.2.qos.hwCongested
    buckets := w'.2.qos.buckets }
  buckets : t.ctx ∈ w.2.qos.buckets (w.2.ctx t.ctx).entry.priority.toNat ∧
    w'.2.qos.buckets = Function.update w.2.qos.buckets (w.2.ctx t.ctx).entry.priority.toNat
      ((w.2.qos.buckets (w.2.ctx t.ctx).entry.priority.toNat).erase t.ctx)
  handler : w'.2.congestionHandler = w.2.congestionHandler
  priority : ∀ c, (w'.2.ctx c).entry.priority = (w.2.ctx c).entry.priority

theorem Turn.spec {t : TurnLabel} (h : Turn outcome w t w') : TurnSpec outcome w t w' := by
  obtain ⟨hroom, ret, s, arg, s', hadd, hret, -, -, hdel, rfl⟩ := h
  obtain ⟨hok, hqos, hhandler, hprio⟩ := offloadEntry_qos hadd
  have hprio' : ∀ c, (((qosHandler (w.1, s) arg).2).ctx c).entry.priority =
      (w.2.ctx c).entry.priority := by
    intro c
    rw [← hprio]
    simp only [qosHandler, Core.toHw, Core.setCtx, Function.update_apply]
    split
    · next heq =>
      rw [heq]
    · rfl
  obtain ⟨hcong, hhandler', hctx⟩ := congestion_qos (spendEntry (qosHandler (w.1, s) arg).2 t.queue)
  unfold delEntryEvent at hdel
  simp only [hctx] at hdel
  split at hdel
  · next hmem =>
    cases hdel
    have hb : (congestion (spendEntry (qosHandler (w.1, s) arg).2 t.queue)).qos.buckets =
        w.2.qos.buckets := by
      rw [hcong]
      show s.qos.buckets = w.2.qos.buckets
      rw [hqos]
    have hp : ((spendEntry (qosHandler (w.1, s) arg).2 t.queue).ctx t.ctx).entry.priority =
        (w.2.ctx t.ctx).entry.priority := hprio' t.ctx
    rw [hp, hb] at hmem
    refine ⟨hroom, ?_, ?_, ⟨hmem, ?_⟩, hhandler'.trans hhandler, fun c => ?_⟩
    · by_contra hno
      rw [if_neg hno] at hok
      omega
    · simp only
      rw [hcong]
      simp only [spendEntry, qosHandler, Core.toHw, Core.setCtx, hqos]
    · simp only
      rw [hp, hb]
    · exact hprio' c
  · cases hdel

/-! ### A round as a sequence of turns -/

/-- The loop over a queue: at most as many turns as the queue's weight, and then perhaps an insertion that
fails. -/
theorem qosLoop_turns {i : ℕ} : ∀ (rest : List CtxId) (weight res : ℤ) (w : World σ)
    {r : ℤ × Bool × World σ}, qosLoop i outcome rest weight res w = .ok r →
    ∃ ts w₁, Trace (Turn outcome) w ts w₁ ∧ (∀ t ∈ ts, t.queue = i) ∧ ts.length ≤ weight.toNat ∧
      (r.2.1 = true → r.2.2 = w₁) ∧ SameScheduler w₁.2 r.2.2.2
  | [], weight, res, w, r, hrun => by
    cases hrun
    exact ⟨[], w, .nil w, by simp, by simp, fun _ => rfl, .refl _⟩
  | c :: rest, weight, res, w, r, hrun => by
    obtain ⟨-, rfl⟩ | ⟨hgo, ret, s, hadd, hcase⟩ := qosLoop_cons_ok hrun
    · exact ⟨[], w, .nil w, by simp, by simp, fun _ => rfl, .refl _⟩
    obtain ⟨-, rfl⟩ | ⟨hpos, arg, s', harg, hdel, hnext⟩ := hcase
    · exact ⟨[], w, .nil w, by simp, by simp, fun hc => (by cases hc), (offloadEntry_qos hadd).2⟩
    · obtain ⟨ts, w₁, htrace, hqueue, hlen, hend⟩ := qosLoop_turns rest _ _ _ hnext
      refine ⟨⟨i, c, signals (spendEntry (qosHandler (w.1, s) arg).2 i)⟩ :: ts, w₁, .cons ?_ htrace, ?_, ?_,
        hend⟩
      · exact ⟨by omega, ret, s, arg, s', hadd, by omega, harg, rfl, hdel, rfl⟩
      · intro t ht
        rcases List.mem_cons.1 ht with rfl | ht
        · rfl
        · exact hqueue t ht
      · rw [List.length_cons]
        omega

/-- The number of turns for a queue. -/
def turnsOf (i : ℕ) (ts : List TurnLabel) : ℕ := ts.countP fun t => t.queue = i

/-- Every turn is counted in `finished`, and changes none of the parameters. -/
structure TurnsSpec (w : World σ) (ts : List TurnLabel) (w' : World σ) : Prop where
  qos : w'.2.qos = { w.2.qos with
    maxEntry := w'.2.qos.maxEntry
    finished := fun i => w.2.qos.finished i + UInt64.ofNat (turnsOf i ts)
    hwCongested := w'.2.qos.hwCongested
    buckets := w'.2.qos.buckets }
  handler : w'.2.congestionHandler = w.2.congestionHandler

theorem turns_spec {ts : List TurnLabel} (h : Trace (Turn outcome) w ts w') : TurnsSpec w ts w' := by
  induction h with
  | nil w => exact ⟨by simp [turnsOf], rfl⟩
  | @cons w w₁ w' t ts hturn _ ih =>
    have hspec := hturn.spec
    refine ⟨?_, ih.handler.trans hspec.handler⟩
    rw [ih.qos, hspec.qos]
    simp only [FlowQoSStats.mk.injEq, true_and, and_true]
    funext i
    unfold turnsOf
    rw [List.countP_cons, Function.update_apply]
    by_cases hi : i = t.queue
    · subst hi
      have hone : UInt64.ofNat 1 = 1 := rfl
      simp only [decide_true, if_true, UInt64.ofNat_add, hone]
      ac_rfl
    · simp [hi, Ne.symm hi]

theorem qosQueues_turns : ∀ (is : List ℕ) (res : ℤ) (w : World σ) {r : ℤ × Bool × World σ}, is.Nodup →
    qosQueues outcome is res w = .ok r →
    ∃ ts w₁, Trace (Turn outcome) w ts w₁ ∧ (∀ i, turnsOf i ts ≤ (w.2.qos.weight i).toNat) ∧
      (∀ t ∈ ts, t.queue ∈ is) ∧ (r.2.1 = true → r.2.2 = w₁) ∧ SameScheduler w₁.2 r.2.2.2
  | [], res, w, r, _, hrun => by
    cases hrun
    exact ⟨[], w, .nil w, by simp [turnsOf], by simp, fun _ => rfl, .refl _⟩
  | i :: is, res, w, r, hnd, hrun => by
    unfold qosQueues at hrun
    obtain ⟨⟨res', goes, w₁⟩, hloop, hrun⟩ := bind_eq_ok.1 hrun
    obtain ⟨hnot, hnd'⟩ := List.nodup_cons.1 hnd
    obtain ⟨ts, w₂, htrace, hqueue, hlen, hgoes, hsame⟩ := qosLoop_turns _ _ _ _ hloop
    have hone : ∀ j, turnsOf j ts ≤ if j = i then (w.2.qos.weight i).toNat else 0 := by
      intro j
      unfold turnsOf
      by_cases hj : j = i
      · rw [if_pos hj]
        exact List.countP_le_length.trans hlen
      · rw [if_neg hj, List.countP_eq_zero.2]
        intro t ht
        rw [hqueue t ht]
        simp [Ne.symm hj]
    simp only at hrun hgoes hsame
    split at hrun
    · next hg =>
      obtain rfl := hgoes hg
      obtain ⟨ts', w₃, htrace', hle, hmem, hend⟩ := qosQueues_turns is _ _ hnd' hrun
      refine ⟨ts ++ ts', w₃, htrace.append htrace', fun j => ?_, ?_, hend⟩
      · have hweight : w₁.2.qos.weight = w.2.qos.weight := by rw [(turns_spec htrace).qos]
        have h1 := hone j
        have h2 := hle j
        rw [hweight] at h2
        have hsum : turnsOf j (ts ++ ts') = turnsOf j ts + turnsOf j ts' := List.countP_append
        rw [hsum]
        by_cases hj : j = i
        · rw [if_pos hj] at h1
          have hzero : turnsOf j ts' = 0 := by
            refine List.countP_eq_zero.2 fun t ht => ?_
            have hin := hmem t ht
            simp only [decide_eq_true_eq]
            rintro rfl
            exact hnot (hj ▸ hin)
          rw [hj] at hzero h1 ⊢
          omega
        · rw [if_neg hj] at h1
          omega
      · intro t ht
        rcases List.mem_append.1 ht with ht | ht
        · rw [hqueue t ht]
          exact List.mem_cons_self
        · exact List.mem_cons_of_mem _ (hmem t ht)
    · next hg =>
      cases hrun
      refine ⟨ts, w₂, htrace, fun j => ?_, fun t ht => ?_, fun hc => (by cases hc), hsame⟩
      · have h1 := hone j
        split at h1
        · next hj =>
          rw [hj] at h1 ⊢
          exact h1
        · omega
      · rw [hqueue t ht]
        exact List.mem_cons_self

/-- **A call of `flowQoS_do_entry_event` is a sequence of turns**, at most as many for a queue as its weight,
and none within the gap. A round that has not been cut short writes `lastStmp`. -/
theorem round_turns {cur : UInt64} {res : ℤ} (hrun : doEntryEvent cur outcome w = .ok (res, w')) :
    ∃ ts w₁, Trace (Turn outcome) w ts w₁ ∧ (∀ i, turnsOf i ts ≤ (w.2.qos.weight i).toNat) ∧
      (ts ≠ [] → cur - w.2.qos.lastStmp > w.2.qos.gap) ∧
      SameScheduler { w₁.2 with qos := { w₁.2.qos with lastStmp := w'.2.qos.lastStmp } } w'.2 ∧
      (w'.2.qos.lastStmp = w.2.qos.lastStmp ∨
        w'.2.qos.lastStmp = cur ∧ cur - w.2.qos.lastStmp > w.2.qos.gap) := by
  unfold doEntryEvent at hrun
  split at hrun
  · next hgap =>
    obtain ⟨⟨res', goes, w₁⟩, hqs, hrun⟩ := bind_eq_ok.1 hrun
    obtain ⟨ts, w₂, htrace, hle, -, hgoes, hsame⟩ :=
      qosQueues_turns _ _ _ (List.nodup_reverse.2 List.nodup_range) hqs
    simp only at hrun hgoes hsame
    split at hrun
    · next hg =>
      cases hrun
      obtain rfl := hgoes hg
      exact ⟨ts, w₁, htrace, hle, fun _ => hgap, ⟨rfl, rfl, fun _ => rfl⟩, .inr ⟨rfl, hgap⟩⟩
    · cases hrun
      refine ⟨ts, w₂, htrace, hle, fun _ => hgap, ⟨?_, hsame.handler, hsame.priority⟩, .inl ?_⟩
      · rw [hsame.qos]
      · rw [hsame.qos, (turns_spec htrace).qos]
  · cases hrun
    exact ⟨[], w, .nil w, by simp [turnsOf], by simp, ⟨rfl, rfl, fun _ => rfl⟩, .inl rfl⟩

/-! ### Rounds that are not cut short -/

/-- The entries that a round asks the hardware for, in their order, where every insertion succeeds. -/
def attempts (is : List ℕ) (q : FlowQoSStats) : List CtxId :=
  (is.flatMap fun i => (q.buckets i).take (q.weight i).toNat).take q.maxEntry.toNat

/-- In a round every insertion that is asked for succeeds, or the first one fails. -/
def Completes (outcome : CtxId → Outcome) (attempts : List CtxId) : Prop :=
  (∀ c ∈ attempts, (outcome c).ok = true) ∨ ∃ c, attempts.head? = some c ∧ (outcome c).ok = false

theorem TurnSpec.queued {t : TurnLabel} (h : TurnSpec outcome w t w') (hq : Queued w.2) :
    Queued w'.2 := by
  obtain ⟨-, hb⟩ := h.buckets
  refine ⟨fun j => ?_, fun {j c} hc => ?_⟩
  · rw [hb, Function.update_apply]
    split
    · exact (hq.nodup _).erase _
    · exact hq.nodup j
  · rw [h.priority]
    rw [hb, Function.update_apply] at hc
    split at hc
    · next heq =>
      rw [heq]
      exact hq.priority (List.mem_of_mem_erase hc)
    · exact hq.priority hc

/-- What is left for the queues below, after a queue has had its turns. -/
structure QueueDone (i : ℕ) (n : ℕ) (w w' : World σ) : Prop where
  queued : Queued w'.2
  buckets : ∀ j, j ≠ i → w'.2.qos.buckets j = w.2.qos.buckets j
  weight : w'.2.qos.weight = w.2.qos.weight
  maxEntry : w'.2.qos.maxEntry = w.2.qos.maxEntry - n

/-- A loop whose insertions all succeed goes on to the next queue. -/
theorem qosLoop_completes {i : ℕ} : ∀ (rest : List CtxId) (weight res : ℤ) (w : World σ)
    {r : ℤ × Bool × World σ}, Queued w.2 → w.2.qos.buckets i = rest →
    (∀ c ∈ rest.take (min weight.toNat w.2.qos.maxEntry.toNat), (outcome c).ok = true) →
    qosLoop i outcome rest weight res w = .ok r →
    r.2.1 = true ∧ QueueDone i (rest.take (min weight.toNat w.2.qos.maxEntry.toNat)).length w r.2.2
  | [], weight, res, w, r, hq, hb, hok, hrun => by
    cases hrun
    exact ⟨rfl, hq, fun _ _ => rfl, rfl, by simp⟩
  | c :: rest, weight, res, w, r, hq, hb, hok, hrun => by
    obtain ⟨hstop, rfl⟩ | ⟨hgo, ret, s, hadd, hcase⟩ := qosLoop_cons_ok hrun
    · have hzero : min weight.toNat w.2.qos.maxEntry.toNat = 0 := by omega
      rw [hzero]
      exact ⟨rfl, hq, fun _ _ => rfl, rfl, by simp⟩
    obtain ⟨n, hn⟩ : ∃ n, min weight.toNat w.2.qos.maxEntry.toNat = n + 1 :=
      ⟨min weight.toNat w.2.qos.maxEntry.toNat - 1, by omega⟩
    rw [hn, List.take_succ_cons] at hok ⊢
    obtain ⟨hret, -⟩ := offloadEntry_qos hadd
    rw [if_pos (hok c List.mem_cons_self)] at hret
    obtain ⟨hle, -⟩ | ⟨hpos, arg, s', harg, hdel, hnext⟩ := hcase
    · omega
    · have hturn : Turn outcome w ⟨i, c, signals (spendEntry (qosHandler (w.1, s) arg).2 i)⟩
          ((qosHandler (w.1, s) arg).1, s') :=
        ⟨by omega, ret, s, arg, s', hadd, by omega, harg, rfl, hdel, rfl⟩
      have hspec := hturn.spec
      have hmem : c ∈ w.2.qos.buckets i := by
        rw [hb]
        exact List.mem_cons_self
      have hq' := hspec.queued hq
      have hb' := hspec.buckets.2
      rw [hq.priority hmem] at hb'
      have hqos := hspec.qos
      have hmax : s'.qos.maxEntry = w.2.qos.maxEntry - 1 := by
        simp only at hqos
        rw [hqos]
      have hweight : s'.qos.weight = w.2.qos.weight := by
        simp only at hqos
        rw [hqos]
      have hrest : s'.qos.buckets i = rest := by
        simp only at hb'
        rw [hb', Function.update_self, hb, List.erase_cons_head]
      have hmin : min (weight - 1).toNat s'.qos.maxEntry.toNat = n := by
        rw [hmax]
        omega
      obtain ⟨hgoes, hdone⟩ := qosLoop_completes rest _ _ _ hq' hrest (by
        simp only [hmin]
        exact fun c' hc' => hok c' (List.mem_cons_of_mem _ hc')) hnext
      simp only [hmin] at hdone
      refine ⟨hgoes, hdone.queued, fun j hj => ?_, hdone.weight.trans hweight, ?_⟩
      · rw [hdone.buckets j hj, hb', Function.update_of_ne hj]
      · rw [hdone.maxEntry, hmax, List.length_cons]
        omega

/-- A loop that asks for nothing changes nothing. -/
theorem qosLoop_idle {i : ℕ} {rest : List CtxId} {weight res res' : ℤ} {goes : Bool}
    (hidle : rest.take (min weight.toNat w.2.qos.maxEntry.toNat) = [])
    (hrun : qosLoop i outcome rest weight res w = .ok (res', goes, w')) : w' = w := by
  cases rest with
  | nil =>
    cases hrun
    rfl
  | cons c rest =>
    have hzero : min weight.toNat w.2.qos.maxEntry.toNat = 0 := by
      by_contra hne
      rw [List.take_eq_nil_iff] at hidle
      rcases hidle with h | h
      · exact hne h
      · cases h
    obtain ⟨-, heq⟩ | ⟨hgo, -⟩ := qosLoop_cons_ok hrun
    · cases heq
      rfl
    · omega

/-- A loop whose first insertion fails ends the round and has changed nothing of the scheduler. -/
theorem qosLoop_fails {i : ℕ} {rest : List CtxId} {weight res : ℤ} {r : ℤ × Bool × World σ}
    (hfail : ∃ c, (rest.take (min weight.toNat w.2.qos.maxEntry.toNat)).head? = some c ∧
      (outcome c).ok = false) (hrun : qosLoop i outcome rest weight res w = .ok r) :
    r.2.1 = false ∧ r.2.2.2.qos = w.2.qos := by
  obtain ⟨c, hhead, hno⟩ := hfail
  cases rest with
  | nil => simp at hhead
  | cons c' rest =>
    obtain ⟨hstop, -⟩ | ⟨hgo, ret, s, hadd, hcase⟩ := qosLoop_cons_ok hrun
    · have hzero : min weight.toNat w.2.qos.maxEntry.toNat = 0 := by omega
      rw [hzero] at hhead
      cases hhead
    obtain ⟨n, hn⟩ : ∃ n, min weight.toNat w.2.qos.maxEntry.toNat = n + 1 :=
      ⟨min weight.toNat w.2.qos.maxEntry.toNat - 1, by omega⟩
    rw [hn, List.take_succ_cons, List.head?_cons] at hhead
    cases hhead
    obtain ⟨hret, hsame⟩ := offloadEntry_qos hadd
    rw [hno] at hret
    obtain ⟨-, rfl⟩ | ⟨hpos, -⟩ := hcase
    · exact ⟨rfl, hsame.qos⟩
    · simp only [Bool.false_eq_true, if_false] at hret
      omega

/-- The insertions of the first queue, and those of the queues below with what is left of the budget. -/
theorem attempts_cons (i : ℕ) (is : List ℕ) (q : FlowQoSStats) : attempts (i :: is) q =
    (q.buckets i).take (min (q.weight i).toNat q.maxEntry.toNat) ++
      (is.flatMap fun i => (q.buckets i).take (q.weight i).toNat).take
        (q.maxEntry.toNat - ((q.buckets i).take (q.weight i).toNat).length) := by
  unfold attempts
  rw [List.flatMap_cons, List.take_append, List.take_take, min_comm]

theorem QueueDone.attempts {is : List ℕ}
    (h : QueueDone i ((w.2.qos.buckets i).take (min (w.2.qos.weight i).toNat w.2.qos.maxEntry.toNat)).length
      w w') (hnot : i ∉ is) : Conntrack.attempts is w'.2.qos =
    (is.flatMap fun i => (w.2.qos.buckets i).take (w.2.qos.weight i).toNat).take
      (w.2.qos.maxEntry.toNat - ((w.2.qos.buckets i).take (w.2.qos.weight i).toNat).length) := by
  have hmap : (is.flatMap fun i => (w'.2.qos.buckets i).take (w'.2.qos.weight i).toNat) =
      is.flatMap fun i => (w.2.qos.buckets i).take (w.2.qos.weight i).toNat := by
    refine List.flatMap_congr fun j hj => ?_
    rw [h.weight, h.buckets j fun heq => hnot (heq ▸ hj)]
  unfold Conntrack.attempts
  rw [hmap, h.maxEntry]
  simp only [List.length_take]
  congr 1
  omega

theorem qosQueues_completes : ∀ (is : List ℕ) (res : ℤ) (w : World σ) {r : ℤ × Bool × World σ}, is.Nodup →
    Queued w.2 → (∀ c ∈ attempts is w.2.qos, (outcome c).ok = true) →
    qosQueues outcome is res w = .ok r → r.2.1 = true
  | [], res, w, r, _, _, _, hrun => by
    cases hrun
    rfl
  | i :: is, res, w, r, hnd, hq, hok, hrun => by
    unfold qosQueues at hrun
    obtain ⟨⟨res', goes, w₁⟩, hloop, hrun⟩ := bind_eq_ok.1 hrun
    obtain ⟨hnot, hnd'⟩ := List.nodup_cons.1 hnd
    rw [attempts_cons] at hok
    obtain ⟨hgoes, hdone⟩ := qosLoop_completes _ _ _ _ hq rfl
      (fun c hc => hok c (List.mem_append_left _ hc)) hloop
    simp only at hrun hgoes hdone
    rw [if_pos hgoes] at hrun
    refine qosQueues_completes is _ _ hnd' hdone.queued (fun c hc => hok c (List.mem_append_right _ ?_)) hrun
    rwa [hdone.attempts hnot] at hc

theorem qosQueues_fails : ∀ (is : List ℕ) (res : ℤ) (w : World σ) {r : ℤ × Bool × World σ}, is.Nodup →
    Queued w.2 → (∃ c, (attempts is w.2.qos).head? = some c ∧ (outcome c).ok = false) →
    qosQueues outcome is res w = .ok r → r.2.1 = false ∧ r.2.2.2.qos.finished = w.2.qos.finished
  | [], res, w, r, _, _, hfail, hrun => by
    obtain ⟨c, hhead, -⟩ := hfail
    simp [attempts] at hhead
  | i :: is, res, w, r, hnd, hq, hfail, hrun => by
    unfold qosQueues at hrun
    obtain ⟨⟨res', goes, w₁⟩, hloop, hrun⟩ := bind_eq_ok.1 hrun
    obtain ⟨hnot, hnd'⟩ := List.nodup_cons.1 hnd
    obtain ⟨c, hhead, hno⟩ := hfail
    rw [attempts_cons] at hhead
    cases hfirst : (w.2.qos.buckets i).take (min (w.2.qos.weight i).toNat w.2.qos.maxEntry.toNat) with
    | nil =>
      -- nothing is asked for in this queue
      rw [hfirst, List.nil_append] at hhead
      obtain ⟨hgoes, hdone⟩ := qosLoop_completes _ _ _ _ hq rfl
        (by rw [hfirst]; exact fun c hc => absurd hc List.not_mem_nil) hloop
      have hfin : w₁.2.qos.finished = w.2.qos.finished := by rw [qosLoop_idle hfirst hloop]
      simp only at hrun hgoes hdone
      rw [if_pos hgoes] at hrun
      rw [← hdone.attempts hnot] at hhead
      obtain ⟨hstop, hsame⟩ := qosQueues_fails is _ _ hnd' hdone.queued ⟨c, hhead, hno⟩ hrun
      exact ⟨hstop, hsame.trans hfin⟩
    | cons c' rest =>
      rw [hfirst, List.cons_append, List.head?_cons] at hhead
      cases hhead
      obtain ⟨hstop, hqos⟩ := qosLoop_fails ⟨c, by rw [hfirst]; rfl, hno⟩ hloop
      simp only at hrun hstop hqos
      rw [hstop] at hrun
      cases hrun
      exact ⟨rfl, by rw [hqos]⟩

/-- A round that is not cut short has written `lastStmp`, or it has offloaded nothing. -/
theorem round_completes {cur : UInt64} {res : ℤ} (hq : Queued w.2)
    (hc : Completes outcome (attempts (List.range w.2.qos.priorityQueueNum).reverse w.2.qos))
    (hrun : doEntryEvent cur outcome w = .ok (res, w')) :
    w'.2.qos.lastStmp = cur ∨ w'.2.qos.finished = w.2.qos.finished := by
  unfold doEntryEvent at hrun
  have hnd : (List.range w.2.qos.priorityQueueNum).reverse.Nodup := List.nodup_reverse.2 List.nodup_range
  split at hrun
  · obtain ⟨⟨res', goes, w₁⟩, hqs, hrun⟩ := bind_eq_ok.1 hrun
    simp only at hrun
    rcases hc with hok | hfail
    · have hgoes := qosQueues_completes _ _ _ hnd hq hok hqs
      simp only at hgoes
      rw [if_pos hgoes] at hrun
      cases hrun
      exact .inl rfl
    · obtain ⟨hstop, hfin⟩ := qosQueues_fails _ _ _ hnd hq hfail hqs
      simp only at hstop hfin
      rw [hstop] at hrun
      cases hrun
      exact .inr hfin
  · cases hrun
    exact .inr rfl

/-! ### Runs of the scheduler -/

/-- What happens to the scheduler of a core: a call of `flowQoS_do_entry_event`, which offloads so many
entries of each queue, a call of `flowQoS_return_entry_event`, or a change of the queues and of the rest of
the core. -/
inductive SchedEvent where
  | round (cur : UInt64) (outcome : CtxId → Outcome) (offloaded : ℕ → ℕ)
  | returnEntry
  | other

/-- The entries of each queue that a call has offloaded. -/
def offloaded (q q' : FlowQoSStats) (i : ℕ) : ℕ := (q'.finished i - q.finished i).toNat

def SchedSteps (w : World σ) : SchedEvent → World σ → Prop
  | .round cur outcome n, w' =>
    (∃ res, doEntryEvent cur outcome w = .ok (res, w')) ∧ n = offloaded w.2.qos w'.2.qos
  | .returnEntry, w' => w' = (w.1, returnEntryEvent w.2)
  | .other, w' => Queued w'.2 ∧ w'.2.congestionHandler = w.2.congestionHandler ∧
    w'.2.qos = { w.2.qos with total := w'.2.qos.total, buckets := w'.2.qos.buckets }

/-- The calls of a run, with their times. -/
def rounds (es : List SchedEvent) : List (ℕ × (ℕ → ℕ)) :=
  es.filterMap fun
    | .round cur _ n => some (cur.toNat, n)
    | _ => none

/-- The condition on a call: no insertion fails after another one has succeeded. -/
def NotCutShort (w : World σ) : SchedEvent → Prop
  | .round _ outcome _ =>
    Completes outcome (attempts (List.range w.2.qos.priorityQueueNum).reverse w.2.qos)
  | _ => True

/-- What a call has offloaded is no more than the weights, and nothing within the gap. -/
theorem round_offloaded {cur : UInt64} {res : ℤ} (hrun : doEntryEvent cur outcome w = .ok (res, w')) :
    (∀ i, offloaded w.2.qos w'.2.qos i ≤ (w.2.qos.weight i).toNat) ∧
      (offloaded w.2.qos w'.2.qos ≠ 0 → cur - w.2.qos.lastStmp > w.2.qos.gap) := by
  obtain ⟨ts, w₁, htrace, hle, hgap, ⟨hqos, -, -⟩, -⟩ := round_turns hrun
  have hfin : ∀ i, offloaded w.2.qos w'.2.qos i = turnsOf i ts % 2 ^ 64 := by
    intro i
    unfold offloaded
    rw [hqos, (turns_spec htrace).qos]
    simp only
    rw [UInt64.add_comm, UInt64.add_sub_cancel, UInt64.toNat_ofNat']
  constructor
  · intro i
    rw [hfin]
    exact (Nat.mod_le _ _).trans (hle i)
  · intro hne
    apply hgap
    rintro rfl
    apply hne
    funext i
    rw [hfin]
    rfl

/-- The parameters of the scheduler, which no step changes. -/
structure SameParams (q q' : FlowQoSStats) : Prop where
  priorityQueueNum : q'.priorityQueueNum = q.priorityQueueNum
  weight : q'.weight = q.weight
  gap : q'.gap = q.gap

theorem SchedSteps.spec {e : SchedEvent} (hq : Queued w.2) (h : SchedSteps w e w') :
    Queued w'.2 ∧ SameParams w.2.qos w'.2.qos := by
  cases e with
  | round cur outcome n =>
    obtain ⟨⟨res, hrun⟩, -⟩ := h
    obtain ⟨ts, w₁, htrace, -, -, hsame, -⟩ := round_turns hrun
    have hq₁ : Queued w₁.2 :=
      htrace.inv (P := fun v => Queued v.2) (fun _ _ _ hq ht => (Turn.spec ht).queued hq) hq
    refine ⟨⟨?_, ?_⟩, ?_⟩
    · rw [hsame.qos]
      exact hq₁.nodup
    · intro i c hc
      rw [hsame.qos] at hc
      rw [hsame.priority]
      exact hq₁.priority hc
    · rw [hsame.qos, (turns_spec htrace).qos]
      exact ⟨rfl, rfl, rfl⟩
  | returnEntry =>
    subst h
    exact ⟨⟨hq.nodup, hq.priority⟩, rfl, rfl, rfl⟩
  | other =>
    obtain ⟨hq', -, hqos⟩ := h
    rw [hqos]
    exact ⟨hq', rfl, rfl, rfl⟩

/-- The invariant: what has been offloaded so far, by calls that are spaced by the gap, and the last of them
not after `lastStmp`. -/
structure RateInv (w₀ : World σ) (log : List (ℕ × (ℕ → ℕ))) (w : World σ) : Prop where
  queued : Queued w.2
  params : SameParams w₀.2.qos w.2.qos
  spaced : Spaced w₀.2.qos.gap.toNat log
  bound : ∀ e ∈ log, ∀ i, e.2 i ≤ (w₀.2.qos.weight i).toNat
  last : ∀ e ∈ log, e.2 ≠ 0 → e.1 ≤ w.2.qos.lastStmp.toNat
  stamp : w.2.qos.lastStmp.toNat ∈ w₀.2.qos.lastStmp.toNat :: log.map Prod.fst

theorem RateInv.congr {log : List (ℕ × (ℕ → ℕ))} (h : RateInv w₀ log w) (hq : Queued w'.2)
    (hparams : SameParams w.2.qos w'.2.qos) (hlast : w'.2.qos.lastStmp = w.2.qos.lastStmp) :
    RateInv w₀ log w' where
  queued := hq
  params := ⟨hparams.1.trans h.params.1, hparams.2.trans h.params.2, hparams.3.trans h.params.3⟩
  spaced := h.spaced
  bound := h.bound
  last := by
    rw [hlast]
    exact h.last
  stamp := by
    rw [hlast]
    exact h.stamp

/-- A call whose round has not been cut short, at a time that is not before the others. -/
theorem RateInv.round {log : List (ℕ × (ℕ → ℕ))} {cur : UInt64} {res : ℤ} (h : RateInv w₀ log w)
    (hmono : ∀ t ∈ w₀.2.qos.lastStmp.toNat :: log.map Prod.fst, t ≤ cur.toNat)
    (hc : Completes outcome (attempts (List.range w.2.qos.priorityQueueNum).reverse w.2.qos))
    (hq : Queued w'.2) (hparams : SameParams w.2.qos w'.2.qos)
    (hrun : doEntryEvent cur outcome w = .ok (res, w')) :
    RateInv w₀ (log ++ [(cur.toNat, offloaded w.2.qos w'.2.qos)]) w' := by
  obtain ⟨hle, hgap⟩ := round_offloaded hrun
  have hcur : w.2.qos.lastStmp.toNat ≤ cur.toNat := hmono _ h.stamp
  obtain ⟨-, -, -, -, -, -, hstamp⟩ := round_turns hrun
  refine ⟨hq, ⟨hparams.1.trans h.params.1, hparams.2.trans h.params.2, hparams.3.trans h.params.3⟩,
    h.spaced.concat ?_, ?_, ?_, ?_⟩
  · -- what was offloaded before was offloaded by `lastStmp`
    intro hne e he hne'
    have hlast := h.last e he hne'
    have hpast := hgap hne
    rw [h.params.gap, gt_iff_lt, UInt64.lt_iff_toNat_lt,
      UInt64.toNat_sub_of_le _ _ (UInt64.le_iff_toNat_le.2 hcur)] at hpast
    show e.1 + w₀.2.qos.gap.toNat < cur.toNat
    omega
  · intro e he i
    rcases List.mem_append.1 he with he | he
    · exact h.bound e he i
    · rw [List.mem_singleton.1 he, ← h.params.weight]
      exact hle i
  · intro e he hne
    rcases List.mem_append.1 he with he | he
    · have hlast := h.last e he hne
      rcases hstamp with heq | ⟨heq, -⟩
      · rw [heq]
        exact hlast
      · rw [heq]
        omega
    · rw [List.mem_singleton.1 he] at hne ⊢
      rcases round_completes h.queued hc hrun with heq | heq
      · rw [heq]
      · refine absurd ?_ hne
        funext i
        show (w'.2.qos.finished i - w.2.qos.finished i).toNat = 0
        rw [heq, UInt64.sub_self]
        rfl
  · rw [List.map_append, ← List.cons_append]
    rcases hstamp with heq | ⟨heq, -⟩
    · rw [heq]
      exact List.mem_append_left _ h.stamp
    · rw [heq]
      exact List.mem_append_right _ (List.mem_singleton.2 rfl)

theorem rateInv_step {es : List SchedEvent} {e : SchedEvent}
    (hmono : (w₀.2.qos.lastStmp.toNat :: (rounds (es ++ [e])).map Prod.fst).Pairwise (· ≤ ·))
    (h : RateInv w₀ (rounds es) w) (hc : NotCutShort w e) (hs : SchedSteps w e w') :
    RateInv w₀ (rounds (es ++ [e])) w' := by
  obtain ⟨hq', hparams⟩ := hs.spec h.queued
  have hconcat : rounds (es ++ [e]) = rounds es ++ rounds [e] := List.filterMap_append
  rw [hconcat] at hmono ⊢
  cases e with
  | round cur outcome n =>
    obtain ⟨⟨res, hrun⟩, rfl⟩ := hs
    refine h.round ?_ hc hq' hparams hrun
    rw [List.map_append, ← List.cons_append, List.pairwise_append] at hmono
    exact fun t ht => hmono.2.2 t ht cur.toNat (List.mem_singleton.2 rfl)
  | returnEntry =>
    subst hs
    exact (List.append_nil (rounds es)).symm ▸ h.congr hq' hparams rfl
  | other =>
    obtain ⟨-, -, hqos⟩ := hs
    exact (List.append_nil (rounds es)).symm ▸ h.congr hq' hparams (by rw [hqos])

/-- **Offloading is limited.** In a run of the scheduler in which no call is cut short by a failing insertion
after another one has succeeded, and with times that do not decrease, the calls of a window no longer than
the gap have offloaded no more entries of a queue than its weight, and no more in all than the weights'
sum. -/
theorem run_rate_limited {es : List SchedEvent}
    (hr : Trace (fun w e w' => NotCutShort w e ∧ SchedSteps w e w') w₀ es w) (hq : Queued w₀.2)
    (hmono : (w₀.2.qos.lastStmp.toNat :: (rounds es).map Prod.fst).Pairwise (· ≤ ·)) (lo hi : ℕ)
    (hgap : hi ≤ lo + w₀.2.qos.gap.toNat) :
    (∀ i, windowSum lo hi (rounds es) i ≤ (w₀.2.qos.weight i).toNat) ∧
    ((List.range w₀.2.qos.priorityQueueNum).map (windowSum lo hi (rounds es))).sum ≤
      ((List.range w₀.2.qos.priorityQueueNum).map fun i => (w₀.2.qos.weight i).toNat).sum := by
  have hinv : RateInv w₀ (rounds es) w := by
    refine Trace.inv_events (P := fun es w =>
      (w₀.2.qos.lastStmp.toNat :: (rounds es).map Prod.fst).Pairwise (· ≤ ·) → RateInv w₀ (rounds es) w)
      ?_ hr ?_ hmono
    · rintro es w e w' ih ⟨hc, hs⟩ hmono
      refine rateInv_step hmono (ih ?_) hc hs
      have hconcat : rounds (es ++ [e]) = rounds es ++ rounds [e] := List.filterMap_append
      rw [hconcat, List.map_append, ← List.cons_append, List.pairwise_append] at hmono
      exact hmono.1
    · intro _
      exact ⟨hq, ⟨rfl, rfl, rfl⟩, List.Pairwise.nil, fun e he => absurd he List.not_mem_nil,
        fun e he => absurd he List.not_mem_nil, List.mem_cons_self⟩
  have hall : ∀ i, windowSum lo hi (rounds es) i ≤ (w₀.2.qos.weight i).toNat :=
    windowSum_le hinv.spaced hinv.bound (fun _ => Nat.zero_le _) hgap
  refine ⟨hall, ?_⟩
  exact List.sum_le_sum fun i _ => hall i

/-! ### A small scheduler -/

/-- QoS mode, with three hardware entries and one of them offloaded in a second. -/
def threeEntries : InitArgs where
  maxConntrack := 3
  maxOffloadedEntry := 3
  offloadTime := 0
  offloadSpeed := 1
  tsc_hz := 1000000
  workers := 1
  rdtsc := 0

/-- Three connections wait, the contexts 0 and 1 in queue 1, which has weight 1, and 2 in queue 0. -/
def crowded : World Unit :=
  let s := (boot threeEntries [(0, AGING ||| SIP)] ()).2
  (flowQoSTimerMgrInit 0,
    { s with
      ctx := fun c =>
        { entry :=
            { pipe := s.attr.TCP_PIPE 0
              expireTime := 10
              priority := if c = 2 then 0 else 1
              flowQoS_qosHandler := some .flowQoS_qosHandler
              flowQoS_args := some c }
          ct_state := .FLOW_QOS_STATE }
      qos := { s.qos with buckets := fun i => if i = 1 then [0, 1] else if i = 0 then [2] else [] } })

theorem queued_crowded : Queued crowded.2 := by
  constructor
  · intro i
    show (if i = 1 then [0, 1] else if i = 0 then [2] else []).Nodup
    split_ifs
    · decide
    · decide
    · exact List.nodup_nil
  · intro i c hc
    change c ∈ (if i = 1 then [0, 1] else if i = 0 then [2] else []) at hc
    show (if c = 2 then (0 : UInt64) else 1).toNat = i
    split_ifs at hc with h1 h0
    · obtain rfl | rfl : c = 0 ∨ c = 1 := by simpa using hc
      · exact h1.symm
      · exact h1.symm
    · obtain rfl : c = 2 := by simpa using hc
      exact h0.symm
    · cases hc

theorem run_rate_limited_crowded : ∃ (es : List SchedEvent) (w : World Unit),
    Trace SchedSteps crowded es w ∧ (rounds es).length = 2 ∧
    (∀ i, windowSum 2000000 3000000 (rounds es) i ≤ (crowded.2.qos.weight i).toNat) := by
  obtain ⟨es, w, hr, hmono, hlen⟩ : ∃ (es : List SchedEvent) (w : World Unit),
      Trace (fun w e w' => NotCutShort w e ∧ SchedSteps w e w') crowded es w ∧
      (crowded.2.qos.lastStmp.toNat :: (rounds es).map Prod.fst).Pairwise (· ≤ ·) ∧
      (rounds es).length = 2 :=
    ⟨[.round 2000000 (fun _ => ⟨true, 1⟩) _, .round 4000000 (fun _ => ⟨true, 1⟩) _], _,
      .cons ⟨.inl (by decide +kernel), ⟨_, rfl⟩, rfl⟩
        (.cons ⟨.inl (by decide +kernel), ⟨_, rfl⟩, rfl⟩ (.nil _)), by decide +kernel, rfl⟩
  exact ⟨es, w, hr.mono fun _ _ _ h => h.2, hlen,
    (run_rate_limited hr queued_crowded hmono 2000000 3000000 (by decide +kernel)).1⟩

/-- The insertion for queue 0 fails after the one for queue 1 has succeeded: the round ends without writing
`lastStmp`, and the next call, at the same time, offloads another entry of queue 1. -/
theorem failing_insertion_not_limited : ∃ (es : List SchedEvent) (w : World Unit),
    Queued crowded.2 ∧ Trace SchedSteps crowded es w ∧
    (crowded.2.qos.lastStmp.toNat :: (rounds es).map Prod.fst).Pairwise (· ≤ ·) ∧
    windowSum 2000000 2000000 (rounds es) 1 = 2 ∧ crowded.2.qos.weight 1 = 1 :=
  ⟨[.round 2000000 (fun c => if c = 2 then ⟨false, 0⟩ else ⟨true, 1⟩) _,
      .round 2000000 (fun c => if c = 2 then ⟨false, 0⟩ else ⟨true, 1⟩) _], _, queued_crowded,
    .cons ⟨⟨_, rfl⟩, rfl⟩ (.cons ⟨⟨_, rfl⟩, rfl⟩ (.nil _)), by decide +kernel, by decide +kernel,
    by decide +kernel⟩

end FlowQoS.Conntrack
