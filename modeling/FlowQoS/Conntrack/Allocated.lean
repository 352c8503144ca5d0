import FlowQoS.Conntrack.Access
import FlowQoS.Conntrack.Step

/-!
# Whose the contexts are

What a core gets to is in its hands: the contexts in its table and in its queues, those whose timers run
and those its hardware entries are reported with (`Mine`). An event that ends no connection takes a
context from the pool at most, and uses no other than those (`step_within`); the callbacks that end a
connection put its context back and then read it.

* `run_held`: in a run without such an event every access is to a context in the hands of its core;
* `expired_context_used`: the first expiry breaks this.
-/

set_option linter.unusedSectionVars false

namespace FlowQoS.Conntrack

open Lib Pipe Timer

variable {σ ε : Type} {P : Params σ ε} {H H' : Set CtxId} {w w' w'' : World σ} {mgr mgr' : Mgr}
  {s s' : Core σ} {c c' : CtxId} {m : Mbuf} {env : PacketEnv ε} {l l' : List CtxAccess}

/-! ### What a core gets to -/

/-- The contexts that a core gets to are in `H`. -/
structure Mine (H : Set CtxId) (w : World σ) : Prop where
  table : ∀ {k c}, w.2.CT k = some c → c ∈ H
  queue : ∀ {i c}, c ∈ w.2.qos.buckets i → c ∈ H ∧ (w.2.ctx c).entry.flowQoS_args = some c
  armed : armedSet w.1 ⊆ H
  hw : ∀ {e c}, e ∈ w.2.hw.entries → e.user_data = some c → c ∈ H
  mgr : MgrInv w.1

/-- The core goes on with the contexts in `H`, and leaves the others and the pool alone. -/
structure Within (H : Set CtxId) (w w' : World σ) : Prop where
  mine : Mine H w'
  pool : w'.2.pool = w.2.pool
  ctx : ∀ c, c ∉ H → w'.2.ctx c = w.2.ctx c
  args : ∀ c, (w.2.ctx c).entry.flowQoS_args = some c → (w'.2.ctx c).entry.flowQoS_args = some c
  timeout : w'.1.timeout = w.1.timeout

/-- The accesses are to fields of the contexts in `H`. -/
def Uses (H : Set CtxId) (l : List CtxAccess) : Prop := ∀ a ∈ l, ∃ c ∈ H, ∃ field, a = .use c field

theorem uses_nil : Uses H [] := by
  intro a ha
  cases ha

theorem uses_cons {field : CtxField} : Uses H (.use c field :: l) ↔ c ∈ H ∧ Uses H l := by
  constructor
  · intro h
    obtain ⟨c', hc', field', heq⟩ := h _ List.mem_cons_self
    cases heq
    exact ⟨hc', fun a ha => h a (List.mem_cons_of_mem _ ha)⟩
  · rintro ⟨hc, hl⟩ a ha
    rcases List.mem_cons.1 ha with rfl | ha
    · exact ⟨c, hc, field, rfl⟩
    · exact hl a ha

theorem uses_append : Uses H (l ++ l') ↔ Uses H l ∧ Uses H l' := by
  simp only [Uses, List.mem_append, or_imp, forall_and]

theorem uses_ite {p : Prop} [Decidable p] (h : p → Uses H l) (h' : ¬ p → Uses H l') :
    Uses H (if p then l else l') := by
  split
  · next hp => exact h hp
  · next hp => exact h' hp

theorem Mine.wheel (h : Mine H w) : Uses H (wheelAccesses P w.1) := by
  intro a ha
  obtain ⟨t, ht, rfl⟩ := List.mem_map.1 ha
  have harmed : Armed w.1 t := of_decide_eq_true (List.mem_filter.1 ht).2
  exact ⟨t, h.armed harmed, _, rfl⟩

theorem Mine.queueAccesses (h : Mine H w) (i : ℕ) : Uses H (queueAccesses w.2 i) := by
  intro a ha
  obtain ⟨c, hc, rfl⟩ := List.mem_map.1 ha
  exact ⟨c, (h.queue hc).1, _, rfl⟩

theorem Within.refl (h : Mine H w) : Within H w w := ⟨h, rfl, fun _ _ => rfl, fun _ => id, rfl⟩

theorem Within.trans (h : Within H w w') (h' : Within H w' w'') : Within H w w'' :=
  ⟨h'.mine, h'.pool.trans h.pool, fun c hc => (h'.ctx c hc).trans (h.ctx c hc),
    fun c hc => h'.args c (h.args c hc), h'.timeout.trans h.timeout⟩

/-- The core changes one of its contexts, or what has nothing to do with them. -/
theorem Mine.within (h : Mine H w) (hc : c ∈ H) {x : ConnContext}
    (hctx : w'.2.ctx = Function.update w.2.ctx c x)
    (hargs : (w.2.ctx c).entry.flowQoS_args = some c → x.entry.flowQoS_args = some c)
    (hCT : w'.2.CT = w.2.CT) (hpool : w'.2.pool = w.2.pool)
    (hqueue : ∀ i, w'.2.qos.buckets i ⊆ w.2.qos.buckets i)
    (hhw : ∀ {e c'}, e ∈ w'.2.hw.entries → e.user_data = some c' → c' ∈ H) (hmgr : w'.1 = w.1) :
    Within H w w' := by
  have hargs' : ∀ c', (w.2.ctx c').entry.flowQoS_args = some c' →
      (w'.2.ctx c').entry.flowQoS_args = some c' := by
    intro c' h'
    rw [hctx]
    by_cases heq : c' = c
    · subst heq
      rw [Function.update_self]
      exact hargs h'
    · rw [Function.update_of_ne heq]
      exact h'
  refine ⟨⟨fun {k c'} hk => ?_, fun {i c'} hi => ?_, ?_, hhw, ?_⟩, hpool, fun c' hc' => ?_, hargs',
    by rw [hmgr]⟩
  · rw [hCT] at hk
    exact h.table hk
  · obtain ⟨hin, ha⟩ := h.queue (hqueue i hi)
    exact ⟨hin, hargs' c' ha⟩
  · rw [hmgr]
    exact h.armed
  · rw [hmgr]
    exact h.mgr
  · rw [hctx, Function.update_of_ne]
    rintro rfl
    exact hc' hc

/-- The core changes none of its contexts. -/
theorem Mine.still (h : Mine H w) (hctx : w'.2.ctx = w.2.ctx) (hCT : w'.2.CT = w.2.CT)
    (hpool : w'.2.pool = w.2.pool) (hqueue : ∀ i, w'.2.qos.buckets i ⊆ w.2.qos.buckets i)
    (hhw : ∀ {e c}, e ∈ w'.2.hw.entries → e.user_data = some c → c ∈ H) (hmgr : w'.1 = w.1) :
    Within H w w' := by
  refine ⟨⟨fun hk => h.table (by rwa [hCT] at hk), fun {i c} hi => ?_, by rw [hmgr]; exact h.armed, hhw,
    by rw [hmgr]; exact h.mgr⟩, hpool, fun c _ => by rw [hctx], fun c hc => by rwa [hctx], by rw [hmgr]⟩
  rw [hctx]
  exact h.queue (hqueue i hi)

/-- A timer of one of its contexts is started or stopped. -/
theorem Mine.timers (h : Mine H (mgr, s)) (hmgr : MgrInv mgr') (harmed : armedSet mgr' ⊆ H)
    (htimeout : mgr'.timeout = mgr.timeout) : Within H (mgr, s) (mgr', s) :=
  ⟨⟨h.table, h.queue, harmed, h.hw, hmgr⟩, rfl, fun _ _ => rfl, fun _ => id, htimeout⟩

/-! ### Offloading -/

theorem offloadEntry_within (h : Mine H (mgr, s)) (hc : c ∈ H) {o : Outcome} {ret : ℤ}
    (hrun : offloadEntry s c o = .ok (ret, s')) : Within H (mgr, s) (mgr, s') := by
  unfold offloadEntry at hrun
  split at hrun
  · cases hrun
  · next pipe hpipe =>
    simp only [addEntry, Except.ok.injEq, Prod.mk.injEq] at hrun
    obtain ⟨-, rfl⟩ := hrun
    refine h.within hc rfl id rfl rfl (fun _ => List.Subset.refl _) (fun {e c'} he hdata => ?_) rfl
    simp only at he
    split at he
    · rcases List.mem_append.1 he with he | he
      · exact h.hw he hdata
      · rw [List.mem_singleton.1 he] at hdata
        split at hdata
        · cases hdata
          exact hc
        · cases hdata
    · exact h.hw he hdata

theorem qosHandler_within (h : Mine H w) (hc : c ∈ H) :
    Within H w (qosHandler w c) ∧ Uses H (qosHandlerAccesses P w c) := by
  obtain ⟨mgr, s⟩ := w
  obtain ⟨hmgr, harmed, htimeout⟩ := armedSet_qosHandler (s := s) (c := c) h.mgr
  constructor
  · have htimers : Within H (mgr, s) ((qosHandler (mgr, s) c).1, s) := by
      refine h.timers hmgr ?_ htimeout
      rw [harmed]
      exact fun t ht => h.armed ht.1
    exact htimers.trans (htimers.mine.within hc rfl id rfl rfl (fun _ => List.Subset.refl _)
      htimers.mine.hw rfl)
  · refine uses_append.2 ⟨uses_append.2 ⟨uses_cons.2 ⟨hc, uses_nil⟩, ?_⟩, uses_cons.2 ⟨hc, uses_nil⟩⟩
    exact uses_ite (fun _ => uses_cons.2 ⟨hc, h.wheel⟩) fun _ => uses_nil

theorem mem_update_append {β : Type*} {f : ℕ → List β} {j i : ℕ} {x y : β}
    (h : y ∈ Function.update f j (f j ++ [x]) i) : y ∈ f i ∨ y = x := by
  by_cases hi : i = j
  · subst hi
    rwa [Function.update_self, List.mem_append, List.mem_singleton] at h
  · rw [Function.update_of_ne hi] at h
    exact .inl h

theorem enqueueConn_within (h : Mine H (mgr, s)) (hc : c ∈ H) :
    Within H (mgr, s) (mgr, enqueueConn s c) ∧ Uses H (enqueueAccesses s c) := by
  constructor
  · have hargs : ∀ c', (s.ctx c').entry.flowQoS_args = some c' →
        ((enqueueConn s c).ctx c').entry.flowQoS_args = some c' := by
      intro c' h'
      rw [enqueueConn_ctx]
      by_cases heq : c' = c
      · rw [heq, Function.update_self]
      · rw [Function.update_of_ne heq]
        exact h'
    refine ⟨⟨h.table, fun {i c'} hi => ?_, h.armed, h.hw, h.mgr⟩, rfl, fun c' hc' => ?_, hargs, rfl⟩
    · have hb : (enqueueConn s c).qos.buckets = Function.update s.qos.buckets
          ((s.ctx c).entry.priority % 4).toNat
          (s.qos.buckets ((s.ctx c).entry.priority % 4).toNat ++ [c]) := rfl
      rw [hb] at hi
      rcases mem_update_append hi with hi | rfl
      · exact ⟨(h.queue hi).1, hargs c' (h.queue hi).2⟩
      · refine ⟨hc, ?_⟩
        rw [enqueueConn_ctx, Function.update_self]
    · rw [enqueueConn_ctx, Function.update_of_ne]
      rintro rfl
      exact hc' hc
  · exact uses_append.2 ⟨uses_append.2 ⟨uses_cons.2 ⟨hc, uses_cons.2 ⟨hc, uses_nil⟩⟩, h.queueAccesses _⟩,
      uses_cons.2 ⟨hc, uses_nil⟩⟩

theorem offloadConn_within (h : Mine H w) (hc : c ∈ H) (hrun : offloadConn w c env = .ok w') :
    Within H w w' ∧ Uses H (offloadConnAccesses P w c env) := by
  obtain ⟨mgr, s⟩ := w
  unfold offloadConn at hrun
  obtain ⟨attr, hattr, hrun⟩ := bind_eq_ok.1 hrun
  unfold offloadConnAccesses
  simp only [hattr]
  generalize shouldOffloadCt attr (s.ctx c) env.offload_tsc = r at hrun
  obtain ⟨ready, attr'⟩ := r
  have hstill : Within H (mgr, s) (mgr, { s with attr := attr' }) :=
    h.still rfl rfl rfl (fun _ => List.Subset.refl _) h.hw rfl
  simp only at hrun
  have hread : ∀ {l}, Uses H l →
      Uses H ([.use c .startTimeStmp, .use c .ct_state, .use c .pktCount] ++ l) := fun hl =>
    uses_append.2 ⟨uses_cons.2 ⟨hc, uses_cons.2 ⟨hc, uses_cons.2 ⟨hc, uses_nil⟩⟩⟩, hl⟩
  split at hrun
  · next hready =>
    rw [if_pos hready]
    split at hrun
    · next hen =>
      cases hrun
      obtain ⟨hwithin, huses⟩ := enqueueConn_within hstill.mine hc
      rw [if_pos hen]
      exact ⟨hstill.trans hwithin, hread huses⟩
    · next hen =>
      rw [if_neg hen]
      split at hrun
      · next hnum =>
        cases hrun
        rw [if_pos hnum]
        exact ⟨hstill, hread uses_nil⟩
      · next hnum =>
        rw [if_neg hnum]
        obtain ⟨⟨ret, s₁⟩, hadd, hrun⟩ := bind_eq_ok.1 hrun
        have hadded := offloadEntry_within hstill.mine hc hadd
        obtain ⟨hhandler, huses⟩ := qosHandler_within (P := P) hadded.mine hc
        simp only [hadd]
        simp only at hrun
        split at hrun
        · next hret =>
          cases hrun
          rw [if_pos hret]
          refine ⟨(hstill.trans hadded).trans (hhandler.trans (hhandler.mine.still rfl rfl rfl
            (fun _ => List.Subset.refl _) hhandler.mine.hw rfl)), hread (uses_cons.2 ⟨hc, huses⟩)⟩
        · next hret =>
          cases hrun
          rw [if_neg hret]
          exact ⟨hstill.trans hadded, hread (uses_cons.2 ⟨hc, uses_nil⟩)⟩
  · next hready =>
    cases hrun
    rw [if_neg hready]
    exact ⟨hstill, hread uses_nil⟩

/-- A turn of the scheduler after the entry of the context has been offloaded. -/
theorem schedule_within (h : Mine H w) (hc : c ∈ H) {i : ℕ}
    (hdel : delEntryEvent (congestion (spendEntry (qosHandler w c).2 i)) c = .ok s') :
    Within H w ((qosHandler w c).1, s') ∧ Uses H (qosHandlerAccesses P w c) ∧
      Uses H (delEntryAccesses (congestion (spendEntry (qosHandler w c).2 i)) c) := by
  obtain ⟨hhandler, huses⟩ := qosHandler_within (P := P) h hc
  have hspent : Within H (qosHandler w c) ((qosHandler w c).1,
      congestion (spendEntry (qosHandler w c).2 i)) := by
    obtain ⟨n, attr, -, heq⟩ := congestion_eq (spendEntry (qosHandler w c).2 i)
    rw [heq]
    exact hhandler.mine.still rfl rfl rfl (fun _ => List.Subset.refl _) hhandler.mine.hw rfl
  refine ⟨?_, huses, uses_append.2 ⟨uses_cons.2 ⟨hc, uses_cons.2 ⟨hc, uses_nil⟩⟩, hspent.mine.queueAccesses _⟩⟩
  obtain ⟨qos, attr, rfl, -, -, hbuckets, -⟩ := scheduled_ok hdel
  refine hhandler.trans (hhandler.mine.still rfl rfl rfl (fun j => ?_) hhandler.mine.hw rfl)
  show qos.buckets j ⊆ _
  rw [hbuckets, Function.update_apply]
  split
  · next hj =>
    rw [hj]
    exact List.erase_subset
  · exact List.Subset.refl _

/-- The loop over a queue comes to contexts of the core. -/
theorem qosLoop_within {i : ℕ} {outcome : CtxId → Outcome} : ∀ (rest : List CtxId) (weight res : ℤ)
    (w : World σ) {r : ℤ × Bool × World σ}, Mine H w →
    (∀ c ∈ rest, c ∈ H ∧ (w.2.ctx c).entry.flowQoS_args = some c) →
    qosLoop i outcome rest weight res w = .ok r →
    Within H w r.2.2 ∧ Uses H (qosLoopAccesses P i outcome rest weight w)
  | [], _, _, w, _, h, _, hrun => by
    cases hrun
    exact ⟨.refl h, uses_nil⟩
  | c :: rest, weight, res, w, r, h, hrest, hrun => by
    obtain ⟨hc, hargs⟩ := hrest c List.mem_cons_self
    unfold qosLoopAccesses
    obtain ⟨hstop, rfl⟩ | ⟨hgo, ret, s₁, hadd, hcase⟩ := qosLoop_cons_ok hrun
    · rw [if_pos hstop]
      exact ⟨.refl h, uses_nil⟩
    rw [if_neg hgo]
    have hadded : Within H w (w.1, s₁) := offloadEntry_within h hc hadd
    simp only [hadd]
    obtain ⟨hle, rfl⟩ | ⟨hpos, arg, s', harg, hdel, hnext⟩ := hcase
    · rw [if_pos hle]
      exact ⟨hadded, uses_cons.2 ⟨hc, uses_nil⟩⟩
    · rw [if_neg (by omega)]
      -- the argument of the handler is the context itself
      obtain rfl : arg = c := by
        rw [hadded.args c hargs, Option.some_inj] at harg
        exact harg.symm
      obtain ⟨hsched, huses, huses'⟩ := schedule_within (P := P) hadded.mine hc hdel
      have hw := hadded.trans hsched
      obtain ⟨hloop, hl⟩ := qosLoop_within rest _ _ _ hw.mine (fun c' hc' =>
        ⟨(hrest c' (List.mem_cons_of_mem _ hc')).1,
          hw.args c' (hrest c' (List.mem_cons_of_mem _ hc')).2⟩) hnext
      simp only [harg, hdel]
      exact ⟨hw.trans hloop, uses_cons.2 ⟨hc, uses_append.2 ⟨uses_append.2 ⟨huses, huses'⟩, hl⟩⟩⟩

theorem qosQueues_within {outcome : CtxId → Outcome} : ∀ (is : List ℕ) (res : ℤ) (w : World σ)
    {r : ℤ × Bool × World σ}, Mine H w → qosQueues outcome is res w = .ok r →
    Within H w r.2.2 ∧ Uses H (qosQueuesAccesses P outcome is res w)
  | [], _, w, _, h, hrun => by
    cases hrun
    exact ⟨.refl h, uses_nil⟩
  | i :: is, res, w, r, h, hrun => by
    unfold qosQueues at hrun
    unfold qosQueuesAccesses
    obtain ⟨⟨res', goes, w₁⟩, hloop, hrun⟩ := bind_eq_ok.1 hrun
    obtain ⟨hw, hl⟩ := qosLoop_within _ _ _ _ h (fun c hc => h.queue hc) hloop
    simp only [hloop]
    simp only at hrun
    split at hrun
    · next hgoes =>
      obtain ⟨hqueues, hl'⟩ := qosQueues_within is _ _ hw.mine hrun
      rw [if_pos hgoes]
      exact ⟨hw.trans hqueues, uses_append.2 ⟨hl, hl'⟩⟩
    · next hgoes =>
      cases hrun
      rw [if_neg hgoes]
      exact ⟨hw, uses_append.2 ⟨hl, uses_nil⟩⟩

theorem doEntryEvent_within (h : Mine H w) {cur : UInt64} {outcome : CtxId → Outcome}
    {r : ℤ × World σ} (hrun : doEntryEvent cur outcome w = .ok r) :
    Within H w r.2 ∧ Uses H (doEntryAccesses P cur outcome w) := by
  unfold doEntryEvent at hrun
  unfold doEntryAccesses
  split at hrun
  · next hgap =>
    rw [if_pos hgap]
    obtain ⟨⟨res, goes, w₁⟩, hqs, hrun⟩ := bind_eq_ok.1 hrun
    obtain ⟨hw, hl⟩ := qosQueues_within _ _ _ h hqs
    refine ⟨?_, hl⟩
    simp only at hrun
    split at hrun
    · cases hrun
      exact hw.trans (hw.mine.still rfl rfl rfl (fun _ => List.Subset.refl _) hw.mine.hw rfl)
    · cases hrun
      exact hw
  · next hgap =>
    cases hrun
    rw [if_neg hgap]
    exact ⟨.refl h, uses_nil⟩

/-! ### Packets -/

theorem flushTimer_within (h : Mine H w) (hT : w.1.timeout + 68719476735 < 2 ^ 64) (hc : c ∈ H)
    (hrun : flushTimer w c env = .ok w') :
    Within H w w' ∧ Uses H (packetModifyerAccesses P w c env) := by
  obtain ⟨mgr, s⟩ := w
  constructor
  · obtain ⟨-, ⟨ret, mgr'⟩, hreset, rfl⟩ | rfl := flushTimer_cases hrun
    · obtain ⟨hmgr, hT', harmed⟩ := h.mgr.reset hT hreset
      have htimers : Within H (mgr, s) (mgr', s) := by
        refine h.timers hmgr ?_ hT'
        rcases harmed with ha | ha | ⟨ha, -⟩
        · rw [ha]
          exact h.armed
        · rw [ha]
          exact Set.insert_subset hc h.armed
        · rw [ha]
          exact fun t ht => h.armed ht.1
      exact htimers.trans (htimers.mine.within hc rfl id rfl rfl (fun _ => List.Subset.refl _)
        htimers.mine.hw rfl)
    · exact .refl h
  · refine uses_append.2 ⟨uses_cons.2 ⟨hc, uses_nil⟩, uses_ite (fun _ => ?_) fun _ => uses_nil⟩
    refine uses_append.2 ⟨uses_cons.2 ⟨hc, uses_cons.2 ⟨hc, uses_nil⟩⟩, ?_⟩
    exact uses_ite (fun _ => uses_cons.2 ⟨hc, h.wheel⟩) fun _ => uses_nil

theorem forward_within (h : Mine H w) (hT : w.1.timeout + 68719476735 < 2 ^ 64) (hc : c ∈ H) {v : Verdict}
    (hrun : forward m w c env = .ok (v, w')) : Within H w w' ∧ Uses H (forwardAccesses P w c env) := by
  obtain ⟨w₁, pipe, hoff, -, hflush, -⟩ := forward_cases hrun
  have hcount : Within H w (w.1, w.2.setCtx c { w.2.ctx c with pktCount := (w.2.ctx c).pktCount + 1 }) :=
    h.within hc rfl id rfl rfl (fun _ => List.Subset.refl _) h.hw rfl
  obtain ⟨hoffload, huses⟩ := offloadConn_within (P := P) hcount.mine hc hoff
  have hw := hcount.trans hoffload
  obtain ⟨hmodify, huses'⟩ := flushTimer_within (P := P) hw.mine (by rw [hw.timeout]; exact hT) hc hflush
  refine ⟨hw.trans hmodify, uses_cons.2 ⟨hc, uses_append.2 ⟨huses, ?_⟩⟩⟩
  rw [hoff]
  exact uses_cons.2 ⟨hc, huses'⟩

/-- The core takes a context from the pool and goes on with it. -/
structure Takes (H : Set CtxId) (c : CtxId) (w w' : World σ) (l : List CtxAccess) : Prop where
  free : c ∈ w.2.pool
  pool : w'.2.pool = w.2.pool.erase c
  mine : Mine (insert c H) w'
  ctx : ∀ c', c' ∉ insert c H → w'.2.ctx c' = w.2.ctx c'
  timeout : w'.1.timeout = w.1.timeout
  accesses : ∃ l', l = .get c :: l' ∧ Uses (insert c H) l'

/-- What an event does to the contexts of its core: it takes none from the pool, or takes one and goes
on with it, or takes one and puts it back at once. -/
inductive Disciplined (H : Set CtxId) (w w' : World σ) (l : List CtxAccess) : Prop
  | none (hmine : Mine H w') (hpool : w'.2.pool = w.2.pool) (hctx : ∀ c, c ∉ H → w'.2.ctx c = w.2.ctx c)
      (hl : Uses H l)
  | keep (c : CtxId) (h : Takes H c w w' l)
  | back (c : CtxId) (hc : c ∈ w.2.pool) (hpool : w'.2.pool = c :: w.2.pool.erase c) (hmine : Mine H w')
      (hctx : w'.2.ctx = w.2.ctx) (hl : l = [.get c, .put c])

theorem Within.disciplined (h : Within H w w') (hl : Uses H l) : Disciplined H w w' l :=
  .none h.mine h.pool h.ctx hl

theorem Takes.within (h : Takes H c w w' l) (hw : Within (insert c H) w' w'') (hl : Uses (insert c H) l') :
    Takes H c w w'' (l ++ l') := by
  obtain ⟨l₀, rfl, hl₀⟩ := h.accesses
  exact ⟨h.free, hw.pool.trans h.pool, hw.mine, fun c' hc' => (hw.ctx c' hc').trans (h.ctx c' hc'),
    hw.timeout.trans h.timeout, l₀ ++ l', rfl, uses_append.2 ⟨hl₀, hl⟩⟩

/-- A new context of the core. -/
theorem insert_mine {e : FlowQoSEntry} {conn : Conn} {tsc : UInt64} (h : Mine H w) (hnew : c ∉ H)
    (hmgr : MgrInv mgr') (harmed : armedSet mgr' ⊆ insert c H) :
    Mine (insert c H) (mgr', w.2.insert c e conn tsc) := by
  have hctx : (w.2.insert c e conn tsc).ctx = Function.update w.2.ctx c ((w.2.ctx c).fill c e tsc) := rfl
  refine ⟨fun {k c'} hk => ?_, fun {i c'} hi => ?_, harmed, fun he hd => .inr (h.hw he hd), hmgr⟩
  · have hCT : (w.2.insert c e conn tsc).CT = Function.update w.2.CT e.match_ (some c) := rfl
    rw [hCT, Function.update_apply] at hk
    split at hk
    · cases hk
      exact .inl rfl
    · exact .inr (h.table hk)
  · obtain ⟨hin, hargs⟩ := h.queue hi
    refine ⟨.inr hin, ?_⟩
    rw [hctx, Function.update_of_ne]
    · exact hargs
    · rintro rfl
      exact hnew hin

theorem addConnToHash_takes (h : Mine H w) (hT : w.1.timeout + 68719476735 < 2 ^ 64)
    (hpool : ∀ c ∈ w.2.pool, c ∉ H) {e : FlowQoSEntry} {conn : Conn} {r : Option CtxId}
    (hrun : addConnToHash w e conn env = .ok (r, w')) :
    (r = none ∧ Disciplined H w w' (addConnAccesses P w e env)) ∨
      ∃ c, r = some c ∧ Takes H c w w' (addConnAccesses P w e env) := by
  have hlost : ∀ pool, Mine H (w.1, { w.2 with pool := pool }.log (.lost conn.id)) := fun _ =>
    ⟨h.table, h.queue, h.armed, h.hw, h.mgr⟩
  unfold addConnToHash at hrun
  unfold addConnAccesses
  unfold mempoolGet at hrun ⊢
  cases hpick : env.ctx with
  | none =>
    rw [hpick] at hrun
    cases hrun
    exact .inl ⟨rfl, .none (hlost _) rfl (fun _ _ => rfl) uses_nil⟩
  | some c =>
    rw [hpick] at hrun
    by_cases hc : c ∈ w.2.pool
    · simp only [if_pos hc] at hrun ⊢
      split at hrun
      · next hhash =>
        obtain ⟨mgr, hatt, heq⟩ := map_eq_ok.1 hrun
        cases heq
        rw [if_pos hhash]
        have hnew := hpool c hc
        have hfree : c ∉ armedSet w.1 := fun ha => hnew (h.armed ha)
        obtain ⟨hmgr, htimeout, harmed⟩ := h.mgr.attachTimer hT hfree hatt
        have hsub : armedSet mgr ⊆ insert c H := by
          rcases harmed with ⟨ha, -⟩ | ⟨ha, -⟩
          · rw [ha]
            exact fun t ht => .inr (h.armed ht)
          · rw [ha]
            exact Set.insert_subset_insert h.armed
        have hin : c ∈ insert c H := Set.mem_insert c H
        have hwheel : Uses (insert c H) (wheelAccesses P w.1) := fun a ha => by
          obtain ⟨c', hc', field, rfl⟩ := h.wheel a ha
          exact ⟨c', .inr hc', field, rfl⟩
        refine .inr ⟨c, rfl, hc, rfl, insert_mine h hnew hmgr hsub, fun c' hc' => ?_, htimeout, _, rfl, ?_⟩
        · refine Function.update_of_ne ?_ ..
          rintro rfl
          exact hc' hin
        · refine uses_cons.2 ⟨hin, uses_append.2 ⟨uses_ite (fun _ => ?_) fun _ => uses_nil,
            uses_cons.2 ⟨hin, uses_cons.2 ⟨hin, uses_nil⟩⟩⟩⟩
          exact uses_cons.2 ⟨hin, uses_append.2 ⟨hwheel, uses_cons.2 ⟨hin, uses_cons.2 ⟨hin, uses_nil⟩⟩⟩⟩
      · next hhash =>
        cases hrun
        rw [if_neg hhash]
        exact .inl ⟨rfl, .back c hc rfl (hlost _) rfl rfl⟩
    · simp only [if_neg hc] at hrun ⊢
      cases hrun
      exact .inl ⟨rfl, .none (hlost _) rfl (fun _ _ => rfl) uses_nil⟩

/-- The accesses of an insertion depend on the pool only. -/
theorem addConnAccesses_congr (mgr : Mgr) (s s' : Core σ) (hpool : s'.pool = s.pool) (e : FlowQoSEntry)
    (env : PacketEnv ε) :
    addConnAccesses P (mgr, s') e env = addConnAccesses P (mgr, s) e env := by
  unfold addConnAccesses mempoolGet
  cases env.ctx with
  | none => rfl
  | some c =>
    simp only [hpool]
    by_cases hc : c ∈ s.pool
    · simp only [if_pos hc]
    · simp only [if_neg hc]

theorem openConn_takes (h : Mine H w) (hT : w.1.timeout + 68719476735 < 2 ^ 64)
    (hpool : ∀ c ∈ w.2.pool, c ∉ H) {e : FlowQoSEntry} {r : Option CtxId}
    (hrun : openConn P m e env w = .ok (r, w')) :
    (r = none ∧ Disciplined H w w' (openConnAccesses P e env w)) ∨
      ∃ c, r = some c ∧ Takes H c w w' (openConnAccesses P e env w) := by
  unfold openConn at hrun
  unfold openConnAccesses
  cases hf : P.newConn_handler with
  | none =>
    simp only [hf] at hrun ⊢
    cases hrun
    exact .inl ⟨rfl, (Within.refl h).disciplined uses_nil⟩
  | some f =>
    simp only [hf] at hrun ⊢
    obtain ⟨⟨port, e', app⟩, hhandler, hrun⟩ := bind_eq_ok.1 hrun
    simp only [hhandler]
    simp only at hrun
    split at hrun
    · next hneg =>
      cases hrun
      rw [if_pos hneg]
      exact .inl ⟨rfl, .none ⟨h.table, h.queue, h.armed, h.hw, h.mgr⟩ rfl (fun _ _ => rfl) uses_nil⟩
    · next hpos =>
      rw [if_neg hpos]
      -- the accepted connection is noted beside the code's state
      have hmine : Mine H (w.1, { w.2 with app := app, accepted := w.2.accepted + 1 }.log
          (.accepted w.2.accepted m.port e.match_)) := ⟨h.table, h.queue, h.armed, h.hw, h.mgr⟩
      have hsame := addConnAccesses_congr (P := P) w.1 w.2 ({ w.2 with
        app := app
        accepted := w.2.accepted + 1 }.log (.accepted w.2.accepted m.port e.match_)) rfl e' env
      have htakes := addConnToHash_takes (P := P) hmine hT hpool hrun
      rw [hsame] at htakes
      rcases htakes with ⟨hr, hd⟩ | ⟨c, hr, ht⟩
      · refine .inl ⟨hr, ?_⟩
        cases hd with
        | none hm hp hctx hl => exact .none hm hp hctx hl
        | keep c ht => exact .keep c ⟨ht.free, ht.pool, ht.mine, ht.ctx, ht.timeout, ht.accesses⟩
        | back c hc hp hm hctx hl => exact .back c hc hp hm hctx hl
      · exact .inr ⟨c, hr, ht.free, ht.pool, ht.mine, ht.ctx, ht.timeout, ht.accesses⟩

theorem packet_disciplined (h : Mine H w) (hT : w.1.timeout + 68719476735 < 2 ^ 64)
    (hpool : ∀ c ∈ w.2.pool, c ∉ H) {v : Verdict}
    (hrun : conntrackPacketProcessor P m env w = .ok (v, w')) :
    Disciplined H w w' (packetAccesses P m env w) := by
  unfold conntrackPacketProcessor at hrun
  unfold packetAccesses
  split at hrun
  · next hen =>
    rw [if_pos hen]
    cases hparse : packetParser w.2.attr m with
    | none =>
      simp only [hparse] at hrun ⊢
      cases hrun
      exact (Within.refl h).disciplined uses_nil
    | some e =>
      simp only [hparse] at hrun ⊢
      cases hfind : findConnFromHash w.2 e with
      | some c =>
        simp only [hfind] at hrun ⊢
        obtain ⟨hw, hl⟩ := forward_within (P := P) h hT (h.table hfind) hrun
        exact hw.disciplined hl
      | none =>
        simp only [hfind] at hrun ⊢
        obtain ⟨⟨r, w₁⟩, hopen, hrun⟩ := bind_eq_ok.1 hrun
        simp only [hopen]
        rcases openConn_takes h hT hpool hopen with ⟨rfl, hd⟩ | ⟨c, rfl, ht⟩
        · cases hrun
          rw [List.append_nil]
          exact hd
        · obtain ⟨hw, hl⟩ := forward_within (P := P) ht.mine (by rw [ht.timeout]; exact hT)
            (Set.mem_insert c H) hrun
          exact .keep c (ht.within hw hl)
  · next hen =>
    cases hrun
    rw [if_neg hen]
    exact (Within.refl h).disciplined uses_nil

/-! ### Aging polls and ticks -/

/-- A report ends a connection: it is of an entry in the hardware, the driver can remove the entry of its
context, and a callback is attached. -/
def Ages (s : Core σ) (r : Handle × Bool) : Prop :=
  ∃ e ∈ s.hw.entries, e.handle = r.1 ∧ ∃ c, e.user_data = some c ∧
    (s.hw.rmEntry (s.ctx c).entry.entry r.2).isSome ∧ (s.ctx c).entry.cb.isSome

/-- A poll so far has changed the hardware only, where there is nothing that was not there before. -/
structure Polled (s s' : Core σ) : Prop where
  ctx : s'.ctx = s.ctx
  entries : ∀ e ∈ s'.hw.entries, ∃ e₀ ∈ s.hw.entries, e₀.handle = e.handle ∧ e₀.user_data = e.user_data

theorem Polled.rmEntry (h : Polled s s') {x : Option Handle} {ok : Bool}
    (hrm : (s'.hw.rmEntry x ok).isSome) : (s.hw.rmEntry x ok).isSome := by
  cases x with
  | none => cases hrm
  | some y =>
    simp only [Hardware.rmEntry] at hrm ⊢
    split at hrm
    · next hy =>
      obtain ⟨e, he, hey⟩ := hy.2
      obtain ⟨e₀, he₀, hh, -⟩ := h.entries e he
      rw [if_pos ⟨hy.1, e₀, he₀, hh.trans hey⟩]
      rfl
    · cases hrm

/-- A report that ends no connection removes an entry at most. -/
theorem agedStep_polled {s₀ : Core σ} (h₀ : Mine H (mgr, s₀)) (h : Mine H (mgr, s)) (hp : Polled s₀ s)
    {aged : HwEntry × Bool}
    (he : ∃ e ∈ s₀.hw.entries, e.handle = aged.1.handle ∧ e.user_data = aged.1.user_data)
    (hno : ¬ Ages s₀ (aged.1.handle, aged.2))
    (hrun : agedStep P s aged = .ok s') :
    Polled s₀ s' ∧ Within H (mgr, s) (mgr, s') ∧ Uses H (agedStepAccesses P s aged) := by
  obtain ⟨e, he, hhandle, hdata⟩ := he
  obtain ⟨c, hc, hcase⟩ := agedStep_ok hrun
  have hin : c ∈ H := h₀.hw he (hdata.trans hc)
  unfold agedStepAccesses
  simp only [hc]
  obtain ⟨hrm, rfl⟩ | ⟨hw, hrm, hcase⟩ := hcase
  · simp only [hrm]
    exact ⟨hp, .refl h, uses_cons.2 ⟨hin, uses_nil⟩⟩
  · simp only [hrm]
    have hcb : ¬ (s.ctx c).entry.cb.isSome := by
      intro hcb
      refine hno ⟨e, he, hhandle, c, hdata.trans hc, ?_, ?_⟩
      · rw [← hp.ctx]
        exact hp.rmEntry (by rw [hrm]; rfl)
      · rw [← hp.ctx]
        exact hcb
    obtain ⟨hnone, rfl⟩ | ⟨hsome, -⟩ := hcase
    · simp only [hnone]
      obtain ⟨y, -, -, rfl⟩ := rmEntry_some hrm
      refine ⟨⟨hp.ctx, fun e he => hp.entries e (List.mem_of_mem_filter he)⟩,
        h.still rfl rfl rfl (fun _ => List.Subset.refl _) (fun he => h.hw (List.mem_of_mem_filter he)) rfl,
        uses_cons.2 ⟨hin, uses_nil⟩⟩
    · exact absurd hsome hcb

theorem aged_polled {s₀ : Core σ} (h₀ : Mine H (mgr, s₀)) :
    ∀ (left : List (HwEntry × Bool)) (s : Core σ) {s' : Core σ}, Mine H (mgr, s) → Polled s₀ s →
    (∀ a ∈ left, (∃ e ∈ s₀.hw.entries, e.handle = a.1.handle ∧ e.user_data = a.1.user_data) ∧
      ¬ Ages s₀ (a.1.handle, a.2)) →
    left.foldlM (agedStep P) s = .ok s' →
    Polled s₀ s' ∧ Within H (mgr, s) (mgr, s') ∧ Uses H (agedAccesses P left s)
  | [], s, _, h, hp, _, hrun => by
    cases hrun
    exact ⟨hp, .refl h, uses_nil⟩
  | a :: left, s, s', h, hp, hleft, hrun => by
    rw [List.foldlM_cons] at hrun
    obtain ⟨s₁, hstep, hrun⟩ := bind_eq_ok.1 hrun
    obtain ⟨he, hno⟩ := hleft a List.mem_cons_self
    obtain ⟨hp₁, hw, hl⟩ := agedStep_polled h₀ h hp he hno hstep
    obtain ⟨hp', hw', hl'⟩ := aged_polled h₀ left s₁ hw.mine hp₁
      (fun b hb => hleft b (List.mem_cons_of_mem _ hb)) hrun
    unfold agedAccesses
    simp only [hstep]
    exact ⟨hp', hw.trans hw', uses_append.2 ⟨hl, hl'⟩⟩

/-- The poll of a port. -/
theorem agingHandle_polled {s₀ : Core σ} (h₀ : Mine H (mgr, s₀)) (h : Mine H (mgr, s)) (hp : Polled s₀ s)
    {reports : List (Handle × Bool)} (hno : ∀ r ∈ reports, ¬ Ages s₀ r)
    (hrun : agingHandle P reports s = .ok s') :
    Polled s₀ s' ∧ Within H (mgr, s) (mgr, s') ∧ Uses H (agingHandleAccesses P reports s) := by
  have hp₁ : Polled s₀ { s with hw := s.hw.report (reports.map Prod.fst) } := by
    refine ⟨hp.ctx, fun e he => ?_⟩
    obtain ⟨e₁, he₁, rfl⟩ := List.mem_map.1 he
    obtain ⟨e₀, he₀, hhandle, hdata⟩ := hp.entries e₁ he₁
    refine ⟨e₀, he₀, ?_⟩
    split
    · exact ⟨hhandle, hdata⟩
    · exact ⟨hhandle, hdata⟩
  have hw₁ : Within H (mgr, s) (mgr, { s with hw := s.hw.report (reports.map Prod.fst) }) := by
    refine h.still rfl rfl rfl (fun _ => List.Subset.refl _) (fun {e c} he hc => ?_) rfl
    obtain ⟨e₀, he₀, -, hdata⟩ := hp₁.entries e he
    exact h₀.hw he₀ (hdata.trans hc)
  unfold agingHandle at hrun
  have hleft : ∀ a ∈ agedEntries (s.hw.report (reports.map Prod.fst)) reports,
      (∃ e ∈ s₀.hw.entries, e.handle = a.1.handle ∧ e.user_data = a.1.user_data) ∧
        ¬ Ages s₀ (a.1.handle, a.2) := by
    intro a ha
    obtain ⟨he, hr⟩ := mem_agedEntries ha
    exact ⟨hp₁.entries _ he, hno _ hr⟩
  obtain ⟨hp', hw', hl⟩ := aged_polled h₀ _ _ hw₁.mine hp₁ hleft hrun
  exact ⟨hp', hw₁.trans hw', hl⟩

theorem ports_polled {s₀ : Core σ} (h₀ : Mine H (mgr, s₀)) {reports : ℕ → List (Handle × Bool)} :
    ∀ (is : List ℕ) (s : Core σ) {s' : Core σ}, Mine H (mgr, s) → Polled s₀ s →
    (∀ i ∈ is, ∀ r ∈ reports i, ¬ Ages s₀ r) →
    is.foldlM (fun s i => agingHandle P (reports i) s) s = .ok s' →
    Within H (mgr, s) (mgr, s') ∧ Uses H (portAccesses P reports is s)
  | [], s, _, h, _, _, hrun => by
    cases hrun
    exact ⟨.refl h, uses_nil⟩
  | i :: is, s, s', h, hp, hno, hrun => by
    rw [List.foldlM_cons] at hrun
    obtain ⟨s₁, hstep, hrun⟩ := bind_eq_ok.1 hrun
    obtain ⟨hp₁, hw, hl⟩ := agingHandle_polled h₀ h hp (hno i List.mem_cons_self) hstep
    obtain ⟨hw', hl'⟩ := ports_polled h₀ is s₁ hw.mine hp₁
      (fun j hj => hno j (List.mem_cons_of_mem _ hj)) hrun
    unfold portAccesses
    simp only [hstep]
    exact ⟨hw.trans hw', uses_append.2 ⟨hl, hl'⟩⟩

/-- What a fired timer does to the core and to the log of the tick. -/
def firedAccesses (P : Params σ ε) (_ : TimerCallback) (timer : CtxId) (mgr : Mgr)
    (s : Core σ × List CtxAccess) : Except Fault (Core σ × List CtxAccess) :=
  match (mgr.timers timer).cb_args with
  | none => .error .nullPointer
  | some c => (connExpireSw P c s.1).map fun core => (core, s.2 ++ connExpireSwAccesses P c s.1)

theorem inert_timerCallbackAccesses : Inert (timerCallbackAccesses P) (firedAccesses P) := by
  intro cb t mgr s
  unfold timerCallbackAccesses firedAccesses
  cases (mgr.timers t).cb_args with
  | none => rfl
  | some c =>
    simp only
    cases connExpireSw P c s.1 <;> rfl

/-- A tick for which no timer is due. -/
theorem tick_disciplined (h : Mine H w) (hT : w.1.timeout + 68719476735 < 2 ^ 64)
    (hlt : ∀ c ∈ H, c < P.maxConntrack) {rdtsc n : ℕ}
    (hno : (w.1.startStmp + w.1.timeout * P.GAP) % 2 ^ 64 < rdtsc → ∀ c, ¬ (alarms w.1).Due c)
    (hrun : flowQoSTimerTick (timerCallback P) (P.maxConntrack + 1) P.GAP rdtsc w = .ok (n, w')) :
    Disciplined H w w' (tickAccesses P rdtsc w) := by
  obtain ⟨mgr, s⟩ := w
  unfold flowQoSTimerTick at hrun
  unfold tickAccesses
  split at hrun
  · next hbehind =>
    rw [if_pos hbehind]
    obtain ⟨mgr', due, htick, -, hdue, -, hmgr', harmed⟩ :=
      h.mgr.timerTick (n := P.maxConntrack) inert_timerCallback hT fun t ht => hlt t (h.armed ht)
    obtain ⟨mgr'', due', htick', -, hdue', -⟩ :=
      h.mgr.timerTick (n := P.maxConntrack) (inert_timerCallbackAccesses (P := P)) hT
        fun t ht => hlt t (h.armed ht)
    have hnil : ∀ l : List (Mgr × CtxId), (∀ t, t ∈ l.map Prod.snd ↔ (alarms mgr).Due t) → l = [] := by
      intro l hl
      cases l with
      | nil => rfl
      | cons x l => exact absurd ((hl x.2).1 List.mem_cons_self) (hno hbehind x.2)
    rw [hnil due hdue] at htick harmed
    rw [hnil due' hdue'] at htick'
    rw [htick] at hrun
    cases hrun
    refine .none ⟨h.table, h.queue, ?_, h.hw, hmgr'⟩ rfl (fun _ _ => rfl) (uses_append.2 ⟨h.wheel, ?_⟩)
    · rw [harmed]
      exact fun t ht => h.armed ht.1
    · simp only [htick']
      exact uses_nil
  · next hbehind =>
    cases hrun
    rw [if_neg hbehind]
    exact (Within.refl h).disciplined uses_nil

/-! ### Events -/

/-- The event ends no connection: no timer is due, and no report of a port ends one. -/
def NoExpiry (P : Params σ ε) (w : World σ) : Event σ ε → Prop
  | .tick rdtsc => (w.1.startStmp + w.1.timeout * P.GAP) % 2 ^ 64 < rdtsc → ∀ c, ¬ (alarms w.1).Due c
  | .aging reports => ∀ i < maxEthPorts, w.2.attr.PORT_CT_ENABLED i → ∀ r ∈ reports i, ¬ Ages w.2 r
  | _ => True

/-- **An event that ends no connection** takes a context from the pool at most, and gets to no context
that is not in the hands of its core. -/
theorem step_disciplined (h : Mine H w) (hT : w.1.timeout + 68719476735 < 2 ^ 64)
    (hlt : ∀ c ∈ H, c < P.maxConntrack) (hpool : ∀ c ∈ w.2.pool, c ∉ H) {e : Event σ ε}
    (hno : NoExpiry P w e) (hrun : step P w e = .ok w') : Disciplined H w w' (accesses P w e) := by
  cases e with
  | packet m env =>
    obtain ⟨⟨v, w₁⟩, hp, rfl⟩ := map_eq_ok.1 hrun
    exact packet_disciplined h hT hpool hp
  | tick rdtsc =>
    obtain ⟨⟨n, w₁⟩, htick, rfl⟩ := map_eq_ok.1 hrun
    exact tick_disciplined h hT hlt hno htick
  | qos rdtsc outcome =>
    simp only [step] at hrun
    simp only [accesses]
    split at hrun
    · next hen =>
      obtain ⟨r, hq, rfl⟩ := map_eq_ok.1 hrun
      obtain ⟨hw, hl⟩ := doEntryEvent_within (P := P) h hq
      rw [if_pos hen]
      exact hw.disciplined hl
    · next hen =>
      cases hrun
      rw [if_neg hen]
      exact (Within.refl h).disciplined uses_nil
  | aging reports =>
    obtain ⟨s', haging, rfl⟩ := map_eq_ok.1 hrun
    obtain ⟨mgr, s⟩ := w
    obtain ⟨hw, hl⟩ := ports_polled (P := P) h _ s h ⟨rfl, fun e he => ⟨e, he, rfl, rfl⟩⟩ (fun i hi => by
      obtain ⟨hi, hen⟩ := List.mem_filter.1 hi
      exact hno i (List.mem_range.1 hi) hen) haging
    exact hw.disciplined hl
  | app app =>
    cases hrun
    exact .none ⟨h.table, h.queue, h.armed, h.hw, h.mgr⟩ rfl (fun _ _ => rfl) uses_nil

/-! ### The log -/

variable {log : List (ℕ × CtxAccess)} {i j : ℕ} {sys sys' : System σ}

theorem safe_nil : Safe [] := by
  intro l i c field l' h
  simp at h

theorem Safe.concat {a : ℕ × CtxAccess} (h : Safe log)
    (ha : ∀ c field, a.2 = .use c field → holder log c = some a.1) : Safe (log ++ [a]) := by
  intro l i c field l' hl
  rcases List.eq_nil_or_concat' l' with rfl | ⟨l', x, rfl⟩
  · obtain ⟨rfl, heq⟩ := List.append_inj' hl rfl
    rw [List.singleton_inj] at heq
    rw [heq] at ha
    exact ha c field rfl
  · rw [← List.cons_append, ← List.append_assoc] at hl
    exact h l i c field l' (List.append_inj' hl rfl).1

theorem holder_get : holder (log ++ [(i, .get c)]) = Function.update (holder log) c (some i) := by
  simp [holder]

theorem holder_put : holder (log ++ [(i, .put c)]) = Function.update (holder log) c none := by
  simp [holder]

theorem holder_use {field : CtxField} : holder (log ++ [(i, .use c field)]) = holder log := by
  simp [holder]

/-- A core uses contexts that it holds. -/
theorem Safe.uses : ∀ (l : List CtxAccess) {log : List (ℕ × CtxAccess)}, Safe log → Uses H l →
    (∀ c ∈ H, holder log c = some i) →
    Safe (log ++ l.map fun a => (i, a)) ∧ holder (log ++ l.map fun a => (i, a)) = holder log
  | [], log, h, _, _ => by
    rw [List.map_nil, List.append_nil]
    exact ⟨h, rfl⟩
  | a :: l, log, h, hl, hH => by
    obtain ⟨c, hc, field, rfl⟩ := hl a List.mem_cons_self
    have hlog : log ++ (CtxAccess.use c field :: l).map (fun a => (i, a)) =
        log ++ [(i, .use c field)] ++ l.map fun a => (i, a) := by
      simp
    have hone : Safe (log ++ [(i, CtxAccess.use c field)]) := by
      refine h.concat fun c' field' heq => ?_
      cases heq
      exact hH c hc
    obtain ⟨hs, hh⟩ := Safe.uses l hone (uses_cons.1 hl).2 (fun c' hc' => by
      rw [holder_use]
      exact hH c' hc')
    rw [hlog]
    exact ⟨hs, hh.trans holder_use⟩

/-- A context that is put back and then read. -/
theorem not_safe_put_use {field : CtxField} {l : List (ℕ × CtxAccess)} :
    ¬ Safe (log ++ (i, .put c) :: (i, .use c field) :: l) := by
  intro h
  have hlog : log ++ (i, .put c) :: (i, .use c field) :: l =
      log ++ [(i, CtxAccess.put c)] ++ (i, .use c field) :: l := by
    simp
  have hheld := h _ i c field l hlog
  rw [holder_put, Function.update_self] at hheld
  cases hheld

/-- **The end of a connection** puts its context back and then reads it, whether its timer has fired or
its hardware entry has aged. -/
theorem expired_context_used (P : Params σ ε) (s : Core σ) (l : List (ℕ × CtxAccess)) :
    ¬ Safe (log ++ (connExpireSwAccesses P c s).map (fun a => (i, a)) ++ l) ∧
      ¬ Safe (log ++ (connExpireHwAccesses P c s).map (fun a => (i, a)) ++ l) := by
  have hcut : ∀ l' : List CtxAccess, ¬ Safe (log ++
      (delConnAccesses c ++ [CtxAccess.use c .startTimeStmp] ++ l').map (fun a => (i, a)) ++ l) := by
    intro l' h
    have hlog : log ++ (delConnAccesses c ++ [CtxAccess.use c .startTimeStmp] ++ l').map
        (fun a => (i, a)) ++ l =
        log ++ [(i, CtxAccess.use c .entry)] ++ (i, .put c) :: (i, .use c .startTimeStmp) ::
          (l'.map (fun a => (i, a)) ++ l) := by
      simp [delConnAccesses]
    rw [hlog] at h
    exact not_safe_put_use h
  unfold connExpireSwAccesses connExpireHwAccesses
  constructor
  · rw [List.append_assoc (delConnAccesses c ++ _), List.append_assoc (delConnAccesses c ++ _)]
    exact hcut _
  · rw [List.append_assoc (delConnAccesses c ++ _)]
    exact hcut _

/-! ### Runs -/

/-- What holds of the system: its cores get to what they hold, and the rest is in the pool. -/
structure SystemInv (P : Params σ ε) (sys : System σ) : Prop where
  safe : Safe sys.log
  mine : ∀ i, Mine {c | holder sys.log c = some i} (sys.view i)
  pool : ∀ c ∈ sys.pool, holder sys.log c = none ∧ c < P.maxConntrack
  nodup : sys.pool.Nodup
  held : ∀ c i, holder sys.log c = some i → c < P.maxConntrack

/-- One event of a core whose tick count is not about to wrap around. -/
def System.Steps (P : Params σ ε) (sys : System σ) (e : ℕ × Event σ ε) (sys' : System σ) : Prop :=
  (sys.core e.1).1.timeout < 2 ^ 64 - 2 ^ 36 ∧ sys.step P e.1 e.2 = .ok sys'

/-- The event of another core leaves what a core holds alone. -/
theorem Mine.other (h : Mine H (sys.view j)) (hij : j ≠ i) (hcore : sys'.core = Function.update sys.core i w)
    (hctx : ∀ c ∈ H, sys'.ctx c = sys.ctx c) : Mine H (sys'.view j) := by
  have hview : sys'.view j = ((sys.core j).1, { (sys.core j).2 with pool := sys'.pool, ctx := sys'.ctx }) := by
    unfold System.view
    rw [hcore, Function.update_of_ne hij]
  rw [hview]
  refine ⟨h.table, fun {p c} hp => ?_, h.armed, h.hw, h.mgr⟩
  obtain ⟨hin, hargs⟩ := h.queue hp
  refine ⟨hin, ?_⟩
  show (sys'.ctx c).entry.flowQoS_args = some c
  rw [hctx c hin]
  exact hargs

theorem view_self (pool : List CtxId) (ctx : CtxId → ConnContext) (i : ℕ) (log : List (ℕ × CtxAccess))
    (hpool : w.2.pool = pool) (hctx : w.2.ctx = ctx) :
    (System.mk pool ctx (Function.update sys.core i w) log).view i = w := by
  subst hpool hctx
  simp [System.view]

/-- A core goes on with what it holds. -/
theorem SystemInv.same (h : SystemInv P sys) (hsafe : Safe log) (hholder : holder log = holder sys.log)
    (hmine : Mine {c | holder sys.log c = some i} w) (hpool : w.2.pool.Perm sys.pool)
    (hctx : ∀ c, holder sys.log c ≠ some i → w.2.ctx c = sys.ctx c) :
    SystemInv P ⟨w.2.pool, w.2.ctx, Function.update sys.core i w, log⟩ := by
  refine ⟨hsafe, fun j => ?_, fun c hc => ?_, hpool.nodup_iff.2 h.nodup, ?_⟩
  · simp only [hholder]
    by_cases hij : j = i
    · subst hij
      rw [view_self _ _ _ _ rfl rfl]
      exact hmine
    · refine Mine.other (h.mine j) hij rfl fun c hc => hctx c fun hc' => ?_
      exact hij (Option.some_inj.1 (hc.symm.trans hc'))
  · rw [hholder]
    exact h.pool c (hpool.mem_iff.1 hc)
  · simp only [hholder]
    exact h.held

/-- A core goes on with one more context, from the pool. -/
theorem SystemInv.take (h : SystemInv P sys) (hc : c ∈ sys.pool) (hsafe : Safe log)
    (hholder : holder log = Function.update (holder sys.log) c (some i))
    (hmine : Mine (insert c {c | holder sys.log c = some i}) w) (hpool : w.2.pool = sys.pool.erase c)
    (hctx : ∀ c', c' ∉ insert c {c | holder sys.log c = some i} → w.2.ctx c' = sys.ctx c') :
    SystemInv P ⟨w.2.pool, w.2.ctx, Function.update sys.core i w, log⟩ := by
  obtain ⟨hnone, hlt⟩ := h.pool c hc
  refine ⟨hsafe, fun j => ?_, fun c' hc' => ?_, ?_, fun c' j hc' => ?_⟩
  · simp only [hholder]
    by_cases hij : j = i
    · subst hij
      rw [view_self _ _ _ _ rfl rfl]
      have hset : {c' | Function.update (holder sys.log) c (some j) c' = some j} =
          insert c {c | holder sys.log c = some j} := by
        ext c'
        rw [Set.mem_ofPred_eq, Set.mem_insert_iff, Set.mem_ofPred_eq, Function.update_apply]
        by_cases heq : c' = c
        · simp [heq]
        · simp [heq]
      rw [hset]
      exact hmine
    · have hset : {c' | Function.update (holder sys.log) c (some i) c' = some j} =
          {c | holder sys.log c = some j} := by
        ext c'
        rw [Set.mem_ofPred_eq, Set.mem_ofPred_eq, Function.update_apply]
        by_cases heq : c' = c
        · simp [heq, hnone, Ne.symm hij]
        · simp [heq]
      rw [hset]
      refine Mine.other (h.mine j) hij rfl fun c' hc' => hctx c' ?_
      rintro (rfl | hc'')
      · cases hnone.symm.trans hc'
      · exact hij (Option.some_inj.1 (hc'.symm.trans hc''))
  · rw [hpool] at hc'
    obtain ⟨hne, hmem⟩ := (h.nodup.mem_erase_iff).1 hc'
    rw [hholder, Function.update_of_ne hne]
    exact h.pool c' hmem
  · rw [hpool]
    exact h.nodup.erase c
  · rw [hholder, Function.update_apply] at hc'
    by_cases heq : c' = c
    · rw [heq]
      exact hlt
    · rw [if_neg heq] at hc'
      exact h.held c' j hc'

theorem SystemInv.step {e : ℕ × Event σ ε} (h : SystemInv P sys)
    (hno : NoExpiry P (sys.view e.1) e.2) (hs : System.Steps P sys e sys') : SystemInv P sys' := by
  obtain ⟨i, e⟩ := e
  obtain ⟨w, hrun, rfl⟩ := map_eq_ok.1 hs.2
  have hT : (sys.core i).1.timeout < 2 ^ 64 - 2 ^ 36 := hs.1
  have hfree : ∀ c ∈ (sys.view i).2.pool, c ∉ {c | holder sys.log c = some i} := by
    intro c hc hheld
    rw [Set.mem_ofPred_eq, (h.pool c hc).1] at hheld
    cases hheld
  have hd := step_disciplined (h.mine i) (by simp only [System.view]; omega) (fun c hc => h.held c i hc)
    hfree hno hrun
  cases hd with
  | none hmine hpool hctx hl =>
    obtain ⟨hsafe, hholder⟩ := Safe.uses (i := i) _ h.safe hl fun c hc => hc
    exact h.same hsafe hholder hmine (by rw [hpool]; rfl) hctx
  | keep c ht =>
    obtain ⟨l', hl', huses⟩ := ht.accesses
    have hget : Safe (sys.log ++ [(i, CtxAccess.get c)]) := h.safe.concat nofun
    have hheld : ∀ c' ∈ insert c {c | holder sys.log c = some i},
        holder (sys.log ++ [(i, CtxAccess.get c)]) c' = some i := by
      intro c' hc'
      rw [holder_get]
      by_cases heq : c' = c
      · rw [heq, Function.update_self]
      · rw [Function.update_of_ne heq]
        exact hc'.resolve_left heq
    obtain ⟨hsafe, hholder⟩ := Safe.uses (i := i) _ hget huses hheld
    rw [holder_get] at hholder
    have hlog : sys.log ++ (accesses P (sys.view i) e).map (fun a => (i, a)) =
        sys.log ++ [(i, CtxAccess.get c)] ++ l'.map fun a => (i, a) := by
      rw [hl', List.map_cons, List.append_assoc]
      rfl
    rw [← hlog] at hsafe hholder
    exact h.take ht.free hsafe hholder ht.mine ht.pool ht.ctx
  | back c hc hpool hmine hctx hl =>
    have hget : Safe (sys.log ++ [(i, CtxAccess.get c)]) := h.safe.concat nofun
    have hput : Safe (sys.log ++ [(i, CtxAccess.get c)] ++ [(i, CtxAccess.put c)]) := hget.concat nofun
    have hholder : holder (sys.log ++ [(i, CtxAccess.get c)] ++ [(i, CtxAccess.put c)]) = holder sys.log := by
      rw [holder_put, holder_get, Function.update_idem, ← (h.pool c hc).1, Function.update_eq_self]
    have hlog : sys.log ++ (accesses P (sys.view i) e).map (fun a => (i, a)) =
        sys.log ++ [(i, CtxAccess.get c)] ++ [(i, CtxAccess.put c)] := by
      rw [hl, List.append_assoc]
      rfl
    rw [← hlog] at hput hholder
    exact h.same hput hholder hmine (hpool ▸ (List.perm_cons_erase hc).symm) fun c' _ => congrFun hctx c'

theorem systemInv_boot {a : InitArgs} (ha : a.maxConntrack = P.maxConntrack) (ports : List (ℕ × UInt64))
    (app : σ) : SystemInv P (System.boot a ports app) := by
  refine ⟨safe_nil, fun i => ⟨fun {k c} hk => ?_, fun {p c} hp => ?_, fun t ht => ?_, fun {e c} he => ?_,
    mgrInv_init _⟩, fun c hc => ⟨rfl, ?_⟩, List.nodup_range, nofun⟩
  · simp only [System.view, System.boot, boot_CT] at hk
    cases hk
  · simp only [System.view, System.boot, boot_buckets] at hp
    cases hp
  · simp only [System.view, System.boot, boot, armedSet_init] at ht
    cases ht
  · simp only [System.view, System.boot, boot_hw] at he
    cases he
  · rw [← ha]
    exact List.mem_range.1 hc

/-- **Held while used.** In every run of the cores in which no event ends a connection, every access is to
a context in the hands of its core: after it has taken the context from the pool, and before it puts it
back. -/
theorem run_held (P : Params σ ε) {a : InitArgs} (ha : a.maxConntrack = P.maxConntrack)
    (ports : List (ℕ × UInt64)) (app : σ) {es : List (ℕ × Event σ ε)}
    (h : Trace (fun sys e sys' => NoExpiry P (sys.view e.1) e.2 ∧ System.Steps P sys e sys')
      (System.boot a ports app) es sys) : Safe sys.log :=
  (Trace.inv (fun _ _ _ hi hs => hi.step hs.1 hs.2) h (systemInv_boot ha ports app)).safe

/-- Two cores take a context each, and one of them polls its hardware entries, of which none has aged. -/
theorem run_held_two_cores : ∃ sys : System ℕ,
    Trace (fun sys e sys' =>
        NoExpiry (accepting id) (sys.view e.1) e.2 ∧ System.Steps (accepting id) sys e sys')
      (System.boot oneEntry [(0, AGING ||| SIP)] 0)
      [(0, .packet (packetOf L4_TCP) (offloads 0)), (1, .packet (packetOf L4_UDP) (offloads 1)),
        (0, .aging fun _ => [])] sys ∧
    (holder sys.log 0 = some 0 ∧ holder sys.log 1 = some 1) ∧ Safe sys.log := by
  obtain ⟨sys, htrace, hheld⟩ : ∃ sys : System ℕ,
      Trace (fun sys e sys' => NoExpiry (accepting id) (sys.view e.1) e.2 ∧
          System.Steps (accepting id) sys e sys')
        (System.boot oneEntry [(0, AGING ||| SIP)] 0)
        [(0, .packet (packetOf L4_TCP) (offloads 0)), (1, .packet (packetOf L4_UDP) (offloads 1)),
          (0, .aging fun _ => [])] sys ∧ holder sys.log 0 = some 0 ∧ holder sys.log 1 = some 1 :=
    ⟨_, .cons ⟨trivial, by decide, rfl⟩ (.cons ⟨trivial, by decide +kernel, rfl⟩
      (.cons ⟨fun _ _ _ _ hr => absurd hr List.not_mem_nil, by decide +kernel, rfl⟩ (.nil _))),
      by decide +kernel⟩
  exact ⟨sys, htrace, hheld, run_held (accepting id) rfl [(0, AGING ||| SIP)] 0 htrace⟩

/-- The hardware reports the entry of a connection: its context goes back to the pool, and then the core
reads its start time and, for `agingConn_handler`, its entry. -/
theorem aged_context_used : ∃ (sys : System ℕ) (l : List (ℕ × CtxAccess)),
    Trace (System.Steps (accepting id)) (System.boot oneEntry [(0, AGING ||| SIP)] 0)
      [(0, .packet (packetOf L4_TCP) (offloads 0)), (0, .aging fun _ => [(0, true)])] sys ∧
    sys.log = l ++ [(0, .put 0), (0, .use 0 .startTimeStmp), (0, .use 0 .entry)] ∧ ¬ Safe sys.log := by
  obtain ⟨sys, htrace, hdrop⟩ : ∃ sys : System ℕ,
      Trace (System.Steps (accepting id)) (System.boot oneEntry [(0, AGING ||| SIP)] 0)
        [(0, .packet (packetOf L4_TCP) (offloads 0)), (0, .aging fun _ => [(0, true)])] sys ∧
      sys.log.drop 22 = [(0, .put 0), (0, .use 0 .startTimeStmp), (0, .use 0 .entry)] :=
    ⟨_, .cons ⟨by decide, rfl⟩ (.cons ⟨by decide +kernel, rfl⟩ (.nil _)), by decide +kernel⟩
  have hlog : sys.log = sys.log.take 22 ++
      [(0, .put 0), (0, .use 0 .startTimeStmp), (0, .use 0 .entry)] := by
    rw [← hdrop, List.take_append_drop]
  refine ⟨sys, _, htrace, hlog, ?_⟩
  rw [hlog]
  exact not_safe_put_use

end FlowQoS.Conntrack
