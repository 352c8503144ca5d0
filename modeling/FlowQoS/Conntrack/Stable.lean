import FlowQoS.Conntrack.Preserve

/-!
# The invariant of the tracker is inductive

The two expiry callbacks give a context back and log the end of its connection (`Released`); whatever
the move, the invariant holds after it.

* `inv_move`: every move preserves the invariant;
* `timed_move`: the timer of a context in software keeps running.
-/

set_option linter.unusedSectionVars false

namespace FlowQoS.Conntrack

open Pipe Timer

variable {σ ε : Type} {P : Params σ ε} {L : Allowed} {A A' : Set CtxId} {s s' : Core σ} {c c' : CtxId}
  {k : FlowQoSMatch}

/-! ### The expiry callbacks -/

/-- The context goes back to the pool and its connection has ended. -/
structure Released (P : Params σ ε) (s s' : Core σ) (c : CtxId) : Prop where
  attr : s'.attr = s.attr
  pool : s'.pool = c :: s.pool
  ctx : s'.ctx = s.ctx
  CT : s'.CT = Function.update s.CT (s.ctx c).entry.match_ none
  hw : s'.hw = s.hw
  conns : s'.conns = s.conns
  accepted : s'.accepted = s.accepted
  events : s'.events = s.events ++ [.ended (s.conns c).id]
  maxEntryLimit : s'.qos.maxEntryLimit = s.qos.maxEntryLimit
  app : match P.agingConn_handler with
    | none => s'.app = s.app
    | some agingConn_handler => agingConn_handler (s.ctx c).entry s.app = .ok s'.app

theorem agingConn_ok (h : agingConn P s c = .ok s') :
    ∃ app, s' = { s.log (.ended (s.conns c).id) with app := app } ∧
      match P.agingConn_handler with
      | none => app = s.app
      | some agingConn_handler => agingConn_handler (s.ctx c).entry s.app = .ok app := by
  unfold agingConn at h
  cases hf : P.agingConn_handler with
  | none =>
    rw [hf] at h
    cases h
    exact ⟨s.app, rfl, rfl⟩
  | some f =>
    rw [hf] at h
    obtain ⟨app, happ, rfl⟩ := map_eq_ok.1 h
    exact ⟨app, rfl, happ⟩

/-- The software expiry: a context that waits in a queue leaves it. -/
theorem connExpireSw_ok (h : connExpireSw P c s = .ok s') :
    Released P s s' c ∧ s'.CT_NUM = s.CT_NUM ∧ s'.qos.maxEntry = s.qos.maxEntry ∧
      (s.attr.ENABLE_FLOWQOS ∧ (s.ctx c).ct_state = .FLOW_QOS_STATE →
        c ∈ s.qos.buckets (s.ctx c).entry.priority.toNat ∧
          s'.qos.buckets = Function.update s.qos.buckets (s.ctx c).entry.priority.toNat
            ((s.qos.buckets (s.ctx c).entry.priority.toNat).erase c)) ∧
      (¬ (s.attr.ENABLE_FLOWQOS ∧ (s.ctx c).ct_state = .FLOW_QOS_STATE) →
        s'.qos.buckets = s.qos.buckets) := by
  unfold connExpireSw at h
  simp only at h
  split at h
  · next hq =>
    obtain ⟨s₁, h₁, h₂⟩ := bind_eq_ok.1 h
    obtain ⟨app, rfl, happ⟩ := agingConn_ok h₂
    unfold delEntryEvent at h₁
    simp only at h₁
    split at h₁
    · next hmem =>
      cases h₁
      exact ⟨⟨rfl, rfl, rfl, rfl, rfl, rfl, rfl, rfl, rfl, happ⟩, rfl, rfl, fun _ => ⟨hmem, rfl⟩,
        fun hn => absurd hq hn⟩
    · cases h₁
  · next hq =>
    obtain ⟨app, rfl, happ⟩ := agingConn_ok h
    exact ⟨⟨rfl, rfl, rfl, rfl, rfl, rfl, rfl, rfl, rfl, happ⟩, rfl, rfl, fun hc => absurd hc hq,
      fun _ => rfl⟩

/-- The hardware expiry: the hardware entry goes back to the budget of the mode. -/
theorem connExpireHw_ok (h : connExpireHw P c s = .ok s') :
    Released P s s' c ∧ s'.qos.buckets = s.qos.buckets ∧
      (s.attr.ENABLE_FLOWQOS ∧ (s.ctx c).ct_state = .HW_FWD_STATE →
        s'.qos.maxEntry = (returnEntryEvent s).qos.maxEntry ∧ s'.CT_NUM = s.CT_NUM) ∧
      (¬ (s.attr.ENABLE_FLOWQOS ∧ (s.ctx c).ct_state = .HW_FWD_STATE) →
        s'.qos.maxEntry = s.qos.maxEntry ∧ s'.CT_NUM = s.CT_NUM + 1) := by
  unfold connExpireHw at h
  obtain ⟨app, rfl, happ⟩ := agingConn_ok h
  by_cases hq : s.attr.ENABLE_FLOWQOS ∧ (s.ctx c).ct_state = .HW_FWD_STATE
  · have hq' : (delConnFromHash s c).attr.ENABLE_FLOWQOS ∧
      ((delConnFromHash s c).ctx c).ct_state = .HW_FWD_STATE := hq
    rw [if_pos hq'] at happ ⊢
    exact ⟨⟨rfl, rfl, rfl, rfl, rfl, rfl, rfl, rfl, rfl, happ⟩, rfl, fun _ => ⟨rfl, rfl⟩,
      fun hn => absurd hq hn⟩
  · have hq' : ¬ ((delConnFromHash s c).attr.ENABLE_FLOWQOS ∧
      ((delConnFromHash s c).ctx c).ct_state = .HW_FWD_STATE) := hq
    rw [if_neg hq'] at happ ⊢
    exact ⟨⟨rfl, rfl, rfl, rfl, rfl, rfl, rfl, rfl, rfl, happ⟩, rfl, fun hc => absurd hc hq,
      fun _ => ⟨rfl, rfl⟩⟩

theorem Released.sameConfig (h : Released P s s' c) : SameConfig s.attr s'.attr := by
  rw [h.attr]
  exact SameConfig.refl _

/-- The table after the end of a connection. -/
theorem Released.table (h : Released P s s' c) (ht : TableInv P A s) (hc : Alive P s c)
    (hA : ∀ c' ∈ A', c' ∈ A ∧ c' ≠ c) : TableInv P A' s' := by
  refine ht.release hc h.sameConfig h.pool h.CT h.conns (fun c' => ?_) fun c' hm => ?_
  · rw [h.ctx]
    exact SameEntry.refl _
  · exact ⟨ht.armed (hA c' hm).1, (hA c' hm).2⟩

/-- The queues after the end of a connection that has left them. -/
theorem Released.queue (h : Released P s s' c) (hq : QueueInv P s)
    (hb : ∀ i, s'.qos.buckets i = (s.qos.buckets i).erase c) : QueueInv P s' := by
  refine hq.drop (by rw [h.attr]) hb (fun c' hne => ⟨?_, ?_⟩) ?_
  · rw [alive_cons h.pool]
    exact ⟨fun ha => ha.1, fun ha => ⟨ha, hne⟩⟩
  · rw [h.ctx]
    exact ⟨rfl, rfl, rfl, rfl⟩
  · rw [alive_cons h.pool]
    exact fun ha => ha.1.2 rfl

theorem Inv.expireSw (h : Inv P (A, s)) (hc : c ∈ A) (hexp : connExpireSw P c s = .ok s') :
    Inv P (A \ {c}, s') := by
  obtain ⟨hrel, -, -, hin, hout⟩ := connExpireSw_ok hexp
  have ha : Alive P s c := h.table.armed hc
  have hhw : HwInv P (A \ {c}) s' := h.hw.expireSw hc hrel.sameConfig hrel.pool hrel.ctx hrel.hw
  refine ⟨hrel.table h.table ha fun c' hm => hm, hrel.queue h.queue fun i => ?_, hhw⟩
  by_cases hq : s.attr.ENABLE_FLOWQOS ∧ (s.ctx c).ct_state = .FLOW_QOS_STATE
  · obtain ⟨hmem, hb⟩ := hin hq
    rw [hb]
    exact h.queue.delEntryEvent rfl hmem i
  · rw [hout hq]
    refine h.queue.erase_eq (fun hc => hq ?_) i
    exact ⟨(h.queue.queued hc.1 hc.2).1, hc.2⟩

/-- The context of an aged entry is in the hardware, and its entry expires it. -/
theorem Inv.expireHw (h : Inv P (A, s)) (hok : HandlerOk P s.attr) {arg : CtxId} {e : HwEntry}
    (hmem : Attaches s.attr → e ∈ s.hw.entries) (hu : e.user_data = some c) {ok : Bool} {hw : Hardware}
    (hrm : s.hw.rmEntry (s.ctx c).entry.entry ok = some hw) (hcb : (s.ctx c).entry.cb.isSome)
    (harg : (s.ctx c).entry.cb_args = some arg) (hexp : connExpireHw P arg { s with hw := hw } = .ok s') :
    Inv P (A, s') := by
  obtain ⟨ha, hst, hnA, hargs⟩ := h.hw.reported h.table hok hmem hu hrm hcb
  rw [hargs] at harg
  cases harg
  obtain ⟨hrel, hb, -⟩ := connExpireHw_ok hexp
  have hattr : SameConfig s.attr s'.attr := hrel.sameConfig
  have hpool : s'.pool = c :: s.pool := hrel.pool
  have hctx : s'.ctx = s.ctx := hrel.ctx
  refine ⟨?_, ?_, h.hw.expireHw hattr hmem hu hrm hpool hctx hrel.hw⟩
  · refine h.table.release ha hattr hpool hrel.CT hrel.conns (fun c' => ?_) fun c' hm => ?_
    · rw [hctx]
      exact SameEntry.refl _
    · exact ⟨h.table.armed hm, fun heq => hnA (heq ▸ hm)⟩
  · refine h.queue.drop (c := c) (by rw [hrel.attr]) (fun i => ?_) (fun c' hne => ⟨?_, ?_⟩) ?_
    · rw [hb]
      refine h.queue.erase_eq (fun hc => ?_) i
      rw [hst] at hc
      cases hc.2
    · rw [alive_cons hpool]
      exact ⟨fun ha => ha.1, fun ha => ⟨ha, hne⟩⟩
    · rw [hctx]
      exact ⟨rfl, rfl, rfl, rfl⟩
    · rw [alive_cons hpool]
      exact fun ha => ha.1.2 rfl

/-! ### Offloading -/

/-- What `flowQoS_add_entry` and the change of state do to a context. -/
theorem toHw_setEntry_ctx (s : Core σ) (c : CtxId) (h : Option Handle) (hw : Hardware) :
    ((s.setEntry c h hw).toHw c).ctx = Function.update s.ctx c { s.ctx c with
      entry := { (s.ctx c).entry with entry := h }
      ct_state := .HW_FWD_STATE } := by
  simp [Core.toHw, Core.setEntry, Core.setCtx]

theorem setEntry_same (s : Core σ) (c : CtxId) (h : Option Handle) (hw : Hardware) (c' : CtxId) :
    SameEntry (s.ctx c').entry ((s.setEntry c h hw).ctx c').entry ∧
      SameQueue (s.ctx c') ((s.setEntry c h hw).ctx c') := by
  rw [setEntry_ctx, Function.update_apply]
  split
  · next heq =>
    subst heq
    exact ⟨⟨rfl, rfl, rfl⟩, rfl, rfl, rfl, rfl⟩
  · exact ⟨SameEntry.refl _, rfl, rfl, rfl, rfl⟩

theorem toHw_setEntry_match (s : Core σ) (c : CtxId) (h : Option Handle) (hw : Hardware) (c' : CtxId) :
    (((s.setEntry c h hw).toHw c).ctx c').entry.match_ = (s.ctx c').entry.match_ := by
  rw [toHw_setEntry_ctx, Function.update_apply]
  split
  · next heq =>
    rw [heq]
  · rfl

/-- A context of the table or of a queue is alive. -/
theorem Inv.alive_of_waiting (h : Inv P (A, s)) (hin : (∃ k, s.CT k = some c) ∨ ∃ i, c ∈ s.qos.buckets i) :
    Alive P s c := by
  rcases hin with ⟨k, hk⟩ | ⟨i, hi⟩
  · exact (h.table.table hk).1
  · exact (h.queue.mem.1 hi).1

/-- A failing `flowQoS_add_entry` changes no more than the hardware entry of the context. -/
theorem Made.offloadEntry_fail {attr : ConnAttr} {p : ℕ} (hm : Made attr p (s.ctx c).entry) {o : Outcome}
    (h : Conntrack.offloadEntry s c o = .ok (0, s')) : ∃ x hw, s' = s.setEntry c x hw := by
  rcases hm.offloadEntry_zero h with h | h
  · exact ⟨_, _, h⟩
  · exact ⟨_, _, h⟩

/-- `flowQoS_add_entry` returns 0 or 1 and changes the entry and the hardware only. -/
theorem offloadEntry_frame {o : Outcome} {ret : ℤ} (h : offloadEntry s c o = .ok (ret, s')) :
    (ret = 0 ∨ ret = 1) ∧
      ∃ entry hw, s' = { s.setCtx c { s.ctx c with entry := entry } with hw := hw } := by
  unfold offloadEntry at h
  split at h
  · cases h
  · simp only [addEntry, Except.ok.injEq, Prod.mk.injEq] at h
    refine ⟨?_, _, _, h.2.symm⟩
    rw [← h.1]
    split
    · exact .inr rfl
    · exact .inl rfl

/-- A context goes to the hardware and, with it, out of the queues. -/
theorem Inv.install (h : Inv P (A, s)) (hc : Alive P s c) (hst : (s.ctx c).ct_state ≠ .HW_FWD_STATE)
    {o : Outcome} {s₁ : Core σ} (hadd : offloadEntry s c o = .ok (1, s₁))
    (hattr : SameConfig s.attr s'.attr) (hpool : s'.pool = s.pool) (hCT : s'.CT = s.CT)
    (hconns : s'.conns = s.conns) (hctx : s'.ctx = (s₁.toHw c).ctx) (hhw : s'.hw = s₁.hw)
    (hb : ∀ i, s'.qos.buckets i = (s.qos.buckets i).erase c) : Inv P (disarm A s₁ c, s') := by
  obtain ⟨pipe, -, hs₁⟩ := (h.table.made hc).offloadEntry_one hadd
  have haction : (s₁.ctx c).entry.action = (s.ctx c).entry.action := by
    rw [hs₁]
    exact (setEntry_same s c _ _ c).1.2.2
  have hdisarm : disarm A s₁ c = disarm A s c := by
    unfold disarm
    rw [haction]
  rw [hs₁, toHw_setEntry_ctx] at hctx
  rw [hs₁] at hhw
  rw [hdisarm]
  have hne : ∀ c', c' ≠ c → s'.ctx c' = s.ctx c' := by
    intro c' hc'
    rw [hctx]
    exact Function.update_of_ne hc' _ _
  have hself : s'.ctx c = { s.ctx c with
      entry := { (s.ctx c).entry with entry := some s.hw.next }
      ct_state := .HW_FWD_STATE } := by
    rw [hctx]
    exact Function.update_self _ _ _
  refine ⟨?_, ?_, h.hw.install hc hst hattr (fun hat => ?_) hpool hhw hctx rfl⟩
  · refine h.table.congr hattr (hpool ▸ List.Perm.refl _) hCT hconns (fun c' => ?_) fun c' hm => ?_
    · by_cases heq : c' = c
      · rw [heq, hself]
        exact ⟨rfl, rfl, rfl⟩
      · rw [hne c' heq]
        exact SameEntry.refl _
    · exact h.table.armed hm.1
  · refine h.queue.drop hattr.ENABLE_FLOWQOS hb (fun c' heq => ⟨?_, ?_⟩) ?_
    · unfold Alive
      rw [hpool]
    · rw [hne c' heq]
      exact ⟨rfl, rfl, rfl, rfl⟩
    · rw [hself]
      rintro ⟨-, hcon⟩
      cases hcon
  · rw [(h.table.made hc).flags]
    exact hat _ (h.table.made hc).enabled

/-- An entry that the scheduler offloads is that of a context in its queue, and reports it. -/
theorem Inv.scheduled (h : Inv P (A, s)) {i : ℕ} (hmem : c ∈ s.qos.buckets i) {o : Outcome} {ret : ℤ}
    {s₁ : Core σ} (hadd : offloadEntry s c o = .ok (ret, s₁)) {arg : CtxId}
    (harg : (s₁.ctx c).entry.flowQoS_args = some arg) :
    Made s.attr (s.conns c).port (s.ctx c).entry ∧ Alive P s c ∧ arg = c ∧
      (s.ctx c).ct_state ≠ .HW_FWD_STATE := by
  obtain ⟨ha, hst, -⟩ := h.queue.mem.1 hmem
  obtain ⟨pipe, -, -, rfl⟩ := (h.table.made ha).offloadEntry hadd
  refine ⟨h.table.made ha, ha, ?_, fun hc => by cases hst.symm.trans hc⟩
  rw [((setEntry_same s c _ _ c).2).2.2.2, (h.queue.queued ha hst).2.2] at harg
  exact (Option.some.inj harg).symm

theorem filterCongestionCb_same (attr : ConnAttr) : SameConfig attr (filterCongestionCb attr) := by
  unfold filterCongestionCb
  split
  · exact ⟨rfl, rfl, rfl, rfl, rfl, rfl, rfl, rfl⟩
  · exact SameConfig.refl attr

/-- The congestion signal changes the flag of the scheduler and the time of the filter. -/
theorem congestion_eq (s : Core σ) : ∃ n attr, SameConfig s.attr attr ∧
    congestion s = { s with qos := { s.qos with hwCongested := n }, attr := attr } := by
  unfold congestion
  simp only
  split
  · split
    · exact ⟨1, _, filterCongestionCb_same _, rfl⟩
    · exact ⟨0, _, SameConfig.refl _, rfl⟩
  · split
    · exact ⟨1, _, filterCongestionCb_same _, rfl⟩
    · exact ⟨s.qos.hwCongested, _, SameConfig.refl _, rfl⟩

/-- The rest of a turn of the scheduler, after its entry has been offloaded. -/
theorem scheduled_ok {i : ℕ} (h : delEntryEvent (congestion (spendEntry s i)) c = .ok s') :
    ∃ qos attr, s' = { s with qos := qos, attr := attr } ∧ SameConfig s.attr attr ∧
      c ∈ s.qos.buckets (s.ctx c).entry.priority.toNat ∧
      qos.buckets = Function.update s.qos.buckets (s.ctx c).entry.priority.toNat
        ((s.qos.buckets (s.ctx c).entry.priority.toNat).erase c) ∧
      qos.maxEntry = s.qos.maxEntry - 1 ∧ qos.maxEntryLimit = s.qos.maxEntryLimit ∧
      qos.priorityQueueNum = s.qos.priorityQueueNum ∧ qos.weight = s.qos.weight := by
  obtain ⟨n, attr, hattr, hcong⟩ := congestion_eq (spendEntry s i)
  rw [hcong] at h
  unfold delEntryEvent at h
  simp only at h
  split at h
  · next hmem =>
    cases h
    exact ⟨_, attr, rfl, hattr, hmem, rfl, rfl, rfl, rfl, rfl⟩
  · cases h

/-! ### The moves -/

theorem Move.sameConfig {w w' : Set CtxId × Core σ} (h : Move P L w w') : SameConfig w.2.attr w'.2.attr := by
  cases h with
  | still hs => exact hs.attr
  | app => exact SameConfig.refl _
  | report => exact SameConfig.refl _
  | refuse => exact SameConfig.refl _
  | lose => exact SameConfig.refl _
  | opened => exact SameConfig.refl _
  | rearm => exact SameConfig.refl _
  | enqueue => exact ⟨rfl, rfl, rfl, rfl, rfl, rfl, rfl, rfl⟩
  | install _ _ _ _ hadd =>
    obtain ⟨-, entry, hw, rfl⟩ := offloadEntry_frame hadd
    exact SameConfig.refl _
  | schedule _ _ hadd _ hdel =>
    obtain ⟨-, entry, hw, rfl⟩ := offloadEntry_frame hadd
    obtain ⟨qos, attr, rfl, hattr, -⟩ := scheduled_ok hdel
    exact hattr
  | addFail _ _ hadd =>
    obtain ⟨-, entry, hw, rfl⟩ := offloadEntry_frame hadd
    exact SameConfig.refl _
  | expireSw _ hexp => exact (connExpireSw_ok hexp).1.sameConfig
  | rmEntry => exact SameConfig.refl _
  | expireHw _ _ _ _ _ hexp => exact (connExpireHw_ok hexp).1.sameConfig

theorem QueueInv.opened (h : QueueInv P s) (hc : c ∈ s.pool) (hpool : s'.pool = s.pool.erase c)
    (hnd : s.pool.Nodup) (hlt : c < P.maxConntrack) (hen : s'.attr = s.attr) (hqos : s'.qos = s.qos)
    (hne : ∀ c', c' ≠ c → s'.ctx c' = s.ctx c') (hst : (s'.ctx c).ct_state = .SW_FWD_STATE) :
    QueueInv P s' := by
  have halive : ∀ c', Alive P s' c' ↔ Alive P s c' ∨ c' = c := fun c' => alive_erase hnd hc hlt hpool
  have hnew : ∀ {c'}, Alive P s c' → c' ≠ c := fun ha he => ha.2 (he ▸ hc)
  refine ⟨fun i => ?_, fun {c' i} => ?_, fun {c'} ha hs => ?_⟩
  · rw [hqos]
    exact h.nodup i
  · rw [hqos, h.mem, halive]
    by_cases heq : c' = c
    · subst heq
      rw [hst]
      refine ⟨fun hm => absurd rfl (hnew hm.1), ?_⟩
      rintro ⟨-, hcon, -⟩
      cases hcon
    · rw [hne c' heq]
      tauto
  · rcases (halive c').1 ha with ha | rfl
    · rw [hne c' (hnew ha)] at hs ⊢
      rw [hen]
      exact h.queued ha hs
    · rw [hst] at hs
      cases hs

/-! ### One move -/

/-- The tables and the contexts are as they were, whatever happened to the application and to the list
of free contexts. -/
structure SameTables (s s' : Core σ) : Prop where
  attr : s'.attr = s.attr
  pool : s'.pool.Perm s.pool
  CT : s'.CT = s.CT
  conns : s'.conns = s.conns
  ctx : s'.ctx = s.ctx
  buckets : s'.qos.buckets = s.qos.buckets

section SameTables

variable (hs : SameTables s s')

include hs

theorem SameTables.sameConfig : SameConfig s.attr s'.attr := by
  rw [hs.attr]
  exact SameConfig.refl _

theorem SameTables.table (h : TableInv P A s) (hA : ∀ c ∈ A', Alive P s c) : TableInv P A' s' := by
  refine h.congr hs.sameConfig hs.pool hs.CT hs.conns (fun c => ?_) hA
  rw [hs.ctx]
  exact SameEntry.refl _

theorem SameTables.queue (h : QueueInv P s) : QueueInv P s' := by
  refine h.congr hs.pool (by rw [hs.attr]) hs.buckets fun c => ?_
  rw [hs.ctx]
  exact ⟨rfl, rfl, rfl, rfl⟩

theorem SameTables.hw (h : HwInv P A s) (hhw : SameHw s.hw s'.hw)
    (hA : ∀ {c}, (s.ctx c).ct_state = .HW_FWD_STATE → c ∉ A → c ∉ A') : HwInv P A' s' := by
  refine h.congr hs.sameConfig hs.pool hhw (fun c => ?_) hA
  rw [hs.ctx]
  exact SameAging.refl _

end SameTables

theorem Inv.frame (h : Inv P (A, s)) (hs : SameTables s s') (hhw : SameHw s.hw s'.hw) :
    Inv P (A, s') :=
  ⟨hs.table h.table fun _ hm => h.table.armed hm, hs.queue h.queue, hs.hw h.hw hhw fun _ hA => hA⟩

theorem Inv.still (h : Inv P (A, s)) (hs : Still s s') : Inv P (A, s') := by
  have hperm : s'.pool.Perm s.pool := hs.pool ▸ List.Perm.refl _
  refine ⟨?_, ?_, ?_⟩
  · refine h.table.congr hs.attr hperm hs.CT hs.conns (fun c => ?_) fun c hm => h.table.armed hm
    rw [(hs.ctx c).1]
    exact SameEntry.refl _
  · refine h.queue.congr hperm hs.attr.ENABLE_FLOWQOS hs.buckets fun c => ?_
    obtain ⟨h1, h2⟩ := hs.ctx c
    exact ⟨h2, by rw [h1], by rw [h1], by rw [h1]⟩
  · refine h.hw.congr hs.attr hperm (by rw [hs.hw]; exact SameHw.refl _) (fun c => ?_) fun _ hA => hA
    obtain ⟨h1, h2⟩ := hs.ctx c
    rw [SameAging, h1, h2]
    exact ⟨rfl, rfl, rfl, rfl, rfl, Iff.rfl⟩

/-- The timer of a context in software may be armed or disarmed. -/
theorem Inv.rearm (h : Inv P (A, s)) {k : FlowQoSMatch} (hk : s.CT k = some c)
    (hst : (s.ctx c).ct_state ≠ .HW_FWD_STATE) (hA : ∀ c' ∈ A', c' ∈ A ∨ c' = c) : Inv P (A', s) := by
  have hs : SameTables s s := ⟨rfl, List.Perm.refl _, rfl, rfl, rfl, rfl⟩
  refine ⟨hs.table h.table fun c' hm => ?_, h.queue, hs.hw h.hw (SameHw.refl _) fun {c'} hs hnA hm => ?_⟩
  · rcases hA c' hm with hm | rfl
    · exact h.table.armed hm
    · exact (h.table.table hk).1
  · rcases hA c' hm with hm | rfl
    · exact hnA hm
    · exact hst hs

theorem Inv.enqueue (h : Inv P (A, s)) {k : FlowQoSMatch} (hk : s.CT k = some c)
    (hst : (s.ctx c).ct_state = .SW_FWD_STATE) (hen : s.attr.ENABLE_FLOWQOS) :
    Inv P (A, enqueueConn s c) := by
  have ha : Alive P s c := (h.table.table hk).1
  have hctx : ∀ c', SameEntry (s.ctx c').entry ((enqueueConn s c).ctx c').entry ∧
      SameAging (s.ctx c') ((enqueueConn s c).ctx c') := by
    intro c'
    rw [enqueueConn_ctx, Function.update_apply]
    split
    · next heq =>
      subst heq
      refine ⟨⟨rfl, rfl, rfl⟩, rfl, rfl, rfl, rfl, rfl, ?_⟩
      rw [hst]
      simp
    · exact ⟨SameEntry.refl _, SameAging.refl _⟩
  have hattr : SameConfig s.attr (enqueueConn s c).attr := ⟨rfl, rfl, rfl, rfl, rfl, rfl, rfl, rfl⟩
  exact ⟨h.table.congr hattr (List.Perm.refl _) rfl rfl (fun c' => (hctx c').1)
      fun c' hm => h.table.armed hm, h.queue.enqueue ha hst hen,
    h.hw.congr hattr (List.Perm.refl _) (SameHw.refl _) (fun c' => (hctx c').2) fun _ hA => hA⟩

/-- **Every move preserves the invariant.** -/
theorem inv_move {w w' : Set CtxId × Core σ} (hok : HandlerOk P w.2.attr) (h : Inv P w)
    (hm : Move P L w w') : Inv P w' := by
  cases hm with
  | still hs => exact h.still hs
  | app app => exact h.frame ⟨rfl, List.Perm.refl _, rfl, rfl, rfl, rfl⟩ (SameHw.refl _)
  | report hs _ => exact h.frame ⟨rfl, List.Perm.refl _, rfl, rfl, rfl, rfl⟩ (sameHw_report _ _)
  | refuse _ _ => exact h.frame ⟨rfl, List.Perm.refl _, rfl, rfl, rfl, rfl⟩ (SameHw.refl _)
  | lose _ _ _ hperm => exact h.frame ⟨rfl, hperm, rfl, rfl, rfl, rfl⟩ (SameHw.refl _)
  | @opened A s m e ret e' app c tsc A' hask hret hc hA =>
    have hA' : ∀ c' ∈ A', c' ∈ A ∨ c' = c := by
      rcases hA with ⟨rfl, -⟩ | ⟨rfl, -⟩
      · exact fun c' hm => .inl hm
      · exact fun c' hm => hm.symm
    refine ⟨h.table.opened hask hret hok.keeps hc hA', ?_, h.hw.opened h.table hask hret hc hA'⟩
    refine h.queue.opened hc rfl h.table.pool_nodup (h.table.pool_lt hc) rfl rfl (fun c' hne => ?_) ?_
    · exact Function.update_of_ne hne _ _
    · show (Function.update s.ctx c _ c).ct_state = _
      rw [Function.update_self]
      exact fill_state
  | @rearm A s k c A' hk hst hA =>
    refine h.rearm hk hst ?_
    rcases hA with rfl | rfl | ⟨rfl, -⟩
    · exact fun c' hm => .inl hm
    · exact fun c' hm => hm.symm
    · exact fun c' hm => .inl hm.1
  | enqueue hk hst hen => exact h.enqueue hk hst hen
  | @install A s k c o s₁ hk hst hen hnum hadd =>
    obtain ⟨-, entry, hw, rfl⟩ := offloadEntry_frame hadd
    refine h.install (h.table.table hk).1 (by simp [hst]) hadd (SameConfig.refl _) rfl rfl rfl rfl rfl ?_
    refine h.queue.erase_eq fun hc => ?_
    rw [hst] at hc
    cases hc.2
  | @schedule A s i c o s₁ arg s' hmem hmax hadd harg hdel =>
    obtain ⟨-, ha, rfl, hst⟩ := h.scheduled hmem hadd harg
    obtain ⟨-, entry, hw, rfl⟩ := offloadEntry_frame hadd
    obtain ⟨qos, attr, rfl, hattr, hin, hb, -⟩ := scheduled_ok hdel
    refine h.install ha hst hadd hattr rfl rfl rfl rfl rfl fun j => ?_
    show qos.buckets j = _
    rw [hb]
    exact h.queue.delEntryEvent rfl hin j
  | @addFail A s c o s' hin hst hadd =>
    have ha : Alive P s c := h.alive_of_waiting hin
    have hs' := (h.table.made ha).offloadEntry_zero hadd
    obtain ⟨x, hw, rfl⟩ := (h.table.made ha).offloadEntry_fail hadd
    exact ⟨h.table.congr (SameConfig.refl _) (List.Perm.refl _) rfl rfl
        (fun c' => (setEntry_same s c x hw c').1) fun c' hm => h.table.armed hm,
      h.queue.congr (List.Perm.refl _) rfl rfl fun c' => (setEntry_same s c x hw c').2,
      h.hw.addFail hst hs'⟩
  | expireSw hc hexp => exact h.expireSw hc hexp
  | @rmEntry A s c e ok hw hmem hu hrm hcb =>
    have hs : SameTables s { s with hw := hw } := ⟨rfl, List.Perm.refl _, rfl, rfl, rfl, rfl⟩
    exact ⟨hs.table h.table fun _ hm => h.table.armed hm, hs.queue h.queue,
      h.hw.rmEntry h.table hmem hu hrm hcb⟩
  | expireHw hmem hu hrm hcb harg hexp => exact h.expireHw hok hmem hu hrm hcb harg hexp

/-- Where an entry of the hardware comes from: it was there before, or it has been inserted for a context. -/
theorem Move.hwEntry {w w' : Set CtxId × Core σ} (h : Inv P w) (hm : Move P L w w') {e : HwEntry}
    (he : e ∈ w'.2.hw.entries) :
    (∃ e₀ ∈ w.2.hw.entries, e = e₀ ∨ e = { e₀ with reported := true }) ∨
      ∃ c pipe, Alive P w.2 c ∧ (w.2.ctx c).entry.pipe = some pipe ∧ e = nextHw w.2 c pipe := by
  have hold : ∀ {e₀ : HwEntry}, e₀ ∈ w.2.hw.entries →
      ∃ e₁ ∈ w.2.hw.entries, e₀ = e₁ ∨ e₀ = { e₁ with reported := true } :=
    fun {e₀} he₀ => ⟨e₀, he₀, .inl rfl⟩
  cases hm with
  | still hs =>
    rw [hs.hw] at he
    exact .inl (hold he)
  | app => exact .inl (hold he)
  | report hs _ =>
    obtain ⟨e₀, he₀, rfl⟩ := List.mem_map.1 he
    refine .inl ⟨e₀, he₀, ?_⟩
    split
    · exact .inr rfl
    · exact .inl rfl
  | refuse => exact .inl (hold he)
  | lose => exact .inl (hold he)
  | opened => exact .inl (hold he)
  | rearm => exact .inl (hold he)
  | enqueue => exact .inl (hold he)
  | @install A s k c o s₁ hk hst hen hnum hadd =>
    have ha := (h.table.table hk).1
    obtain ⟨pipe, hpipe, rfl⟩ := (h.table.made ha).offloadEntry_one hadd
    rcases List.mem_append.1 he with he | he
    · exact .inl (hold he)
    · exact .inr ⟨c, pipe, ha, hpipe, List.mem_singleton.1 he⟩
  | @schedule A s i c o s₁ arg s' hmem hmax hadd harg hdel =>
    obtain ⟨hmade, ha, rfl, -⟩ := h.scheduled hmem hadd harg
    obtain ⟨pipe, hpipe, rfl⟩ := hmade.offloadEntry_one hadd
    obtain ⟨qos, attr, rfl, -⟩ := scheduled_ok hdel
    rcases List.mem_append.1 he with he | he
    · exact .inl (hold he)
    · exact .inr ⟨arg, pipe, ha, hpipe, List.mem_singleton.1 he⟩
  | @addFail A s c o s' hin hst hadd =>
    have ha : Alive P s c := h.alive_of_waiting hin
    rcases (h.table.made ha).offloadEntry_zero hadd with rfl | rfl
    · exact .inl (hold he)
    · exact .inl (hold he)
  | expireSw _ hexp =>
    rw [(connExpireSw_ok hexp).1.hw] at he
    exact .inl (hold he)
  | rmEntry _ _ hrm =>
    obtain ⟨y, -, -, rfl⟩ := rmEntry_some hrm
    exact .inl (hold (List.mem_filter.1 he).1)
  | expireHw _ _ hrm _ _ hexp =>
    rw [(connExpireHw_ok hexp).1.hw] at he
    obtain ⟨y, -, -, rfl⟩ := rmEntry_some hrm
    exact .inl (hold (List.mem_filter.1 he).1)

theorem HandlerOk.congr {attr attr' : ConnAttr} (h : HandlerOk P attr) (hattr : SameConfig attr attr') :
    HandlerOk P attr' := by
  rcases h with h | ⟨h, hat⟩
  · exact .inl h
  · exact .inr ⟨h, (attaches_congr hattr).2 hat⟩

theorem Moves.sameConfig {w w' : Set CtxId × Core σ} (h : Moves P L w w') :
    SameConfig w.2.attr w'.2.attr := by
  induction h with
  | refl => exact SameConfig.refl _
  | tail _ hm ih => exact ih.trans hm.sameConfig

/-- The invariant rule for moves: what a move preserves under the invariant, a sequence preserves. -/
theorem Moves.inv {Q : Set CtxId × Core σ → Prop} {w w' : Set CtxId × Core σ}
    (hstep : ∀ w w', HandlerOk P w.2.attr → Inv P w → Q w → Move P L w w' → Q w')
    (hok : HandlerOk P w.2.attr) (h : Inv P w) (hQ : Q w) (hm : Moves P L w w') : Inv P w' ∧ Q w' := by
  induction hm with
  | refl => exact ⟨h, hQ⟩
  | tail hms hm ih =>
    have hok' := hok.congr (Moves.sameConfig hms)
    exact ⟨inv_move hok' ih.1 hm, hstep _ _ hok' ih.1 ih.2 hm⟩

theorem inv_moves {w w' : Set CtxId × Core σ} (hok : HandlerOk P w.2.attr) (h : Inv P w)
    (hm : Moves P L w w') : Inv P w' :=
  (hm.inv (Q := fun _ => True) (fun _ _ _ _ _ _ => trivial) hok h trivial).1

/-! ### The timers of the contexts in software -/

theorem UInt64.toNat_mul_thousand {x : UInt64} (h : x.toNat * 1000 ≤ timerMaxTimeout) :
    (x * 1000).toNat ≤ timerMaxTimeout := by
  rw [UInt64.toNat_mul]
  exact Nat.le_trans (Nat.mod_le _ _) h

theorem fill_expireTime {x : ConnContext} {e : FlowQoSEntry} {tsc : UInt64}
    (h : e.expireTime.toNat * 1000 ≤ timerMaxTimeout) :
    (x.fill c e tsc).entry.expireTime.toNat * 1000 ≤ timerMaxTimeout := by
  by_cases hf : e.action.flags = AGING
  · rw [fill_not_attached hf]
    exact h
  · rw [fill_attached hf]
    show (if e.expireTime = 0 then (10 : UInt64) else e.expireTime).toNat * 1000 ≤ timerMaxTimeout
    split
    · decide
    · exact h

/-- The new context's timer runs, and the others are as they were. -/
theorem TimedInv.opened (h : TimedInv P A s) (ht : TableInv P A s) (hkeep : Keeps P)
    (hshort : ShortExpire P) (hat : Attaches s.attr) {m : Mbuf} {e e' : FlowQoSEntry} {ret : ℤ} {app : σ}
    {tsc : UInt64} (hask : Asked P s m e ret e' app) (hret : 0 ≤ ret) (hc : c ∈ s.pool)
    (hA : A' = A ∧ ¬ Attached ((s.ctx c).fill c e' tsc) ∨
      A' = insert c A ∧ Attached ((s.ctx c).fill c e' tsc)) :
    TimedInv P A' ((s.accept m.port e.match_ app).insert c e' ⟨s.accepted, m.port⟩ tsc) := by
  obtain ⟨f, x, hf, hr⟩ := hask.handler
  have hzero := (made_parsed ht.conf hask.enabled hask.parsed).2.2.2
  have hexp := hshort f x e s.app ret e' app hf hzero hr hret
  have hflags : e'.action.flags ≠ AGING := by
    rw [(hask.made hret ht.conf hkeep).1.flags]
    exact hat _ hask.enabled
  have hatt : Attached ((s.ctx c).fill c e' tsc) :=
    ⟨by rw [fill_entry.1.2.2]; exact hflags, UInt64.toNat_mul_thousand (fill_expireTime hexp)⟩
  obtain rfl : A' = insert c A := by
    rcases hA with ⟨-, hn⟩ | ⟨h, -⟩
    · exact absurd hatt hn
    · exact h
  set s' := (s.accept m.port e.match_ app).insert c e' ⟨s.accepted, m.port⟩ tsc with hs'
  have halive : ∀ c', Alive P s' c' ↔ Alive P s c' ∨ c' = c :=
    fun c' => alive_erase ht.pool_nodup hc (ht.pool_lt hc) rfl
  have hself : s'.ctx c = (s.ctx c).fill c e' tsc := Function.update_self _ _ _
  have hne : ∀ c', c' ≠ c → s'.ctx c' = s.ctx c' := fun c' hne => Function.update_of_ne hne _ _
  refine ⟨fun {c'} ha hst => ?_, fun {c'} ha => ?_⟩
  · by_cases heq : c' = c
    · exact .inl heq
    · rw [hne c' heq] at hst
      exact .inr (h.armed (((halive c').1 ha).resolve_right heq) hst)
  · by_cases heq : c' = c
    · rw [heq, hself]
      exact fill_expireTime hexp
    · rw [hne c' heq]
      exact h.short (((halive c').1 ha).resolve_right heq)

/-- What the software timers depend on. -/
theorem TimedInv.congr (h : TimedInv P A s) (halive : ∀ {c}, Alive P s' c → Alive P s c)
    (hctx : ∀ c, (s'.ctx c).entry.expireTime = (s.ctx c).entry.expireTime)
    (hA : ∀ {c}, Alive P s' c → (s'.ctx c).ct_state ≠ .HW_FWD_STATE →
      (s.ctx c).ct_state ≠ .HW_FWD_STATE ∧ (c ∈ A → c ∈ A')) : TimedInv P A' s' where
  armed ha hst := (hA ha hst).2 (h.armed (halive ha) (hA ha hst).1)
  short ha := by
    rw [hctx]
    exact h.short (halive ha)

/-- A context that goes to the hardware. -/
theorem TimedInv.install (h : TimedInv P A s) {o : Outcome} {s₁ : Core σ} {attr : ConnAttr} {p : ℕ}
    (hmade : Made attr p (s.ctx c).entry) (hadd : offloadEntry s c o = .ok (1, s₁))
    (hpool : s'.pool = s.pool) (hctx : s'.ctx = (s₁.toHw c).ctx) : TimedInv P (disarm A s₁ c) s' := by
  obtain ⟨pipe, -, rfl⟩ := hmade.offloadEntry_one hadd
  rw [toHw_setEntry_ctx] at hctx
  refine h.congr (fun ha => ?_) (fun c' => ?_) fun {c'} ha hst => ?_
  · unfold Alive at ha ⊢
    rwa [hpool] at ha
  · rw [hctx, Function.update_apply]
    split
    · next heq =>
      rw [heq]
    · rfl
  · rw [hctx, Function.update_apply] at hst
    split at hst
    · exact absurd rfl hst
    · next hne => exact ⟨hst, fun hm => ⟨hm, fun hc => hne hc.1⟩⟩

/-- **The timer of a context in software keeps running**, whatever the move. -/
theorem timed_move (hkeep : Keeps P) (hshort : ShortExpire P) {w w' : Set CtxId × Core σ}
    (hat : Attaches w.2.attr) (h : Inv P w) (ht : TimedInv P w.1 w.2) (hm : Move P L w w') :
    TimedInv P w'.1 w'.2 := by
  cases hm with
  | @still A s s' hs =>
    refine ht.congr (fun ha => ?_) (fun c => by rw [(hs.ctx c).1]) fun {c} _ hst => ⟨?_, id⟩
    · unfold Alive at ha ⊢
      rwa [hs.pool] at ha
    · rwa [(hs.ctx c).2] at hst
  | app => exact ⟨ht.armed, ht.short⟩
  | report => exact ⟨ht.armed, ht.short⟩
  | refuse => exact ⟨ht.armed, ht.short⟩
  | lose _ _ _ hperm =>
    exact ht.congr (fun ha => (alive_congr hperm).1 ha) (fun _ => rfl) fun _ hst => ⟨hst, id⟩
  | opened hask hret hc hA => exact ht.opened h.table hkeep hshort hat hask hret hc hA
  | @rearm A s k c A' hk hst hA =>
    refine ht.congr id (fun _ => rfl) fun {c'} _ hst' => ⟨hst', fun hm => ?_⟩
    rcases hA with rfl | rfl | ⟨-, hlong⟩
    · exact hm
    · exact .inr hm
    · have := UInt64.toNat_mul_thousand (ht.short (h.table.table hk).1)
      exact absurd hlong (Nat.not_lt.2 this)
  | @enqueue A s k c hk hst hen =>
    refine ht.congr id (fun c' => ?_) fun {c'} _ hst' => ⟨?_, id⟩
    · rw [enqueueConn_ctx, Function.update_apply]
      split
      · next heq =>
        rw [heq]
      · rfl
    · rw [enqueueConn_ctx, Function.update_apply] at hst'
      split at hst'
      · next heq =>
        rw [heq, hst]
        exact fun hc => by cases hc
      · exact hst'
  | @install A s k c o s₁ hk hst hen hnum hadd =>
    obtain ⟨-, entry, hw, hs₁⟩ := offloadEntry_frame hadd
    exact ht.install (h.table.made (h.table.table hk).1) hadd (by rw [hs₁]; rfl) rfl
  | @schedule A s i c o s₁ arg s' hmem hmax hadd harg hdel =>
    obtain ⟨hmade, -, rfl, -⟩ := h.scheduled hmem hadd harg
    obtain ⟨-, entry, hw, hs₁⟩ := offloadEntry_frame hadd
    obtain ⟨qos, attr, rfl, -⟩ := scheduled_ok hdel
    exact ht.install hmade hadd (by rw [hs₁]; rfl) rfl
  | @addFail A s c o s' hin hst hadd =>
    have ha : Alive P s c := h.alive_of_waiting hin
    obtain ⟨x, hw, rfl⟩ := (h.table.made ha).offloadEntry_fail hadd
    refine ht.congr id (fun c' => ?_) fun {c'} _ hst' => ⟨?_, id⟩
    · rw [setEntry_ctx, Function.update_apply]
      split
      · next heq =>
        rw [heq]
      · rfl
    · rwa [(setEntry_same s c x hw c').2.1] at hst'
  | @expireSw A s c s' hc hexp =>
    obtain ⟨hrel, -⟩ := connExpireSw_ok hexp
    refine ht.congr (fun ha => ((alive_cons hrel.pool).1 ha).1) (fun c' => by rw [hrel.ctx]) ?_
    intro c' ha hst
    rw [hrel.ctx] at hst
    exact ⟨hst, fun hm => ⟨hm, ((alive_cons hrel.pool).1 ha).2⟩⟩
  | rmEntry => exact ⟨ht.armed, ht.short⟩
  | expireHw _ _ _ _ _ hexp =>
    obtain ⟨hrel, -⟩ := connExpireHw_ok hexp
    refine ht.congr (fun ha => ((alive_cons hrel.pool).1 ha).1) (fun c' => by rw [hrel.ctx]) ?_
    intro c' ha hst
    rw [hrel.ctx] at hst
    exact ⟨hst, id⟩

end FlowQoS.Conntrack
