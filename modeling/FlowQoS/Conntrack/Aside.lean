import FlowQoS.Conntrack.Aging
import FlowQoS.Timer.RealTime

/-!
# What an event leaves alone of a connection's timer

The timer of a connection is armed when the connection is opened and started again by its packets; that it
fires depends on the deadline in the wheel, and on the expire time, the flags and the stamp of the last
refresh in the context. An event that is not a tick and no packet of the connection leaves all of these alone
(`step_aside`), but that the timer is stopped when the connection goes to the hardware. A tick writes no
context (`tick_frame`).
-/

namespace FlowQoS.Conntrack

open Lib Pipe Timer

variable {σ ε : Type} {P : Params σ ε} {L : Allowed} {w w' w'' : World σ} {mgr mgr' : Mgr} {s s' s'' : Core σ}
  {c c' : CtxId} {k : FlowQoSMatch} {m : Mbuf} {env : PacketEnv ε}

/-! ### What an event leaves alone -/

/-- What the timer of a context depends on is the same in both cores, but for the state of the context. -/
structure SameTerms (s s' : Core σ) (c : CtxId) : Prop where
  CPU_HZ : s'.attr.CPU_HZ = s.attr.CPU_HZ
  stamp : (s'.ctx c).lastResetTimerStmp = (s.ctx c).lastResetTimerStmp
  expireTime : (s'.ctx c).entry.expireTime = (s.ctx c).entry.expireTime
  flags : (s'.ctx c).entry.action.flags = (s.ctx c).entry.action.flags

theorem SameTerms.refl (s : Core σ) (c : CtxId) : SameTerms s s c := ⟨rfl, rfl, rfl, rfl⟩

theorem SameTerms.trans (h : SameTerms s s' c) (h' : SameTerms s' s'' c) : SameTerms s s'' c :=
  ⟨h'.1.trans h.1, h'.2.trans h.2, h'.3.trans h.3, h'.4.trans h.4⟩

/-- Another context is written, or the terms of this one are not changed. -/
theorem sameTerms_setCtx {x : ConnContext} (h : c' = c → x.lastResetTimerStmp = (s.ctx c).lastResetTimerStmp ∧
    x.entry.expireTime = (s.ctx c).entry.expireTime ∧
    x.entry.action.flags = (s.ctx c).entry.action.flags) : SameTerms s (s.setCtx c' x) c := by
  have hctx : (s.setCtx c' x).ctx = Function.update s.ctx c' x := rfl
  by_cases heq : c' = c
  · obtain ⟨h1, h2, h3⟩ := h heq
    subst heq
    refine ⟨rfl, ?_, ?_, ?_⟩
    all_goals rw [hctx, Function.update_self]; assumption
  · have hne : (s.setCtx c' x).ctx c = s.ctx c := by rw [hctx, Function.update_of_ne (Ne.symm heq)]
    refine ⟨rfl, ?_, ?_, ?_⟩
    all_goals rw [hne]

/-- Nothing happens to the timer of a context, but that it may be stopped when the context goes to the
hardware. -/
structure Aside (w w' : World σ) (c : CtxId) : Prop where
  startStmp : w'.1.startStmp = w.1.startStmp
  timeout : w'.1.timeout = w.1.timeout
  terms : SameTerms w.2 w'.2 c
  armed : (alarms w'.1).armed c = (alarms w.1).armed c ∨ (alarms w'.1).armed c = none
  hw : (w'.2.ctx c).ct_state = .HW_FWD_STATE → (w.2.ctx c).ct_state = .HW_FWD_STATE ∨
    ((w.2.ctx c).entry.action.flags ≠ AGING → (alarms w'.1).armed c = none)

theorem Aside.trans (h : Aside w w' c) (h' : Aside w' w'' c) : Aside w w'' c where
  startStmp := h'.startStmp.trans h.startStmp
  timeout := h'.timeout.trans h.timeout
  terms := h.terms.trans h'.terms
  armed := by
    rcases h'.armed with heq | hnone
    · rw [heq]
      exact h.armed
    · exact .inr hnone
  hw hst := by
    rcases h'.hw hst with hst' | hoff
    · refine (h.hw hst').imp_right fun hoff hne => ?_
      rcases h'.armed with heq | hnone
      · rw [heq]
        exact hoff hne
      · exact hnone
    · right
      rw [← h.terms.flags]
      exact hoff

/-- A step that leaves the timers alone, and the context in its state or out of the hardware. -/
theorem Aside.core (h : SameTerms s s' c)
    (hst : (s'.ctx c).ct_state = .HW_FWD_STATE → (s.ctx c).ct_state = .HW_FWD_STATE) :
    Aside (mgr, s) (mgr, s') c :=
  ⟨rfl, rfl, h, .inl rfl, fun hc => .inl (hst hc)⟩

theorem Aside.refl (w : World σ) (c : CtxId) : Aside w w c := .core (.refl _ c) id

/-- A step that writes no context. -/
theorem Aside.ctx (hctx : s'.ctx = s.ctx) (hcpu : s'.attr.CPU_HZ = s.attr.CPU_HZ) :
    Aside (mgr, s) (mgr, s') c := by
  refine .core ⟨hcpu, ?_, ?_, ?_⟩ ?_
  all_goals rw [hctx]
  exact id

/-! ### Offloading -/

/-- The timer is deleted and the context goes to the hardware. -/
theorem qosHandler_aside (hmgr : MgrInv w.1) (c' c : CtxId) : Aside w (qosHandler w c') c := by
  obtain ⟨mgr, s⟩ := w
  have hterms : SameTerms s (qosHandler (mgr, s) c').2 c := sameTerms_setCtx fun heq => by
    subst heq
    exact ⟨rfl, rfl, rfl⟩
  have hctx : (qosHandler (mgr, s) c').2.ctx =
      Function.update s.ctx c' { s.ctx c' with ct_state := .HW_FWD_STATE } := rfl
  by_cases hf : (s.ctx c').entry.action.flags ^^^ AGING ≠ 0
  · have hq : (qosHandler (mgr, s) c').1 = timerStop mgr c' := if_pos hf
    have harmed : (alarms (qosHandler (mgr, s) c').1).armed c =
        if c = c' then none else (alarms mgr).armed c := by
      rw [hq, hmgr.wheel.alarms_timerStop, Alarms.disarm_armed]
    refine ⟨by rw [hq]; rfl, by rw [hq]; rfl, hterms, ?_, fun hst => ?_⟩
    · rw [harmed]
      split
      · exact .inr rfl
      · exact .inl rfl
    · by_cases heq : c = c'
      · exact .inr fun _ => by rw [harmed, if_pos heq]
      · rw [hctx, Function.update_of_ne heq] at hst
        exact .inl hst
  · have hq : (qosHandler (mgr, s) c').1 = mgr := if_neg hf
    refine ⟨by rw [hq], by rw [hq], hterms, .inl (by rw [hq]), fun hst => ?_⟩
    by_cases heq : c = c'
    · subst heq
      exact .inr fun hne => absurd (xor_ne_zero.2 hne) hf
    · rw [hctx, Function.update_of_ne heq] at hst
      exact .inl hst

/-- An insertion into the hardware, whether it succeeds or not. -/
theorem offloadEntry_aside {attr : ConnAttr} {p : ℕ} (hmade : Made attr p (s.ctx c').entry) {o : Outcome}
    {ret : ℤ} (hadd : offloadEntry s c' o = .ok (ret, s')) : Aside (mgr, s) (mgr, s') c := by
  obtain ⟨pipe, -, -, rfl⟩ := Made.offloadEntry hmade hadd
  by_cases heq : c = c'
  · subst heq
    refine .core ⟨rfl, ?_, ?_, ?_⟩ ?_
    all_goals rw [setEntry_ctx, Function.update_self]
    exact id
  · refine .core ⟨rfl, ?_, ?_, ?_⟩ ?_
    all_goals rw [setEntry_ctx, Function.update_of_ne heq]
    exact id

theorem enqueueConn_aside : Aside (mgr, s) (mgr, enqueueConn s c') c := by
  by_cases heq : c = c'
  · subst heq
    refine .core ⟨rfl, ?_, ?_, ?_⟩ ?_
    all_goals rw [enqueueConn_ctx, Function.update_self]
    intro hst
    cases hst
  · refine .core ⟨rfl, ?_, ?_, ?_⟩ ?_
    all_goals rw [enqueueConn_ctx, Function.update_of_ne heq]
    exact id

theorem offloadConn_aside (h : Inv P (view w)) (hmgr : MgrInv w.1) (hk : w.2.CT k = some c')
    (hrun : offloadConn w c' env = .ok w') : Aside w w' c := by
  obtain ⟨mgr, s⟩ := w
  obtain ⟨attr, hattr, hcase⟩ := offloadConn_cases hrun
  have hmade := h.table.made (h.table.table hk).1
  have hcpu : (shouldOffloadCt attr (s.ctx c') env.offload_tsc).2.CPU_HZ = s.attr.CPU_HZ :=
    (shouldOffloadCt_CPU_HZ _ _ _).trans (filterRuntimeTune_CPU_HZ hattr)
  generalize (shouldOffloadCt attr (s.ctx c') env.offload_tsc).2 = attr' at hcase hcpu
  have hfilter : Aside (mgr, s) (mgr, { s with attr := attr' }) c := .ctx rfl hcpu
  cases hcase with
  | stay heq =>
    subst heq
    exact hfilter
  | enqueue hst hen heq =>
    subst heq
    exact hfilter.trans enqueueConn_aside
  | install hst hen hnum ret s₁ hadd hret heq =>
    subst heq
    have hq : Aside (mgr, s₁) (qosHandler (mgr, s₁) c') c := qosHandler_aside (w := (mgr, s₁)) hmgr c' c
    exact (hfilter.trans (offloadEntry_aside hmade hadd)).trans (hq.trans (.ctx rfl rfl))
  | fail hst s₁ hadd heq =>
    subst heq
    exact hfilter.trans (offloadEntry_aside hmade hadd)

/-! ### Packets of other connections -/

/-- The timers of other contexts run as before. -/
structure SameAlarm (mgr mgr' : Mgr) (c : CtxId) : Prop where
  startStmp : mgr'.startStmp = mgr.startStmp
  timeout : mgr'.timeout = mgr.timeout
  armed : (alarms mgr').armed c = (alarms mgr).armed c

theorem SameAlarm.aside (h : SameAlarm mgr mgr' c) : Aside (mgr, s) (mgr', s) c :=
  ⟨h.startStmp, h.timeout, .refl s c, .inl h.armed, fun hst => .inl hst⟩

theorem timerReset_sameAlarm (hmgr : MgrInv mgr) (hT : mgr.timeout + 68719476735 < 2 ^ 64) (hne : c ≠ c')
    {timeout : ℕ} {ret : ℤ} (hrun : flowQoSTimerReset mgr c' timeout = .ok (ret, mgr')) :
    SameAlarm mgr mgr' c := by
  unfold flowQoSTimerReset at hrun
  by_cases hcb : (mgr.timers c').cb.isSome
  · by_cases hle : timeout ≤ timerMaxTimeout
    · obtain ⟨links, hspec, -, halarms⟩ := timerReset_spec hmgr.wheel hcb hle hT
      rw [hspec] at hrun
      cases hrun
      refine ⟨rfl, rfl, ?_⟩
      rw [halarms, Alarms.arm_armed, if_neg hne]
    · rw [timerReset_stops hcb (Nat.lt_of_not_le hle)] at hrun
      cases hrun
      refine ⟨rfl, rfl, ?_⟩
      rw [hmgr.wheel.alarms_timerStop, Alarms.disarm_armed, if_neg hne]
  · rw [timerReset_reject (Option.not_isSome_iff_eq_none.1 hcb)] at hrun
    cases hrun
    exact ⟨rfl, rfl, rfl⟩

theorem attachTimer_sameAlarm (hmgr : MgrInv mgr) (hT : mgr.timeout + 68719476735 < 2 ^ 64)
    (hfree : c' ∉ armedSet mgr) (hne : c ≠ c') {e : FlowQoSEntry} (hrun : attachTimer mgr c' e = .ok mgr') :
    SameAlarm mgr mgr' c := by
  unfold attachTimer at hrun
  split at hrun
  · obtain ⟨r, hr, rfl⟩ := map_eq_ok.1 hrun
    unfold flowQoSTimerAdd at hr
    by_cases hle : (e.expireTime * 1000).toNat ≤ timerMaxTimeout
    · obtain ⟨links, hstart, -, halarms⟩ := timerStart_spec hmgr.wheel (some c') hfree
        (Option.isSome_some (a := TimerCallback.flowQoS_conn_expire_sw_cb)) hle (Nat.zero_le _) hT
      rw [hstart] at hr
      cases hr
      refine ⟨rfl, rfl, ?_⟩
      rw [halarms, Alarms.arm_armed, if_neg hne]
    · rw [timerStart_reject (.inr (Nat.lt_of_not_le hle))] at hr
      cases hr
      exact ⟨rfl, rfl, rfl⟩
  · cases hrun
    exact ⟨rfl, rfl, rfl⟩

theorem flushTimer_aside (hmgr : MgrInv w.1) (hT : w.1.timeout + 68719476735 < 2 ^ 64) (hne : c ≠ c')
    (hrun : flushTimer w c' env = .ok w') : Aside w w' c := by
  obtain ⟨mgr, s⟩ := w
  obtain ⟨-, ⟨ret, mgr'⟩, hreset, rfl⟩ | rfl := flushTimer_cases hrun
  · refine (timerReset_sameAlarm hmgr hT hne hreset).aside.trans (.core ?_ fun hst => ?_)
    · exact sameTerms_setCtx fun heq => absurd heq.symm hne
    · rwa [show (s.setCtx c' _).ctx c = s.ctx c from Function.update_of_ne hne _ _] at hst
  · exact .refl _ c

/-- A packet is counted before it may offload its connection. -/
theorem pktCount_aside {n : UInt64} :
    Aside (mgr, s) (mgr, s.setCtx c' { s.ctx c' with pktCount := n }) c := by
  refine .core (sameTerms_setCtx fun heq => ?_) fun hst => ?_
  · subst heq
    exact ⟨rfl, rfl, rfl⟩
  · by_cases heq : c = c'
    · subst heq
      rwa [show (s.setCtx c _).ctx c = _ from Function.update_self _ _ _] at hst
    · rwa [show (s.setCtx c' _).ctx c = s.ctx c from Function.update_of_ne heq _ _] at hst

/-- A packet of a connection, up to the refresh of its timer: any other context is left alone. -/
theorem forward_offload (hok : HandlerOk P w.2.attr) (h : Inv P (view w)) (hmgr : MgrInv w.1)
    (hk : w.2.CT k = some c') {v : Verdict} (hrun : forward m w c' env = .ok (v, w')) :
    ∃ w₁, (∀ c, Aside w w₁ c) ∧ Goes P L w w₁ ∧ w₁.2.CT k = some c' ∧ flushTimer w₁ c' env = .ok w' := by
  obtain ⟨mgr, s⟩ := w
  obtain ⟨w₁, pipe, hoff, -, hflush, -⟩ := forward_cases hrun
  have hgoes : Goes P L (mgr, s) (mgr, s.setCtx c' { s.ctx c' with pktCount := (s.ctx c').pktCount + 1 }) :=
    .still hmgr (still_setCtx rfl rfl)
  have hinv := (hgoes.inv hok h).2
  obtain ⟨hgoes₁, hholds⟩ := offloadConn_goes (L := L) hinv hmgr hk hoff
  refine ⟨w₁, fun c => pktCount_aside.trans (offloadConn_aside hinv hmgr hk hoff), hgoes.trans hgoes₁, ?_,
    hflush⟩
  rw [hholds.CT]
  exact hk

theorem forward_aside (hok : HandlerOk P w.2.attr) (h : Inv P (view w)) (hmgr : MgrInv w.1)
    (hT : w.1.timeout + 68719476735 < 2 ^ 64) (hk : w.2.CT k = some c') (hne : c ≠ c') {v : Verdict}
    (hrun : forward m w c' env = .ok (v, w')) : Aside w w' c := by
  obtain ⟨w₁, haside, hgoes, -, hflush⟩ := forward_offload (L := ⟨True, True⟩) hok h hmgr hk hrun
  refine (haside c).trans (flushTimer_aside hgoes.mgr ?_ hne hflush)
  rw [hgoes.timeout]
  exact hT

/-- A packet that opens another connection, or none. -/
theorem openConn_aside (h : Inv P (view w)) (hmgr : MgrInv w.1) (hT : w.1.timeout + 68719476735 < 2 ^ 64)
    (hc : c ∉ w.2.pool) {e : FlowQoSEntry} {r : Option CtxId} (hrun : openConn P m e env w = .ok (r, w')) :
    Aside w w' c ∧ r ≠ some c := by
  obtain ⟨mgr, s⟩ := w
  rcases openConn_cases hrun with ⟨-, rfl, rfl⟩ |
    ⟨f, ret, e', app, -, -, ⟨-, rfl, rfl⟩ | ⟨-, hadd⟩⟩
  · exact ⟨.refl _ c, fun hr => by cases hr⟩
  · exact ⟨.ctx rfl rfl, fun hr => by cases hr⟩
  · rcases addConnToHash_cases hadd with ⟨rfl, pool, -, rfl, -⟩ | ⟨c', mgr', rfl, hc', hatt, rfl⟩
    · exact ⟨.ctx rfl rfl, fun hr => by cases hr⟩
    · have hne : c ≠ c' := fun heq => hc (heq ▸ hc')
      have hfree : c' ∉ armedSet mgr := fun ha => (h.table.armed ha).2 hc'
      refine ⟨(attachTimer_sameAlarm hmgr hT hfree hne hatt).aside.trans ?_, fun hr => ?_⟩
      · have hctx : ((s.accept m.port e.match_ app).insert c' e' ⟨s.accepted, m.port⟩ env.start_tsc).ctx c =
          s.ctx c := Function.update_of_ne hne _ _
        refine .core ⟨rfl, ?_, ?_, ?_⟩ ?_
        all_goals rw [hctx]
        exact id
      · cases hr
        exact hne rfl

/-- A packet that does not belong to the context, and cannot open it. -/
theorem packet_aside (h : WorldInv P w) (hT : w.1.timeout + 68719476735 < 2 ^ 64) (hpool : c ∉ w.2.pool)
    (hother : ∀ e, w.2.attr.PORT_CT_ENABLED m.port → packetParser w.2.attr m = some e →
      w.2.CT e.match_ ≠ some c) {v : Verdict} (hrun : conntrackPacketProcessor P m env w = .ok (v, w')) :
    Aside w w' c := by
  rcases packet_cases hrun with ⟨-, -, rfl⟩ | ⟨e, hen, hparse, hrest⟩
  · exact .refl _ c
  rcases hrest with ⟨c', hk', hfwd⟩ | ⟨habs, r, w₁, hopen, hrest⟩
  · exact forward_aside h.ok h.inv h.mgr hT hk' (fun heq => hother e hen hparse (heq ▸ hk')) hfwd
  · obtain ⟨haside, hne⟩ := openConn_aside h.inv h.mgr hT hpool hopen
    rcases hrest with ⟨-, -, -, rfl⟩ | ⟨c', rfl, hfwd⟩
    · exact haside
    · obtain ⟨hgoes, hnew⟩ := openConn_goes (L := ⟨True, True⟩) h.ok h.inv h.mgr hT (fun _ => trivial) hen
        hparse habs hopen
      obtain ⟨hok₁, hinv₁⟩ := hgoes.inv h.ok h.inv
      refine haside.trans (forward_aside hok₁ hinv₁ hgoes.mgr ?_ (hnew c' rfl).1 (fun heq => hne ?_) hfwd)
      · rw [hgoes.timeout]
        exact hT
      · rw [heq]

/-! ### Rounds of the scheduler -/

theorem filterCongestionCb_CPU_HZ (attr : ConnAttr) : (filterCongestionCb attr).CPU_HZ = attr.CPU_HZ := by
  unfold filterCongestionCb
  split <;> rfl

theorem congestion_frame (s : Core σ) :
    (congestion s).ctx = s.ctx ∧ (congestion s).attr.CPU_HZ = s.attr.CPU_HZ := by
  unfold congestion
  simp only
  split
  · split
    · exact ⟨rfl, filterCongestionCb_CPU_HZ _⟩
    · exact ⟨rfl, rfl⟩
  · split
    · exact ⟨rfl, filterCongestionCb_CPU_HZ _⟩
    · exact ⟨rfl, rfl⟩

theorem delEntryEvent_frame (h : delEntryEvent s c' = .ok s') : s'.ctx = s.ctx ∧ s'.attr = s.attr := by
  unfold delEntryEvent at h
  simp only at h
  split at h
  · cases h
    exact ⟨rfl, rfl⟩
  · cases h

/-- A turn of the scheduler. -/
theorem schedule_aside (hmgr : MgrInv w.1) {attr : ConnAttr} {p i : ℕ}
    (hmade : Made attr p (w.2.ctx c').entry) {o : Outcome} {ret : ℤ} {s₁ : Core σ}
    (hadd : offloadEntry w.2 c' o = .ok (ret, s₁)) {arg : CtxId}
    (hdel : delEntryEvent (congestion (spendEntry (qosHandler (w.1, s₁) arg).2 i)) c' = .ok s') :
    Aside w ((qosHandler (w.1, s₁) arg).1, s') c := by
  obtain ⟨hctx, hattr⟩ := delEntryEvent_frame hdel
  obtain ⟨hctx', hcpu⟩ := congestion_frame (spendEntry (qosHandler (w.1, s₁) arg).2 i)
  have hq : Aside (w.1, s₁) (qosHandler (w.1, s₁) arg) c := qosHandler_aside (w := (w.1, s₁)) hmgr arg c
  refine (offloadEntry_aside hmade hadd).trans (hq.trans (.ctx (hctx.trans hctx') ?_))
  rw [hattr]
  exact hcpu

theorem qosLoop_aside {i : ℕ} {outcome : CtxId → Outcome} : ∀ (rest : List CtxId) (weight res : ℤ)
    (w : World σ) {r : ℤ × Bool × World σ}, HandlerOk P w.2.attr → Inv P (view w) → MgrInv w.1 →
    w.2.qos.buckets i = rest → qosLoop i outcome rest weight res w = .ok r → Aside w r.2.2 c
  | [], _, _, w, _, _, _, _, _, hrun => by
    cases hrun
    exact .refl w c
  | c' :: rest, weight, res, w, r, hok, h, hmgr, hb, hrun => by
    have hmem : c' ∈ w.2.qos.buckets i := by
      rw [hb]
      exact List.mem_cons_self
    have hmade := h.table.made (h.queue.mem.1 hmem).1
    obtain ⟨-, rfl⟩ | ⟨hgo, ret, s₁, hadd, hcase⟩ := qosLoop_cons_ok hrun
    · exact .refl w c
    obtain ⟨-, rfl⟩ | ⟨hpos, arg, s', harg, hdel, hrest⟩ := hcase
    · exact offloadEntry_aside hmade hadd
    · obtain rfl : ret = 1 := by
        rcases (offloadEntry_frame hadd).1 with h0 | h1
        · omega
        · exact h1
      obtain ⟨hgoes, hb'⟩ := schedule_goes (L := ⟨True, True⟩) h hmgr hb (by omega) hadd harg hdel
      obtain ⟨hok', h'⟩ := hgoes.inv hok h
      exact (schedule_aside hmgr hmade hadd hdel).trans
        (qosLoop_aside rest _ _ _ hok' h' hgoes.mgr hb' hrest)

theorem qosQueues_aside {outcome : CtxId → Outcome} : ∀ (is : List ℕ) (res : ℤ) (w : World σ)
    {r : ℤ × Bool × World σ}, HandlerOk P w.2.attr → Inv P (view w) → MgrInv w.1 →
    qosQueues outcome is res w = .ok r → Aside w r.2.2 c
  | [], _, w, _, _, _, _, hrun => by
    cases hrun
    exact .refl w c
  | i :: is, res, w, r, hok, h, hmgr, hrun => by
    unfold qosQueues at hrun
    obtain ⟨⟨res', goes, w₁⟩, hloop, hrun⟩ := bind_eq_ok.1 hrun
    have haside : Aside w w₁ c := qosLoop_aside _ _ _ _ hok h hmgr rfl hloop
    simp only at hrun
    split at hrun
    · have hgoes : Goes P ⟨True, True⟩ w w₁ := qosLoop_goes _ _ _ _ hok h hmgr rfl hloop
      obtain ⟨hok', h'⟩ := hgoes.inv hok h
      exact haside.trans (qosQueues_aside is _ _ hok' h' hgoes.mgr hrun)
    · cases hrun
      exact haside

theorem doEntryEvent_aside (h : WorldInv P w) {cur : UInt64} {outcome : CtxId → Outcome} {r : ℤ × World σ}
    (hrun : doEntryEvent cur outcome w = .ok r) : Aside w r.2 c := by
  unfold doEntryEvent at hrun
  split at hrun
  · obtain ⟨⟨res, goes, w₁⟩, hqs, hrun⟩ := bind_eq_ok.1 hrun
    have haside : Aside w w₁ c := qosQueues_aside _ _ _ h.ok h.inv h.mgr hqs
    simp only at hrun
    split at hrun
    · cases hrun
      exact haside.trans (.ctx rfl rfl)
    · cases hrun
      exact haside
  · cases hrun
    exact .refl w c

/-! ### Aging polls -/

/-- A poll of the hardware writes no context. -/
theorem agedStep_frame {aged : HwEntry × Bool} (h : agedStep P s aged = .ok s') :
    s'.ctx = s.ctx ∧ s'.attr = s.attr := by
  obtain ⟨c', -, ⟨-, rfl⟩ | ⟨hw, -, hcase⟩⟩ := agedStep_ok h
  · exact ⟨rfl, rfl⟩
  · obtain ⟨-, rfl⟩ | ⟨-, arg, -, hexp⟩ := hcase
    · exact ⟨rfl, rfl⟩
    · obtain ⟨hrel, -⟩ := connExpireHw_ok hexp
      exact ⟨hrel.ctx, hrel.attr⟩

theorem connAgingHandle_frame {reports : ℕ → List (Handle × Bool)}
    (hrun : connAgingHandle P reports s = .ok s') : s'.ctx = s.ctx ∧ s'.attr = s.attr := by
  unfold connAgingHandle at hrun
  refine foldlM_inv (P := fun _ t => t.ctx = s.ctx ∧ t.attr = s.attr) ?_ ⟨rfl, rfl⟩ hrun
  intro i _ t t' ht hstep
  unfold agingHandle at hstep
  refine foldlM_inv (P := fun _ t => t.ctx = s.ctx ∧ t.attr = s.attr) ?_ ?_ hstep
  · intro a _ u u' hu hu'
    obtain ⟨h1, h2⟩ := agedStep_frame hu'
    exact ⟨h1.trans hu.1, h2.trans hu.2⟩
  · exact ht

/-! ### Events -/

/-- The event is not a tick, and not a packet of the context's connection or one that opens it. -/
def Elsewhere (w : World σ) (c : CtxId) : Event σ ε → Prop
  | .packet m _ => c ∉ w.2.pool ∧ ∀ e, w.2.attr.PORT_CT_ENABLED m.port →
      packetParser w.2.attr m = some e → w.2.CT e.match_ ≠ some c
  | .tick _ => False
  | _ => True

/-- **An event elsewhere** leaves the timer of the context alone. -/
theorem step_aside (h : WorldInv P w) (hT : w.1.timeout + 68719476735 < 2 ^ 64) {e : Event σ ε}
    (he : Elsewhere w c e) (hrun : step P w e = .ok w') : Aside w w' c := by
  cases e with
  | packet m env =>
    obtain ⟨⟨v, w₁⟩, hp, rfl⟩ := map_eq_ok.1 hrun
    exact packet_aside h hT he.1 he.2 hp
  | tick rdtsc => exact he.elim
  | qos rdtsc outcome =>
    simp only [step] at hrun
    split at hrun
    · obtain ⟨r, hq, rfl⟩ := map_eq_ok.1 hrun
      exact doEntryEvent_aside h hq
    · cases hrun
      exact .refl w c
  | aging reports =>
    obtain ⟨s', haging, rfl⟩ := map_eq_ok.1 hrun
    obtain ⟨hctx, hattr⟩ := connAgingHandle_frame haging
    exact .ctx hctx (by rw [hattr])
  | app app =>
    cases hrun
    exact .ctx rfl rfl

/-! ### Ticks -/

/-- A tick writes no context. -/
theorem fires_frame {due : List (Mgr × CtxId)} (h : due.foldlM (fire (fired P)) s = .ok s') :
    s'.ctx = s.ctx ∧ s'.attr = s.attr := by
  refine foldlM_inv (P := fun _ t => t.ctx = s.ctx ∧ t.attr = s.attr) ?_ ⟨rfl, rfl⟩ h
  intro x _ t t' ht hfire
  unfold fire fired at hfire
  split at hfire
  · cases hfire
  · split at hfire
    · cases hfire
    · obtain ⟨hrel, -⟩ := connExpireSw_ok hfire
      exact ⟨hrel.ctx.trans ht.1, hrel.attr.trans ht.2⟩

/-- The loops of a tick are long enough. -/
theorem armed_range (h : WorldInv P w) : (∀ t, Armed w.1 t → t ∈ Finset.range P.maxConntrack) ∧
    (Finset.range P.maxConntrack).card < P.maxConntrack + 1 := by
  refine ⟨fun t ht => Finset.mem_range.2 (h.inv.table.armed ht).1, ?_⟩
  rw [Finset.card_range]
  exact Nat.lt_succ_self _

/-- What a tick changes, where the timestamp is past the wheel's clock, and what it leaves alone. -/
theorem tick_frame (h : WorldInv P w) (hT : w.1.timeout + 68719476735 < 2 ^ 64) {rdtsc : ℕ}
    (hrun : step P w (.tick rdtsc) = .ok w') :
    w'.1.startStmp = w.1.startStmp ∧ w'.2.ctx = w.2.ctx ∧ w'.2.attr = w.2.attr ∧
      (alarms w'.1 = alarms w.1 ∨
        (w.1.startStmp + w.1.timeout * P.GAP) % 2 ^ 64 < rdtsc ∧ alarms w'.1 = (alarms w.1).advance) := by
  obtain ⟨mgr, s⟩ := w
  obtain ⟨⟨n, w₁⟩, htick, rfl⟩ := map_eq_ok.1 hrun
  unfold flowQoSTimerTick at htick
  split at htick
  · next hdue =>
    obtain ⟨hS, hfuel⟩ := armed_range h
    obtain ⟨mgr', due, hspec, -, -, -, -, halarms, hstamp, -⟩ := timerTick_spec
      (inert_timerCallback (P := P)) h.mgr.wheel hT hS hfuel
    rw [hspec] at htick
    obtain ⟨s', hfold, heq⟩ := map_eq_ok.1 htick
    cases heq
    obtain ⟨hctx, hattr⟩ := fires_frame hfold
    exact ⟨hstamp, hctx, hattr, .inr ⟨hdue, halarms⟩⟩
  · cases htick
    exact ⟨rfl, rfl, rfl, .inl rfl⟩

/-- The tick calls the callback of the timer. -/
def TimerFires (P : Params σ ε) (w : World σ) (rdtsc : ℕ) (timer : CtxId) : Prop :=
  ∃ n mgr s l, flowQoSTimerTick (noted (timerCallback P)) (P.maxConntrack + 1) P.GAP rdtsc (w.1, w.2, []) =
    .ok (n, mgr, s, l) ∧ timer ∈ l

/-- **A timer that fires is due**, and the timestamp is past the wheel's clock. -/
theorem TimerFires.due (h : WorldInv P w) (hT : w.1.timeout + 68719476735 < 2 ^ 64) {rdtsc : ℕ}
    (hf : TimerFires P w rdtsc c) :
    (w.1.startStmp + w.1.timeout * P.GAP) % 2 ^ 64 < rdtsc ∧ (alarms w.1).Due c := by
  obtain ⟨mgr, s⟩ := w
  obtain ⟨n, mgr₁, s₁, l, htick, hmem⟩ := hf
  have hinert : Inert (noted (timerCallback P)) fun cb t m (x : Core σ × List CtxId) =>
      (fired P cb t m x.1).map fun s => (s, x.2 ++ [t]) := by
    intro cb t m x
    simp only [noted, inert_timerCallback cb t m x.1]
    cases fired P cb t m x.1 <;> rfl
  unfold flowQoSTimerTick at htick
  split at htick
  · next hdue =>
    obtain ⟨hS, hfuel⟩ := armed_range h
    obtain ⟨mgr', due, hspec, -, hmem', -⟩ := timerTick_spec hinert h.mgr.wheel hT hS hfuel
    rw [hspec] at htick
    obtain ⟨⟨s', l'⟩, hfold, heq⟩ := map_eq_ok.1 htick
    cases heq
    -- the list of the fired timers grows by the timers that are due, in their order
    have hl : l ++ ([] : List (Mgr × CtxId)).map Prod.snd = due.map Prod.snd := by
      refine foldlM_inv (P := fun left (x : Core σ × List CtxId) =>
        x.2 ++ left.map Prod.snd = due.map Prod.snd) ?_ rfl hfold
      intro x left t t' ht hfire
      unfold fire at hfire
      split at hfire
      · cases hfire
      · obtain ⟨u, -, rfl⟩ := map_eq_ok.1 hfire
        simpa using ht
    rw [List.map_nil, List.append_nil] at hl
    exact ⟨hdue, (hmem' c).1 (hl ▸ hmem)⟩
  · cases htick
    exact absurd hmem List.not_mem_nil

end FlowQoS.Conntrack
