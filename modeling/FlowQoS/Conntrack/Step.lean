import FlowQoS.Conntrack.Stable
import FlowQoS.Lib.Trace

/-!
# Every event of a core is a sequence of moves

The armed timers of a manager are kept next to what the moves need of it (`MgrInv`): the callback of
every timer is given its own context, and no timer repeats. Then a packet, a tick, a round of the
scheduler and an aging poll are moves, and the invariant holds in every state that a core reaches.

* `step_goes`: an event is a sequence of moves;
* `run_inv`: the invariant of every run.
-/

set_option linter.unusedSectionVars false

namespace FlowQoS.Conntrack

open Lib Pipe Timer

variable {σ ε : Type} {P : Params σ ε} {L : Allowed} {w w' w'' : World σ} {mgr mgr' : Mgr} {s s' : Core σ}
  {c c' : CtxId} {k : FlowQoSMatch} {m : Mbuf} {env : PacketEnv ε}

/-! ### The armed timers -/

/-- The armed timers of a manager. -/
def armedSet (mgr : Mgr) : Set CtxId := {t | Armed mgr t}

/-- A core as the moves see it. -/
def view (w : World σ) : Set CtxId × Core σ := (armedSet w.1, w.2)

/-- The callbacks of the timers get their own contexts, and no timer repeats. -/
structure MgrInv (mgr : Mgr) : Prop where
  wheel : WheelInv mgr
  args : ∀ t, (mgr.timers t).cb.isSome → (mgr.timers t).cb_args = some t
  once : ∀ {t d p}, (alarms mgr).armed t = some (d, p) → p = 0

theorem mem_armedSet {t : CtxId} : t ∈ armedSet mgr ↔ ((alarms mgr).armed t).isSome := by
  rw [isSome_alarms_armed]
  rfl

theorem mgrInv_init (rdtsc : ℕ) : MgrInv (flowQoSTimerMgrInit rdtsc) := by
  have hnot : ∀ t, ¬ Armed (flowQoSTimerMgrInit rdtsc : Mgr) t := by
    intro t ht
    obtain ⟨b, hb⟩ := (wheelOk_init rdtsc).armed_iff.1 ht
    cases hb
  refine ⟨⟨_, wheelOk_init rdtsc⟩, fun t ht => (by cases ht), fun {t d p} h => ?_⟩
  rw [alarms_armed_of_not (hnot t)] at h
  cases h

theorem armedSet_init (rdtsc : ℕ) : armedSet (flowQoSTimerMgrInit rdtsc) = ∅ := by
  rw [Set.eq_empty_iff_forall_notMem]
  intro t ht
  obtain ⟨b, hb⟩ := (wheelOk_init rdtsc).armed_iff.1 ht
  cases hb

theorem MgrInv.del (h : MgrInv mgr) (c : CtxId) :
    MgrInv (timerStop mgr c) ∧ armedSet (timerStop mgr c) = armedSet mgr \ {c} := by
  have halarms := h.wheel.alarms_timerStop c
  refine ⟨⟨h.wheel.timerStop c, h.args, fun {t d p} ht => ?_⟩, ?_⟩
  · rw [halarms, Alarms.disarm_armed] at ht
    split at ht
    · cases ht
    · exact h.once ht
  · ext t
    rw [mem_armedSet, halarms, Alarms.disarm_armed, Set.mem_sdiff, Set.mem_singleton_iff, mem_armedSet]
    split <;> simp_all

/-- A context's own one-shot timer is started. -/
theorem MgrInv.started (h : MgrInv mgr) {cb : Option TimerCallback} {timeout d : ℕ}
    {links : Links (ℕ × ℕ) CtxId} (hw : WheelInv (started mgr c cb (some c) timeout 0 links))
    (halarms : alarms (Timer.started mgr c cb (some c) timeout 0 links) = (alarms mgr).arm c d 0) :
    MgrInv (Timer.started mgr c cb (some c) timeout 0 links) ∧
      armedSet (Timer.started mgr c cb (some c) timeout 0 links) = insert c (armedSet mgr) := by
  refine ⟨⟨hw, fun t ht => ?_, fun {t d' p} ht => ?_⟩, ?_⟩
  · by_cases heq : t = c
    · rw [heq, started_timers_self]
    · rw [started_timers_of_ne heq] at ht ⊢
      exact h.args t ht
  · rw [halarms, Alarms.arm_armed] at ht
    split at ht
    · cases ht
      rfl
    · exact h.once ht
  · ext t
    rw [mem_armedSet, halarms, Alarms.arm_armed, Set.mem_insert_iff, mem_armedSet]
    split <;> simp_all

/-- The timer of a new context. -/
theorem MgrInv.attachTimer (h : MgrInv mgr) (hT : mgr.timeout + 68719476735 < 2 ^ 64)
    (hfree : c ∉ armedSet mgr) {x : ConnContext} (hrun : attachTimer mgr c x.entry = .ok mgr') :
    MgrInv mgr' ∧ mgr'.timeout = mgr.timeout ∧
      (armedSet mgr' = armedSet mgr ∧ ¬ Attached x ∨
        armedSet mgr' = insert c (armedSet mgr) ∧ Attached x) := by
  unfold Conntrack.attachTimer at hrun
  split at hrun
  · next hflags =>
    rw [xor_ne_zero] at hflags
    obtain ⟨r, hr, rfl⟩ := map_eq_ok.1 hrun
    by_cases hle : (x.entry.expireTime * 1000).toNat ≤ timerMaxTimeout
    · obtain ⟨links, hstart, hwheel, halarms⟩ := timerStart_spec h.wheel (some c) hfree
        (Option.isSome_some (a := TimerCallback.flowQoS_conn_expire_sw_cb)) hle (Nat.zero_le _) hT
      rw [flowQoSTimerAdd, hstart] at hr
      cases hr
      obtain ⟨hinv, harmed⟩ := h.started hwheel halarms
      exact ⟨hinv, rfl, .inr ⟨harmed, hflags, hle⟩⟩
    · rw [flowQoSTimerAdd, timerStart_reject (.inr (Nat.lt_of_not_le hle))] at hr
      cases hr
      exact ⟨h, rfl, .inl ⟨rfl, fun hc => hle hc.2⟩⟩
  · next hflags =>
    cases hrun
    exact ⟨h, rfl, .inl ⟨rfl, fun hc => hflags (xor_ne_zero.2 hc.1)⟩⟩

/-- A timer is started again: where its time is too long for the wheel, it is off. -/
theorem MgrInv.reset (h : MgrInv mgr) (hT : mgr.timeout + 68719476735 < 2 ^ 64) {timeout : ℕ} {ret : ℤ}
    (hrun : flowQoSTimerReset mgr c timeout = .ok (ret, mgr')) :
    MgrInv mgr' ∧ mgr'.timeout = mgr.timeout ∧ (armedSet mgr' = armedSet mgr ∨
      armedSet mgr' = insert c (armedSet mgr) ∨
      armedSet mgr' = armedSet mgr \ {c} ∧ timerMaxTimeout < timeout) := by
  cases hcb : (mgr.timers c).cb with
  | none =>
    rw [flowQoSTimerReset, timerReset_reject hcb] at hrun
    cases hrun
    exact ⟨h, rfl, .inl rfl⟩
  | some cb =>
    have hsome : (mgr.timers c).cb.isSome := by rw [hcb]; rfl
    by_cases hle : timeout ≤ timerMaxTimeout
    · obtain ⟨links, hstart, hwheel, halarms⟩ := timerReset_spec h.wheel hsome hle hT
      rw [flowQoSTimerReset, hstart] at hrun
      cases hrun
      rw [h.args c hsome] at hwheel halarms ⊢
      obtain ⟨hinv, harmed⟩ := h.started hwheel halarms
      exact ⟨hinv, rfl, .inr (.inl harmed)⟩
    · obtain ⟨hinv, harmed⟩ := h.del c
      unfold flowQoSTimerReset timerReset at hrun
      simp only [hcb, Option.isNone_some, Bool.false_eq_true, if_false,
        timerStart_reject (.inr (Nat.lt_of_not_le hle)), Except.map] at hrun
      cases hrun
      exact ⟨hinv, rfl, .inr (.inr ⟨harmed, Nat.lt_of_not_le hle⟩)⟩

/-! ### Sequences of moves -/

/-- The core goes on by moves, within a tick. -/
structure Goes (P : Params σ ε) (L : Allowed) (w w' : World σ) : Prop where
  moves : Moves P L (view w) (view w')
  mgr : MgrInv w'.1
  timeout : w'.1.timeout = w.1.timeout

theorem Goes.trans (h : Goes P L w w') (h' : Goes P L w' w'') : Goes P L w w'' :=
  ⟨h.moves.trans h'.moves, h'.mgr, h'.timeout.trans h.timeout⟩

/-- A move that leaves the timers alone. -/
theorem Goes.single (hmgr : MgrInv mgr) (h : Move P L (armedSet mgr, s) (armedSet mgr, s')) :
    Goes P L (mgr, s) (mgr, s') :=
  ⟨.single h, hmgr, rfl⟩

theorem Goes.still (hmgr : MgrInv mgr) (h : Still s s') : Goes P L (mgr, s) (mgr, s') :=
  .single hmgr (.still h)

theorem Goes.inv (h : Goes P L w w') (hok : HandlerOk P w.2.attr) (hinv : Inv P (view w)) :
    HandlerOk P w'.2.attr ∧ Inv P (view w') :=
  ⟨hok.congr (Moves.sameConfig h.moves), inv_moves hok hinv h.moves⟩

theorem still_attr {attr : ConnAttr} (h : SameConfig s.attr attr) : Still s { s with attr := attr } :=
  ⟨h, rfl, rfl, rfl, rfl, fun _ => ⟨rfl, rfl⟩, rfl, rfl, rfl, rfl, rfl, rfl, rfl⟩

/-- A context's counter or time stamp changes. -/
theorem still_setCtx {x : ConnContext} (he : x.entry = (s.ctx c).entry)
    (hst : x.ct_state = (s.ctx c).ct_state) : Still s (s.setCtx c x) := by
  refine ⟨SameConfig.refl _, rfl, rfl, rfl, rfl, fun c' => ?_, rfl, rfl, rfl, rfl, rfl, rfl, rfl⟩
  have hctx : (s.setCtx c x).ctx = Function.update s.ctx c x := rfl
  by_cases heq : c' = c
  · subst heq
    rw [hctx, Function.update_self]
    exact ⟨he, hst⟩
  · rw [hctx, Function.update_of_ne heq]
    exact ⟨rfl, rfl⟩

/-! ### Packets -/

theorem filterRuntimeTune_same {attr attr' : ConnAttr} {now : UInt64}
    (h : filterRuntimeTune attr now = .ok attr') : SameConfig attr attr' := by
  unfold filterRuntimeTune at h
  simp only at h
  split_ifs at h
  all_goals cases h; exact ⟨rfl, rfl, rfl, rfl, rfl, rfl, rfl, rfl⟩

theorem shouldOffloadCt_same (attr : ConnAttr) (x : ConnContext) (now : UInt64) :
    SameConfig attr (shouldOffloadCt attr x now).2 ∧
      ((shouldOffloadCt attr x now).1 → x.ct_state = .SW_FWD_STATE) := by
  unfold shouldOffloadCt
  simp only
  refine ⟨?_, fun h => ?_⟩
  · split
    · exact ⟨rfl, rfl, rfl, rfl, rfl, rfl, rfl, rfl⟩
    · exact SameConfig.refl _
  · simp only [Bool.and_eq_true, beq_iff_eq] at h
    exact h.1.1

/-- What `flowQoS_offload_conn` does once the filter has the given attributes: nothing, or it hands the context
to the scheduler, or it asks for a hardware entry. -/
inductive OffloadCase (w : World σ) (c : CtxId) (env : PacketEnv ε) (attr : ConnAttr) (w' : World σ) : Prop
  | stay (h : w' = (w.1, { w.2 with attr := attr }))
  | enqueue (hst : (w.2.ctx c).ct_state = .SW_FWD_STATE) (hen : attr.ENABLE_FLOWQOS)
      (h : w' = (w.1, enqueueConn { w.2 with attr := attr } c))
  | install (hst : (w.2.ctx c).ct_state = .SW_FWD_STATE) (hen : ¬ attr.ENABLE_FLOWQOS) (hnum : w.2.CT_NUM ≠ 0)
      (ret : ℤ) (s₁ : Core σ) (hadd : offloadEntry { w.2 with attr := attr } c env.outcome = .ok (ret, s₁))
      (hret : ret ≠ 0)
      (h : w' = ((qosHandler (w.1, s₁) c).1,
        { (qosHandler (w.1, s₁) c).2 with CT_NUM := (qosHandler (w.1, s₁) c).2.CT_NUM - 1 }))
  | fail (hst : (w.2.ctx c).ct_state = .SW_FWD_STATE) (s₁ : Core σ)
      (hadd : offloadEntry { w.2 with attr := attr } c env.outcome = .ok (0, s₁)) (h : w' = (w.1, s₁))

theorem offloadConn_cases (h : offloadConn w c env = .ok w') :
    ∃ attr, filterRuntimeTune w.2.attr env.tune_tsc = .ok attr ∧
      OffloadCase w c env (shouldOffloadCt attr (w.2.ctx c) env.offload_tsc).2 w' := by
  unfold offloadConn at h
  obtain ⟨attr, hattr, h⟩ := bind_eq_ok.1 h
  refine ⟨attr, hattr, ?_⟩
  have hready := (shouldOffloadCt_same attr (w.2.ctx c) env.offload_tsc).2
  generalize shouldOffloadCt attr (w.2.ctx c) env.offload_tsc = r at h hready
  obtain ⟨ready, attr'⟩ := r
  simp only at h hready
  split at h
  · next hr =>
    split at h
    · next hen =>
      cases h
      exact .enqueue (hready hr) hen rfl
    · next hen =>
      split at h
      · cases h
        exact .stay rfl
      · next hnum =>
        obtain ⟨⟨ret, s₁⟩, hadd, h⟩ := bind_eq_ok.1 h
        simp only at h
        split at h
        · next hret =>
          cases h
          exact .install (hready hr) hen hnum ret s₁ hadd hret rfl
        · next hret =>
          cases h
          obtain rfl : ret = 0 := not_not.1 hret
          exact .fail (hready hr) s₁ hadd rfl
  · cases h
    exact .stay rfl

/-- A packet starts the timer of its context again, or leaves it. -/
theorem flushTimer_cases (h : flushTimer w c env = .ok w') :
    ((w.2.ctx c).ct_state ≠ .HW_FWD_STATE ∧ ∃ r,
      flowQoSTimerReset w.1 c ((w.2.ctx c).entry.expireTime * 1000).toNat = .ok r ∧
      w' = (r.2, w.2.setCtx c { w.2.ctx c with lastResetTimerStmp := env.reset_tsc })) ∨ w' = w := by
  unfold flushTimer at h
  simp only at h
  split at h
  · next hcond =>
    obtain ⟨r, hreset, rfl⟩ := map_eq_ok.1 h
    exact .inl ⟨hcond.2.2, r, hreset, rfl⟩
  · cases h
    exact .inr rfl

/-- A packet of a connection in the table is counted, may offload the connection, starts the timer again, and
leaves with the header changes of its context by the other port of the pipe. -/
theorem forward_cases {v : Verdict} (h : forward m w c env = .ok (v, w')) :
    ∃ w₁ pipe,
      offloadConn (w.1, w.2.setCtx c { w.2.ctx c with pktCount := (w.2.ctx c).pktCount + 1 }) c env = .ok w₁ ∧
      (w₁.2.ctx c).entry.pipe = some pipe ∧ flushTimer w₁ c env = .ok w' ∧
      v = { action := (pipe.port_id ^^^ 1 : ℕ), m := rewrite m (w₁.2.ctx c), ctx := some c } := by
  unfold forward at h
  obtain ⟨w₁, hoff, h⟩ := bind_eq_ok.1 h
  simp only at h
  split at h
  · cases h
  · next pipe hpipe =>
    obtain ⟨⟨m', w₂⟩, hmod, h⟩ := bind_eq_ok.1 h
    cases h
    obtain ⟨w₃, hflush, heq⟩ := map_eq_ok.1 hmod
    cases heq
    exact ⟨w₁, pipe, hoff, hpipe, hflush, rfl⟩

/-- The context that a packet belongs to stays in the table as it is, whatever is done to it. -/
structure Holds (s s' : Core σ) (c : CtxId) : Prop where
  CT : s'.CT = s.CT
  conns : s'.conns = s.conns
  entry : SameEntry (s.ctx c).entry (s'.ctx c).entry

theorem Holds.trans {s'' : Core σ} (h : Holds s s' c) (h' : Holds s' s'' c) : Holds s s'' c :=
  ⟨h'.CT.trans h.CT, h'.conns.trans h.conns, h'.entry.1.trans h.entry.1, h'.entry.2.1.trans h.entry.2.1,
    h'.entry.2.2.trans h.entry.2.2⟩

theorem Still.holds (h : Still s s') : Holds s s' c := by
  refine ⟨h.CT, h.conns, ?_⟩
  rw [(h.ctx c).1]
  exact SameEntry.refl _

theorem armedSet_qosHandler (hmgr : MgrInv mgr) :
    MgrInv (qosHandler (mgr, s) c).1 ∧ armedSet (qosHandler (mgr, s) c).1 = disarm (armedSet mgr) s c ∧
      (qosHandler (mgr, s) c).1.timeout = mgr.timeout := by
  by_cases hf : (s.ctx c).entry.action.flags ^^^ AGING ≠ 0
  · obtain ⟨hinv, harmed⟩ := hmgr.del c
    have hq : (qosHandler (mgr, s) c).1 = timerStop mgr c := if_pos hf
    rw [hq, harmed]
    rw [xor_ne_zero] at hf
    refine ⟨hinv, ?_, rfl⟩
    ext t
    simp [disarm, hf]
  · have hq : (qosHandler (mgr, s) c).1 = mgr := if_neg hf
    rw [hq]
    rw [xor_ne_zero] at hf
    refine ⟨hmgr, ?_, rfl⟩
    ext t
    simp [disarm, hf]

theorem offloadConn_goes (h : Inv P (view w)) (hmgr : MgrInv w.1) (hk : w.2.CT k = some c)
    (hrun : offloadConn w c env = .ok w') : Goes P L w w' ∧ Holds w.2 w'.2 c := by
  obtain ⟨mgr, s⟩ := w
  obtain ⟨attr, hattr, hcase⟩ := offloadConn_cases hrun
  have hmade : Made s.attr (s.conns c).port (s.ctx c).entry := h.table.made (h.table.table hk).1
  have hsame := (shouldOffloadCt_same attr (s.ctx c) env.offload_tsc).1
  generalize (shouldOffloadCt attr (s.ctx c) env.offload_tsc).2 = attr' at hcase hsame
  have hstill : Still s { s with attr := attr' } := still_attr ((filterRuntimeTune_same hattr).trans hsame)
  have hgoes : Goes P L (mgr, s) (mgr, { s with attr := attr' }) := .still hmgr hstill
  have hadded : ∀ {ret : ℤ} {s₁ : Core σ},
      offloadEntry { s with attr := attr' } c env.outcome = .ok (ret, s₁) → Holds s s₁ c := fun hadd => by
    obtain ⟨pipe, -, -, rfl⟩ := Made.offloadEntry (s := { s with attr := attr' }) hmade hadd
    exact ⟨rfl, rfl, (setEntry_same { s with attr := attr' } c _ _ c).1⟩
  cases hcase with
  | stay heq =>
    subst heq
    exact ⟨hgoes, hstill.holds⟩
  | enqueue hst hen heq =>
    subst heq
    refine ⟨hgoes.trans (.single hmgr (.enqueue hk hst hen)), rfl, rfl, ?_⟩
    rw [enqueueConn_ctx, Function.update_self]
    exact ⟨rfl, rfl, rfl⟩
  | install hst hen hnum ret s₁ hadd hret heq =>
    subst heq
    obtain rfl : ret = 1 := (offloadEntry_frame hadd).1.resolve_left hret
    have hholds := hadded hadd
    obtain ⟨hmgr', harmed, hT⟩ := armedSet_qosHandler (s := s₁) (c := c) hmgr
    refine ⟨hgoes.trans ⟨.single ?_, hmgr', hT⟩, hholds.CT, hholds.conns, ?_⟩
    · simp only [view]
      rw [harmed]
      exact .install (k := k) hk hst (by simpa using hen) hnum hadd
    · simp only [qosHandler, Core.toHw, Core.setCtx, Function.update_self]
      exact hholds.entry
  | fail hst s₁ hadd heq =>
    subst heq
    have hsw : (s.ctx c).ct_state = .SW_FWD_STATE := hst
    refine ⟨hgoes.trans (.single hmgr (.addFail (.inl ⟨k, hk⟩) ?_ hadd)), hadded hadd⟩
    simp [hsw]

theorem flushTimer_goes (hmgr : MgrInv w.1) (hT : w.1.timeout + 68719476735 < 2 ^ 64)
    (hk : w.2.CT k = some c) (hrun : flushTimer w c env = .ok w') : Goes P L w w' ∧ Holds w.2 w'.2 c := by
  obtain ⟨mgr, s⟩ := w
  obtain ⟨hst, ⟨ret, mgr'⟩, hreset, rfl⟩ | rfl := flushTimer_cases hrun
  · obtain ⟨hmgr', hT', harmed⟩ := hmgr.reset hT hreset
    have hstill : Still s (s.setCtx c { s.ctx c with lastResetTimerStmp := env.reset_tsc }) :=
      still_setCtx rfl rfl
    have hmove : Move P L (armedSet mgr, s) (armedSet mgr', s) := by
      refine .rearm hk hst ?_
      rcases harmed with h | h | h
      · exact .inl h
      · exact .inr (.inl h)
      · exact .inr (.inr h)
    exact ⟨⟨.tail (.single hmove) (.still hstill), hmgr', hT'⟩, hstill.holds⟩
  · exact ⟨⟨.refl, hmgr, rfl⟩, rfl, rfl, SameEntry.refl _⟩

/-- A packet of a connection in the table: it is rewritten with the actions of its context and leaves by
the other port of the context's pipe. -/
theorem forward_goes (hok : HandlerOk P w.2.attr) (h : Inv P (view w)) (hmgr : MgrInv w.1)
    (hT : w.1.timeout + 68719476735 < 2 ^ 64) (hk : w.2.CT k = some c) {v : Verdict}
    (hrun : forward m w c env = .ok (v, w')) : Goes P L w w' ∧ Holds w.2 w'.2 c ∧ v.ctx = some c ∧
      (∃ x : ConnContext, SameEntry (w.2.ctx c).entry x.entry ∧ v.m = rewrite m x) ∧
      ∃ pipe, (w.2.ctx c).entry.pipe = some pipe ∧ v.action = (pipe.port_id ^^^ 1 : ℕ) := by
  obtain ⟨mgr, s⟩ := w
  obtain ⟨w₁, pipe, hoff, hpipe, hflush, rfl⟩ := forward_cases hrun
  have hstill : Still s (s.setCtx c { s.ctx c with pktCount := (s.ctx c).pktCount + 1 }) :=
    still_setCtx rfl rfl
  have hgoes : Goes P L (mgr, s) (mgr, s.setCtx c { s.ctx c with pktCount := (s.ctx c).pktCount + 1 }) :=
    .still hmgr hstill
  obtain ⟨hgoes₁, hholds₁⟩ := offloadConn_goes (hgoes.inv hok h).2 hmgr hk hoff
  have hholds : Holds s w₁.2 c := hstill.holds.trans hholds₁
  have hk₁ : w₁.2.CT k = some c := by rw [hholds.CT]; exact hk
  have hT₁ : w₁.1.timeout + 68719476735 < 2 ^ 64 := by
    rw [(hgoes.trans hgoes₁).timeout]
    exact hT
  obtain ⟨hgoes₂, hholds₂⟩ := flushTimer_goes hgoes₁.mgr hT₁ hk₁ hflush
  refine ⟨(hgoes.trans hgoes₁).trans hgoes₂, hholds.trans hholds₂, rfl, ⟨_, hholds.entry, rfl⟩,
    pipe, ?_, rfl⟩
  rw [← hholds.entry.2.1]
  exact hpipe

/-- A new connection gets no context or no place in the table, or is inserted. -/
theorem addConnToHash_cases {e : FlowQoSEntry} {conn : Conn} {r : Option CtxId}
    (h : addConnToHash w e conn env = .ok (r, w')) :
    (r = none ∧ ∃ pool, pool.Perm w.2.pool ∧
      w' = (w.1, { w.2 with pool := pool }.log (.lost conn.id)) ∧
      ¬ (env.hash ∧ ∃ c ∈ w.2.pool, env.ctx = some c)) ∨
    ∃ c mgr, r = some c ∧ c ∈ w.2.pool ∧
      attachTimer w.1 c ((w.2.ctx c).fill c e env.start_tsc).entry = .ok mgr ∧
      w' = (mgr, w.2.insert c e conn env.start_tsc) := by
  unfold addConnToHash mempoolGet at h
  cases hpick : env.ctx with
  | none =>
    rw [hpick] at h
    cases h
    exact .inl ⟨rfl, w.2.pool, List.Perm.refl _, rfl, fun hn => by obtain ⟨-, c, -, hc⟩ := hn; cases hc⟩
  | some c =>
    rw [hpick] at h
    by_cases hc : c ∈ w.2.pool
    · simp only [if_pos hc] at h
      split at h
      · obtain ⟨mgr, hatt, heq⟩ := map_eq_ok.1 h
        cases heq
        exact .inr ⟨c, mgr, rfl, hc, hatt, rfl⟩
      · next hhash =>
        cases h
        exact .inl ⟨rfl, c :: w.2.pool.erase c, (List.perm_cons_erase hc).symm, rfl,
          fun hn => hhash hn.1⟩
    · simp only [if_neg hc] at h
      cases h
      refine .inl ⟨rfl, w.2.pool, List.Perm.refl _, rfl, ?_⟩
      rintro ⟨-, c', hc', heq⟩
      cases heq
      exact hc hc'

/-- What becomes of a packet of a new connection: it is refused, or accepted and then inserted or lost. -/
theorem openConn_cases {e : FlowQoSEntry} {r : Option CtxId} (h : openConn P m e env w = .ok (r, w')) :
    (P.newConn_handler = none ∧ r = none ∧ w' = w) ∨
    ∃ f ret e' app, P.newConn_handler = some f ∧ f env.app e w.2.app = .ok (ret, e', app) ∧
      (ret < 0 ∧ r = none ∧ w' = (w.1, { w.2 with app := app }) ∨
        0 ≤ ret ∧ addConnToHash (w.1, w.2.accept m.port e.match_ app) e' ⟨w.2.accepted, m.port⟩ env =
          .ok (r, w')) := by
  unfold openConn at h
  split at h
  · next hf =>
    cases h
    exact .inl ⟨hf, rfl, rfl⟩
  · next f hf =>
    obtain ⟨⟨ret, e', app⟩, hr, h⟩ := bind_eq_ok.1 h
    refine .inr ⟨f, ret, e', app, hf, hr, ?_⟩
    simp only at h
    split at h
    · next hneg =>
      cases h
      exact .inl ⟨hneg, rfl, rfl⟩
    · next hneg => exact .inr ⟨Int.not_lt.1 hneg, h⟩

/-- A packet is ignored, or it belongs to a connection of the table or to a new one. -/
theorem packet_cases {v : Verdict} (h : conntrackPacketProcessor P m env w = .ok (v, w')) :
    (v.action = ignorePackets ∧ v.ctx = none ∧ w' = w) ∨
    ∃ e, w.2.attr.PORT_CT_ENABLED m.port ∧ packetParser w.2.attr m = some e ∧
      ((∃ c, w.2.CT e.match_ = some c ∧ forward m w c env = .ok (v, w')) ∨
        w.2.CT e.match_ = none ∧ ∃ r w₁, openConn P m e env w = .ok (r, w₁) ∧
          (r = none ∧ v.action = dropPackets ∧ v.ctx = none ∧ w' = w₁ ∨
            ∃ c, r = some c ∧ forward m w₁ c env = .ok (v, w'))) := by
  unfold conntrackPacketProcessor at h
  split at h
  · next hen =>
    split at h
    · cases h
      exact .inl ⟨rfl, rfl, rfl⟩
    · next e hparse =>
      refine .inr ⟨e, hen, hparse, ?_⟩
      split at h
      · next c hk => exact .inl ⟨c, hk, h⟩
      · next habs =>
        obtain ⟨⟨r, w₁⟩, hopen, h⟩ := bind_eq_ok.1 h
        refine .inr ⟨habs, r, w₁, hopen, ?_⟩
        cases r with
        | none =>
          cases h
          exact .inl ⟨rfl, rfl, rfl, rfl⟩
        | some c => exact .inr ⟨c, rfl, h⟩
  · cases h
    exact .inl ⟨rfl, rfl, rfl⟩

/-- The packet is one of a new connection, and `newConn_handler` accepts it. -/
structure Opens (P : Params σ ε) (w : World σ) (m : Mbuf) (env : PacketEnv ε) : Prop where
  enabled : w.2.attr.PORT_CT_ENABLED m.port
  accepted : ∃ f e ret e' app, packetParser w.2.attr m = some e ∧ w.2.CT e.match_ = none ∧
    P.newConn_handler = some f ∧ f env.app e w.2.app = .ok (ret, e', app) ∧ 0 ≤ ret

/-- The pool has a context for the connection that the packet opens, and the table takes it. -/
def Room (P : Params σ ε) (w : World σ) : Event σ ε → Prop
  | .packet m env => Opens P w m env → env.hash ∧ ∃ c ∈ w.2.pool, env.ctx = some c
  | _ => True

/-- A packet of a new connection: it is refused, lost, or the connection is opened under its match. -/
theorem openConn_goes (hok : HandlerOk P w.2.attr) (h : Inv P (view w)) (hmgr : MgrInv w.1)
    (hT : w.1.timeout + 68719476735 < 2 ^ 64) (hL : ¬ Room P w (.packet m env) → L.lose) {e : FlowQoSEntry}
    (hen : w.2.attr.PORT_CT_ENABLED m.port) (hparse : packetParser w.2.attr m = some e)
    (habs : w.2.CT e.match_ = none) {r : Option CtxId}
    (hrun : openConn P m e env w = .ok (r, w')) : Goes P L w w' ∧ ∀ c, r = some c →
      w'.2.CT e.match_ = some c ∧ w'.2.conns c = ⟨w.2.accepted, m.port⟩ := by
  obtain ⟨mgr, s⟩ := w
  rcases openConn_cases hrun with ⟨-, rfl, rfl⟩ |
    ⟨f, ret, e', app, hf, hr, ⟨hneg, rfl, rfl⟩ | ⟨hret, hadd⟩⟩
  · exact ⟨⟨.refl, hmgr, rfl⟩, fun c hc => (by cases hc)⟩
  · have hask : Asked P s m e ret e' app := ⟨hen, hparse, habs, f, env.app, hf, hr⟩
    exact ⟨.single hmgr (.refuse hask hneg), fun c hc => (by cases hc)⟩
  · have hask : Asked P s m e ret e' app := ⟨hen, hparse, habs, f, env.app, hf, hr⟩
    have hmatch : e'.match_ = e.match_ := (hask.made hret h.table.conf hok.keeps).2
    rcases addConnToHash_cases hadd with ⟨rfl, pool, hperm, rfl, hno⟩ | ⟨c, mgr', rfl, hc, hatt, rfl⟩
    · have hlost : L.lose :=
        hL fun hroom => hno (hroom ⟨hen, f, e, ret, e', app, hparse, habs, hf, hr, hret⟩)
      exact ⟨.single hmgr (.lose hlost hask hret hperm), fun c hc => (by cases hc)⟩
    · have hfree : c ∉ armedSet mgr := fun ha => (h.table.armed ha).2 hc
      obtain ⟨hmgr', hT', harmed⟩ := hmgr.attachTimer hT hfree hatt
      refine ⟨⟨.single (.opened hask hret hc harmed), hmgr', hT'⟩, fun c' hc' => ?_⟩
      cases hc'
      refine ⟨?_, Function.update_self _ _ _⟩
      show Function.update s.CT e'.match_ (some c) e.match_ = some c
      rw [hmatch, Function.update_self]

/-- **A packet is a sequence of moves**, and the context that is applied to it is the one in the table
under its match. -/
theorem packet_goes (hok : HandlerOk P w.2.attr) (h : Inv P (view w)) (hmgr : MgrInv w.1)
    (hT : w.1.timeout + 68719476735 < 2 ^ 64) (hL : ¬ Room P w (.packet m env) → L.lose) {v : Verdict}
    (hrun : conntrackPacketProcessor P m env w = .ok (v, w')) : Goes P L w w' ∧ ∀ c, v.ctx = some c →
      w.2.attr.PORT_CT_ENABLED m.port ∧ ∃ e, packetParser w.2.attr m = some e ∧
        (w.2.CT e.match_ = some c ∧ w'.2.conns c = w.2.conns c ∨
          w.2.CT e.match_ = none ∧ w'.2.conns c = ⟨w.2.accepted, m.port⟩) ∧
        w'.2.CT e.match_ = some c ∧
        (∃ x : ConnContext, x.entry.action.flags = w.2.attr.ActionFlags (w'.2.conns c).port ∧
          v.m = rewrite m x) ∧
        v.action = ((w'.2.conns c).port ^^^ 1 : ℕ) := by
  rcases packet_cases hrun with ⟨-, hnone, rfl⟩ | ⟨e, hen, hparse, hrest⟩
  · refine ⟨⟨.refl, hmgr, rfl⟩, fun c hc => ?_⟩
    rw [hnone] at hc
    cases hc
  · have key : ∀ {w₁ : World σ} {c}, Goes P L w w₁ → w₁.2.CT e.match_ = some c →
        forward m w₁ c env = .ok (v, w') → Goes P L w w' ∧ v.ctx = some c ∧ w'.2.CT e.match_ = some c ∧
          w'.2.conns c = w₁.2.conns c ∧
          (∃ x : ConnContext, x.entry.action.flags = w.2.attr.ActionFlags (w'.2.conns c).port ∧
            v.m = rewrite m x) ∧ v.action = ((w'.2.conns c).port ^^^ 1 : ℕ) := by
      intro w₁ c hgoes hk hfwd
      obtain ⟨hok₁, hinv₁⟩ := hgoes.inv hok h
      have hT₁ : w₁.1.timeout + 68719476735 < 2 ^ 64 := by rw [hgoes.timeout]; exact hT
      obtain ⟨hgoes₁, hholds, hv, ⟨x, hx, hm⟩, pipe, hpipe, hact⟩ :=
        forward_goes hok₁ hinv₁ hgoes.mgr hT₁ hk hfwd
      have hmade := hinv₁.table.made (hinv₁.table.table hk).1
      have hcfg : w₁.2.attr.ActionFlags = w.2.attr.ActionFlags :=
        (Moves.sameConfig hgoes.moves).ActionFlags
      have hport : pipe.port_id = (w₁.2.conns c).port := by
        obtain ⟨pipe', hpipe', hport, -⟩ := hmade.pipe
        have : some pipe = some pipe' := hpipe.symm.trans hpipe'
        cases this
        exact hport
      refine ⟨hgoes.trans hgoes₁, hv, by rw [hholds.CT]; exact hk, by rw [hholds.conns],
        ⟨x, ?_, hm⟩, ?_⟩
      · rw [hholds.conns, hx.2.2, ← hcfg]
        exact hmade.flags
      · rw [hholds.conns, hact, hport]
    rcases hrest with ⟨c, hk, hfwd⟩ | ⟨habs, r, w₁, hopen, hrest⟩
    · obtain ⟨hgoes, hv, hk', hconns, hx, hact⟩ := key ⟨.refl, hmgr, rfl⟩ hk hfwd
      refine ⟨hgoes, fun c' hc' => ?_⟩
      rw [hv] at hc'
      cases hc'
      exact ⟨hen, e, hparse, .inl ⟨hk, hconns⟩, hk', hx, hact⟩
    · obtain ⟨hgoes, hnew⟩ := openConn_goes hok h hmgr hT hL hen hparse habs hopen
      rcases hrest with ⟨rfl, -, hnone, rfl⟩ | ⟨c, rfl, hfwd⟩
      · refine ⟨hgoes, fun c hc => ?_⟩
        rw [hnone] at hc
        cases hc
      · obtain ⟨hk, hconns⟩ := hnew c rfl
        obtain ⟨hgoes', hv, hk', hconns', hx, hact⟩ := key hgoes hk hfwd
        refine ⟨hgoes', fun c' hc' => ?_⟩
        rw [hv] at hc'
        cases hc'
        exact ⟨hen, e, hparse, .inr ⟨habs, hconns'.trans hconns⟩, hk', hx, hact⟩

/-! ### Rounds of the scheduler -/

/-- A turn of the scheduler that offloads its entry takes the entry off the queue. -/
theorem schedule_goes (h : Inv P (view w)) (hmgr : MgrInv w.1) {i : ℕ} {rest : List CtxId}
    (hb : w.2.qos.buckets i = c :: rest) (hmax : 0 < w.2.qos.maxEntry) {o : Outcome} {s₁ : Core σ}
    (hadd : offloadEntry w.2 c o = .ok (1, s₁)) {arg : CtxId}
    (harg : (s₁.ctx c).entry.flowQoS_args = some arg)
    (hdel : delEntryEvent (congestion (spendEntry (qosHandler (w.1, s₁) arg).2 i)) c = .ok s') :
    Goes P L w ((qosHandler (w.1, s₁) arg).1, s') ∧ s'.qos.buckets i = rest := by
  obtain ⟨mgr, s⟩ := w
  have hmem : c ∈ s.qos.buckets i := by
    rw [show s.qos.buckets i = c :: rest from hb]
    exact List.mem_cons_self
  obtain ⟨-, -, rfl, -⟩ := h.scheduled hmem hadd harg
  obtain ⟨hmgr', harmed, hT⟩ := armedSet_qosHandler (s := s₁) (c := arg) hmgr
  refine ⟨⟨.single ?_, hmgr', hT⟩, ?_⟩
  · simp only [view]
    rw [harmed]
    exact .schedule hmem hmax hadd harg hdel
  · obtain ⟨-, entry, hw, rfl⟩ := offloadEntry_frame hadd
    obtain ⟨qos, attr, rfl, -, hin, hb', -⟩ := scheduled_ok hdel
    have := h.queue.delEntryEvent rfl hin i
    show qos.buckets i = rest
    rw [hb']
    refine this.trans ?_
    show (s.qos.buckets i).erase arg = rest
    rw [show s.qos.buckets i = arg :: rest from hb, List.erase_cons_head]

/-- The loop stops before an entry, or its insertion fails and ends the round, or it is offloaded and taken
off the queue. -/
theorem qosLoop_cons_ok {i : ℕ} {outcome : CtxId → Outcome} {rest : List CtxId} {weight res : ℤ}
    {r : ℤ × Bool × World σ} (h : qosLoop i outcome (c :: rest) weight res w = .ok r) :
    (weight ≤ 0 ∨ w.2.qos.maxEntry ≤ 0) ∧ r = (res, true, w) ∨
      ¬ (weight ≤ 0 ∨ w.2.qos.maxEntry ≤ 0) ∧ ∃ ret s, offloadEntry w.2 c (outcome c) = .ok (ret, s) ∧
        (ret ≤ 0 ∧ r = (0, false, w.1, s) ∨
          0 < ret ∧ ∃ arg s', (s.ctx c).entry.flowQoS_args = some arg ∧
            delEntryEvent (congestion (spendEntry (qosHandler (w.1, s) arg).2 i)) c = .ok s' ∧
            qosLoop i outcome rest (weight - 1) (res + ret) ((qosHandler (w.1, s) arg).1, s') = .ok r) := by
  unfold qosLoop at h
  split at h
  · next hstop =>
    cases h
    exact .inl ⟨hstop, rfl⟩
  · next hgo =>
    obtain ⟨⟨ret, s⟩, hadd, h⟩ := bind_eq_ok.1 h
    refine .inr ⟨hgo, ret, s, hadd, ?_⟩
    simp only at h
    split at h
    · next hle =>
      cases h
      exact .inl ⟨hle, rfl⟩
    · next hpos =>
      refine .inr ⟨Int.not_le.1 hpos, ?_⟩
      split at h
      · next arg _ harg =>
        obtain ⟨s', hdel, h⟩ := bind_eq_ok.1 h
        exact ⟨arg, s', harg, hdel, h⟩
      · cases h

/-- The loop over a queue: the queue is what the loop has still to come to. -/
theorem qosLoop_goes {i : ℕ} {outcome : CtxId → Outcome} : ∀ (rest : List CtxId) (weight res : ℤ)
    (w : World σ) {r : ℤ × Bool × World σ}, HandlerOk P w.2.attr → Inv P (view w) → MgrInv w.1 →
    w.2.qos.buckets i = rest → qosLoop i outcome rest weight res w = .ok r → Goes P L w r.2.2
  | [], _, _, w, _, _, _, hmgr, _, hrun => by
    cases hrun
    exact ⟨.refl, hmgr, rfl⟩
  | c :: rest, weight, res, w, r, hok, h, hmgr, hb, hrun => by
    have hmem : c ∈ w.2.qos.buckets i := by
      rw [hb]
      exact List.mem_cons_self
    obtain ⟨-, rfl⟩ | ⟨hgo, ret, s₁, hadd, hcase⟩ := qosLoop_cons_ok hrun
    · exact ⟨.refl, hmgr, rfl⟩
    obtain ⟨hret, -⟩ := offloadEntry_frame hadd
    obtain ⟨hle, rfl⟩ | ⟨hpos, arg, s', harg, hdel, hrest⟩ := hcase
    · obtain rfl : ret = 0 := by omega
      have hst := (h.queue.mem.1 hmem).2.1
      exact .single hmgr (.addFail (.inr ⟨i, hmem⟩) (fun hc => by cases hst.symm.trans hc) hadd)
    · obtain rfl : ret = 1 := by omega
      obtain ⟨hgoes, hb'⟩ := schedule_goes h hmgr hb (by omega) hadd harg hdel
      obtain ⟨hok', h'⟩ := hgoes.inv hok h
      exact hgoes.trans (qosLoop_goes rest _ _ _ hok' h' hgoes.mgr hb' hrest)

theorem qosQueues_goes {outcome : CtxId → Outcome} : ∀ (is : List ℕ) (res : ℤ) (w : World σ)
    {r : ℤ × Bool × World σ}, HandlerOk P w.2.attr → Inv P (view w) → MgrInv w.1 →
    qosQueues outcome is res w = .ok r → Goes P L w r.2.2
  | [], _, w, _, _, _, hmgr, hrun => by
    cases hrun
    exact ⟨.refl, hmgr, rfl⟩
  | i :: is, res, w, r, hok, h, hmgr, hrun => by
    unfold qosQueues at hrun
    obtain ⟨⟨res', goes, w₁⟩, hloop, hrun⟩ := bind_eq_ok.1 hrun
    have hgoes : Goes P L w w₁ := qosLoop_goes _ _ _ _ hok h hmgr rfl hloop
    simp only at hrun
    split at hrun
    · obtain ⟨hok', h'⟩ := hgoes.inv hok h
      exact hgoes.trans (qosQueues_goes is _ _ hok' h' hgoes.mgr hrun)
    · cases hrun
      exact hgoes

theorem doEntryEvent_goes (hok : HandlerOk P w.2.attr) (h : Inv P (view w)) (hmgr : MgrInv w.1)
    {cur : UInt64} {outcome : CtxId → Outcome} {r : ℤ × World σ}
    (hrun : doEntryEvent cur outcome w = .ok r) : Goes P L w r.2 := by
  unfold doEntryEvent at hrun
  split at hrun
  · obtain ⟨⟨res, goes, w₁⟩, hqs, hrun⟩ := bind_eq_ok.1 hrun
    have hgoes : Goes P L w w₁ := qosQueues_goes _ _ _ hok h hmgr hqs
    simp only at hrun
    split at hrun
    · cases hrun
      exact hgoes.trans (.still hgoes.mgr ⟨SameConfig.refl _, rfl, rfl, rfl, rfl, fun _ => ⟨rfl, rfl⟩,
        rfl, rfl, rfl, rfl, rfl, rfl, rfl⟩)
    · cases hrun
      exact hgoes
  · cases hrun
    exact ⟨.refl, hmgr, rfl⟩

/-! ### Aging polls -/

/-- The entries of a poll that are left: their contexts still have their handles, whatever has become of
the entries themselves. -/
structure PollInv (all left : List HwEntry) (s : Core σ) : Prop where
  nodup : (all.map HwEntry.handle).Nodup
  sub : ∀ e ∈ s.hw.entries, e ∈ all
  left : ∀ e ∈ left, e ∈ all ∧ ∀ c, e.user_data = some c → (s.ctx c).entry.entry = some e.handle

/-- A reported entry is not removed, or it is removed and its callback, if there is one, expires a context. -/
theorem agedStep_ok {aged : HwEntry × Bool} (h : agedStep P s aged = .ok s') :
    ∃ c, aged.1.user_data = some c ∧
      (s.hw.rmEntry (s.ctx c).entry.entry aged.2 = none ∧ s' = s ∨
        ∃ hw, s.hw.rmEntry (s.ctx c).entry.entry aged.2 = some hw ∧
          ((s.ctx c).entry.cb = none ∧ s' = { s with hw := hw } ∨
            (s.ctx c).entry.cb.isSome ∧ ∃ arg, (s.ctx c).entry.cb_args = some arg ∧
              connExpireHw P arg { s with hw := hw } = .ok s')) := by
  unfold agedStep at h
  split at h
  · cases h
  · next c hu =>
    refine ⟨c, hu, ?_⟩
    split at h
    · next hrm =>
      cases h
      exact .inl ⟨hrm, rfl⟩
    · next hw hrm =>
      refine .inr ⟨hw, hrm, ?_⟩
      simp only at h
      split at h
      · next hcb =>
        cases h
        exact .inl ⟨hcb, rfl⟩
      · next hcb =>
        split at h
        · cases h
        · next arg harg => exact .inr ⟨by rw [hcb]; rfl, arg, harg, h⟩

/-- The entry that is removed is the reported one: it has the handle of its context. -/
theorem PollInv.removed {e : HwEntry} {all left : List HwEntry} {ok : Bool} {hw : Hardware}
    (h : PollInv all (e :: left) s) (hu : e.user_data = some c)
    (hrm : s.hw.rmEntry (s.ctx c).entry.entry ok = some hw) : e ∈ s.hw.entries := by
  obtain ⟨y, hy, ⟨e', he', hhandle⟩, -⟩ := rmEntry_some hrm
  obtain ⟨hall, hown⟩ := h.left _ List.mem_cons_self
  rw [hown c hu] at hy
  have heq : e' = e := List.inj_on_of_nodup_map h.nodup (h.sub e' he') hall (by
    rw [hhandle]
    exact (Option.some.inj hy).symm)
  rwa [← heq]

theorem agedStep_moves {A : Set CtxId} {aged : HwEntry × Bool} {all left : List HwEntry}
    (hpoll : Attaches s.attr → PollInv all (aged.1 :: left) s) (hrun : agedStep P s aged = .ok s') :
    Moves P L (A, s) (A, s') ∧ SameConfig s.attr s'.attr ∧
      (Attaches s'.attr → PollInv all left s') := by
  obtain ⟨c, hu, ⟨hrm, rfl⟩ | ⟨hw, hrm, hcase⟩⟩ := agedStep_ok hrun
  · refine ⟨.refl, SameConfig.refl _, fun hat => ?_⟩
    obtain ⟨h1, h2, h3⟩ := hpoll hat
    exact ⟨h1, h2, fun e he => h3 e (List.mem_cons_of_mem _ he)⟩
  · have hmem : Attaches s.attr → aged.1 ∈ s.hw.entries := fun hat => (hpoll hat).removed hu hrm
    obtain ⟨y, -, -, hhw⟩ := rmEntry_some hrm
    have hnext : ∀ t : Core σ, t.ctx = s.ctx → t.hw = hw → Attaches s.attr → PollInv all left t := by
      intro t htc hth hat
      obtain ⟨h1, h2, h3⟩ := hpoll hat
      refine ⟨h1, fun e he => ?_, fun e he => ?_⟩
      · rw [hth, hhw] at he
        exact h2 e (List.mem_filter.1 he).1
      · rw [htc]
        exact h3 e (List.mem_cons_of_mem _ he)
    obtain ⟨hcb, rfl⟩ | ⟨hcb, arg, harg, hexp⟩ := hcase
    · exact ⟨.single (.rmEntry hmem hu hrm hcb), SameConfig.refl _, hnext _ rfl rfl⟩
    · obtain ⟨hrel, -⟩ := connExpireHw_ok hexp
      refine ⟨.single (.expireHw hmem hu hrm hcb harg hexp), hrel.sameConfig, fun hat => ?_⟩
      exact hnext s' hrel.ctx hrel.hw ((attaches_congr hrel.sameConfig).1 hat)

theorem agedSteps_moves {A : Set CtxId} (all : List HwEntry) {aged : List (HwEntry × Bool)}
    (hpoll : Attaches s.attr → PollInv all (aged.map Prod.fst) s)
    (hrun : aged.foldlM (agedStep P) s = .ok s') : Moves P L (A, s) (A, s') := by
  refine (foldlM_inv (P := fun left t => Moves P L (A, s) (A, t) ∧
    (Attaches t.attr → PollInv all (left.map Prod.fst) t)) ?_ ⟨.refl, hpoll⟩ hrun).1
  rintro a left t t' ⟨hm, hp⟩ hstep
  obtain ⟨hm', -, hp'⟩ := agedStep_moves (A := A) hp hstep
  exact ⟨hm.trans hm', hp'⟩

theorem mem_agedEntries {hw : Hardware} {reports : List (Handle × Bool)} {a : HwEntry × Bool}
    (h : a ∈ agedEntries hw reports) : a.1 ∈ hw.entries ∧ (a.1.handle, a.2) ∈ reports := by
  unfold agedEntries at h
  obtain ⟨r, hr, hfind⟩ := List.mem_filterMap.1 h
  obtain ⟨e, he, rfl⟩ := Option.map_eq_some_iff.1 hfind
  have hhandle : e.handle = r.1 := by simpa using List.find?_some he
  exact ⟨List.mem_of_find?_eq_some he, by rw [hhandle]; exact hr⟩

theorem agingHandle_moves {A : Set CtxId} (hR : L.report) (h : Inv P (A, s)) {reports : List (Handle × Bool)}
    (hok : HandlerOk P s.attr) (hrun : agingHandle P reports s = .ok s') : Moves P L (A, s) (A, s') := by
  unfold agingHandle at hrun
  set s₁ : Core σ := { s with hw := s.hw.report (reports.map Prod.fst) } with hs₁
  have hmove : Move P L (A, s) (A, s₁) := .report _ hR
  have h₁ : Inv P (A, s₁) := inv_move hok h hmove
  refine .head hmove (agedSteps_moves s₁.hw.entries (fun hat => ?_) hrun)
  refine ⟨h₁.hw.nodup, fun e he => he, fun e he => ?_⟩
  obtain ⟨a, ha, rfl⟩ := List.mem_map.1 he
  have hmem := (mem_agedEntries ha).1
  exact ⟨hmem, fun c hu => h₁.hw.handle_eq hat hmem hu⟩

theorem connAgingHandle_moves {A : Set CtxId} (hR : L.report) (h : Inv P (A, s))
    {reports : ℕ → List (Handle × Bool)} (hok : HandlerOk P s.attr)
    (hrun : connAgingHandle P reports s = .ok s') : Moves P L (A, s) (A, s') := by
  unfold connAgingHandle at hrun
  refine (foldlM_inv (P := fun _ t => Moves P L (A, s) (A, t)) ?_ .refl hrun)
  intro i _ t t' hm hstep
  have hok' : HandlerOk P t.attr := hok.congr (Moves.sameConfig hm)
  exact hm.trans (agingHandle_moves hR (inv_moves hok h hm) hok' hstep)

/-! ### Ticks -/

/-- What a fired timer does to the core, with the manager its callback sees. -/
def fired (P : Params σ ε) (_ : TimerCallback) (timer : CtxId) (mgr : Mgr) (s : Core σ) :
    Except Fault (Core σ) :=
  match (mgr.timers timer).cb_args with
  | none => .error .nullPointer
  | some c => connExpireSw P c s

theorem inert_timerCallback : Inert (timerCallback P) (fired P) := by
  intro cb t mgr s
  unfold timerCallback fired
  cases (mgr.timers t).cb_args <;> rfl

/-- A timer that fires expires its own context. -/
theorem fire_expires (hmgr : MgrInv mgr) {x : Mgr × CtxId} (hsame : SameCallbacks mgr x.1)
    (hfire : fire (fired P) s x = .ok s') : connExpireSw P x.2 s = .ok s' := by
  unfold fire at hfire
  split at hfire
  · cases hfire
  · next cb hcb =>
    have hargs : (x.1.timers x.2).cb_args = some x.2 := by
      rw [(hsame.2.2 x.2).2]
      refine hmgr.args x.2 ?_
      rw [← (hsame.2.2 x.2).1, hcb]
      rfl
    unfold fired at hfire
    rwa [hargs] at hfire

/-- The timers that are due expire their contexts one after the other. -/
theorem fires_moves (hmgr : MgrInv mgr) : ∀ (due : List (Mgr × CtxId)) (A : Set CtxId) (s : Core σ)
    {s' : Core σ}, (due.map Prod.snd).Nodup → (∀ x ∈ due, SameCallbacks mgr x.1 ∧ x.2 ∈ A) →
    due.foldlM (fire (fired P)) s = .ok s' → Moves P L (A, s) (A \ {t | t ∈ due.map Prod.snd}, s')
  | [], A, s, _, _, _, hrun => by
    cases hrun
    simp only [List.map_nil, List.not_mem_nil, Set.ofPred_false, Set.sdiff_empty]
    exact .refl
  | x :: due, A, s, s', hnd, hdue, hrun => by
    rw [List.foldlM_cons] at hrun
    obtain ⟨s₁, hfire, hrun⟩ := bind_eq_ok.1 hrun
    obtain ⟨hsame, hx⟩ := hdue x List.mem_cons_self
    rw [List.map_cons, List.nodup_cons] at hnd
    have hexp : connExpireSw P x.2 s = .ok s₁ := fire_expires hmgr hsame hfire
    have hrest := fires_moves hmgr due (A \ {x.2}) s₁ hnd.2 (fun y hy => ?_) hrun
    · refine .head (.expireSw hx hexp) ?_
      have hset : (A \ {x.2}) \ {t | t ∈ due.map Prod.snd} = A \ {t | t ∈ (x :: due).map Prod.snd} := by
        ext t
        simp only [Set.mem_sdiff, Set.mem_singleton_iff, Set.mem_ofPred_eq, List.map_cons, List.mem_cons]
        tauto
      rw [← hset]
      exact hrest
    · obtain ⟨hs, hy'⟩ := hdue y (List.mem_cons_of_mem _ hy)
      refine ⟨hs, hy', fun heq => hnd.1 ?_⟩
      rw [← Set.mem_singleton_iff.1 heq]
      exact List.mem_map_of_mem hy

/-- A tick fires the timers that are due, which are then off. -/
theorem MgrInv.timerTick {ω : Type} {call : Callback CtxId TimerCallback CtxId ω}
    {f : TimerCallback → CtxId → Mgr → ω → Except Fault ω} {n : ℕ} (hcall : Inert call f) (h : MgrInv mgr)
    (hT : mgr.timeout + 68719476735 < 2 ^ 64) (hlt : ∀ t ∈ armedSet mgr, t < n) :
    ∃ (mgr' : Mgr) (due : List (Mgr × CtxId)),
      (∀ x, Timer.timerTick call (n + 1) (mgr, x) =
        (due.foldlM (fire f) x).map fun x => (due.length, mgr', x)) ∧
      (due.map Prod.snd).Nodup ∧ (∀ t, t ∈ due.map Prod.snd ↔ (alarms mgr).Due t) ∧
      (∀ x ∈ due, SameCallbacks mgr x.1) ∧ MgrInv mgr' ∧
      armedSet mgr' = armedSet mgr \ {t | t ∈ due.map Prod.snd} := by
  have hS : ∀ t, Armed mgr t → t ∈ Finset.range n := fun t ht => Finset.mem_range.2 (hlt t ht)
  have hfuel : (Finset.range n).card < n + 1 := by
    rw [Finset.card_range]
    exact Nat.lt_succ_self _
  obtain ⟨mgr', due, htick, hnd, hdue, hsame, hwheel, halarms, -, hcb⟩ :=
    timerTick_spec hcall h.wheel hT hS hfuel
  refine ⟨mgr', due, htick, hnd, hdue, hsame, ⟨hwheel, fun t ht => ?_, fun {t d p} ht => ?_⟩, ?_⟩
  · rw [(hcb t).2]
    refine h.args t ?_
    rwa [(hcb t).1] at ht
  · rw [halarms] at ht
    exact Alarms.advance_once h.once ht
  · ext t
    rw [Set.mem_sdiff, Set.mem_ofPred_eq, hdue, mem_armedSet, mem_armedSet, halarms]
    exact Alarms.advance_isSome_iff h.once

theorem tick_moves (h : Inv P (view w)) (hmgr : MgrInv w.1) (hT : w.1.timeout + 68719476735 < 2 ^ 64)
    {rdtsc n : ℕ} (hrun : flowQoSTimerTick (timerCallback P) (P.maxConntrack + 1) P.GAP rdtsc w =
      .ok (n, w')) : Moves P L (view w) (view w') ∧ MgrInv w'.1 := by
  unfold flowQoSTimerTick at hrun
  split at hrun
  · obtain ⟨mgr, s⟩ := w
    obtain ⟨mgr', due, htick, hnd, hdue, hsame, hmgr', harmed⟩ :=
      hmgr.timerTick (n := P.maxConntrack) inert_timerCallback hT fun t ht => (h.table.armed ht).1
    rw [htick] at hrun
    obtain ⟨s', hfold, heq⟩ := map_eq_ok.1 hrun
    cases heq
    refine ⟨?_, hmgr'⟩
    simp only [view]
    rw [harmed]
    refine fires_moves hmgr due _ s hnd (fun x hx => ⟨hsame x hx, ?_⟩) hfold
    obtain ⟨p, hp⟩ := (hdue x.2).1 (List.mem_map_of_mem hx)
    rw [mem_armedSet, hp]
    rfl
  · cases hrun
    exact ⟨.refl, hmgr⟩

/-! ### Events and runs -/

/-- **Every event is a sequence of moves.** -/
theorem step_moves (hok : HandlerOk P w.2.attr) (h : Inv P (view w)) (hmgr : MgrInv w.1)
    (hT : w.1.timeout + 68719476735 < 2 ^ 64) {e : Event σ ε} (hL : ¬ Room P w e → L.lose)
    (hR : ∀ reports, e = .aging reports → L.report) (hrun : step P w e = .ok w') :
    Moves P L (view w) (view w') ∧ MgrInv w'.1 := by
  cases e with
  | packet m env =>
    obtain ⟨⟨v, w₁⟩, hp, rfl⟩ := map_eq_ok.1 hrun
    obtain ⟨hgoes, -⟩ := packet_goes hok h hmgr hT hL hp
    exact ⟨hgoes.moves, hgoes.mgr⟩
  | tick rdtsc =>
    obtain ⟨⟨n, w₁⟩, htick, rfl⟩ := map_eq_ok.1 hrun
    exact tick_moves h hmgr hT htick
  | qos rdtsc outcome =>
    simp only [step] at hrun
    split at hrun
    · obtain ⟨r, hq, rfl⟩ := map_eq_ok.1 hrun
      have hgoes : Goes P L w r.2 := doEntryEvent_goes hok h hmgr hq
      exact ⟨hgoes.moves, hgoes.mgr⟩
    · cases hrun
      exact ⟨.refl, hmgr⟩
  | aging reports =>
    obtain ⟨s', haging, rfl⟩ := map_eq_ok.1 hrun
    exact ⟨connAgingHandle_moves (hR reports rfl) h hok haging, hmgr⟩
  | app app =>
    cases hrun
    exact ⟨.single (.app app), hmgr⟩

/-- One event of a core whose tick count is not about to wrap around. -/
def Steps (P : Params σ ε) (w : World σ) (e : Event σ ε) (w' : World σ) : Prop :=
  w.1.timeout < 2 ^ 64 - 2 ^ 36 ∧ step P w e = .ok w'

/-- What holds of a core in a run. -/
structure WorldInv (P : Params σ ε) (w : World σ) : Prop where
  ok : HandlerOk P w.2.attr
  inv : Inv P (view w)
  mgr : MgrInv w.1

theorem Steps.moves (h : WorldInv P w) {e : Event σ ε} (hL : ¬ Room P w e → L.lose)
    (hR : ∀ reports, e = .aging reports → L.report) (hs : Steps P w e w') :
    Moves P L (view w) (view w') ∧ WorldInv P w' := by
  obtain ⟨hm, hmgr⟩ := step_moves h.ok h.inv h.mgr (by have := hs.1; omega) hL hR hs.2
  exact ⟨hm, h.ok.congr (Moves.sameConfig hm), inv_moves h.ok h.inv hm, hmgr⟩

/-- What every move preserves under the invariant, every event preserves. -/
theorem Steps.inv {Q : Set CtxId × Core σ → Prop}
    (hmove : ∀ w w', HandlerOk P w.2.attr → Inv P w → Q w → Move P L w w' → Q w') (h : WorldInv P w)
    (hQ : Q (view w)) {e : Event σ ε} (hL : ¬ Room P w e → L.lose)
    (hR : ∀ reports, e = .aging reports → L.report) (hs : Steps P w e w') :
    WorldInv P w' ∧ Q (view w') := by
  obtain ⟨hm, h'⟩ := hs.moves h hL hR
  exact ⟨h', (hm.inv hmove h.ok h.inv hQ).2⟩

/-- A run of a core. -/
abbrev Runs (P : Params σ ε) : World σ → List (Event σ ε) → World σ → Prop := Trace (Steps P)

/-- A run in which every event meets the condition. -/
abbrev RunsWhile (P : Params σ ε) (G : World σ → Event σ ε → Prop) :
    World σ → List (Event σ ε) → World σ → Prop :=
  Trace fun w e w' => G w e ∧ Steps P w e w'

/-- **The invariant rule of the tracker.** What every move preserves under the invariant holds in every
state that a run reaches. -/
theorem Runs.inv {Q : Set CtxId × Core σ → Prop}
    (hmove : ∀ w w', HandlerOk P w.2.attr → Inv P w → Q w → Move P ⟨True, True⟩ w w' → Q w') (h : WorldInv P w)
    (hQ : Q (view w)) {es : List (Event σ ε)} (hr : Runs P w es w') : WorldInv P w' ∧ Q (view w') :=
  Trace.inv (P := fun w => WorldInv P w ∧ Q (view w))
    (fun _ _ _ hw hs => hs.inv hmove hw.1 hw.2 (fun _ => trivial) fun _ _ => trivial) hr ⟨h, hQ⟩

/-! ### The initial state -/

/-- The initialisation of the ports changes the attributes only. -/
theorem initPorts_eq (ports : List (ℕ × UInt64)) (s : Core σ) :
    ports.foldl conntrackInitPort s = { s with attr := (ports.foldl conntrackInitPort s).attr } := by
  induction ports generalizing s with
  | nil => rfl
  | cons p ports ih =>
    rw [List.foldl_cons, ih]
    rfl

theorem configured_initPorts (ports : List (ℕ × UInt64)) (s : Core σ) (h : Configured s.attr)
    (hudp : s.attr.UDP_MatchFlags ||| UDP = s.attr.UDP_MatchFlags) :
    Configured (ports.foldl conntrackInitPort s).attr := by
  induction ports generalizing s with
  | nil => exact h
  | cons p ports ih =>
    refine ih (conntrackInitPort s p) ⟨fun q hq => ?_, fun q hq => ?_⟩ hudp
    · simp only [conntrackInitPort, Function.update_apply] at hq ⊢
      by_cases heq : q = p.1
      · simp only [if_pos heq]
        rw [heq]
      · simp only [if_neg heq] at hq ⊢
        exact h.tcp q hq
    · simp only [conntrackInitPort, Function.update_apply] at hq ⊢
      by_cases heq : q = p.1
      · simp only [if_pos heq, hudp]
        rw [heq]
      · simp only [if_neg heq] at hq ⊢
        exact h.udp q hq

theorem boot_frame (a : InitArgs) (ports : List (ℕ × UInt64)) (app : σ) : (boot a ports app).2 =
    { conntrackInitEnv a app with attr := (ports.foldl conntrackInitPort (conntrackInitEnv a app)).attr } :=
  initPorts_eq ports _

theorem boot_pool (a : InitArgs) (ports : List (ℕ × UInt64)) (app : σ) :
    (boot a ports app).2.pool = List.range a.maxConntrack := by
  rw [boot_frame]
  rfl

theorem boot_buckets (a : InitArgs) (ports : List (ℕ × UInt64)) (app : σ) (i : ℕ) :
    (boot a ports app).2.qos.buckets i = [] := by
  rw [boot_frame]
  simp only [conntrackInitEnv]
  split <;> rfl

theorem boot_CT (a : InitArgs) (ports : List (ℕ × UInt64)) (app : σ) (k : FlowQoSMatch) :
    (boot a ports app).2.CT k = none := by
  rw [boot_frame]
  rfl

theorem boot_hw (a : InitArgs) (ports : List (ℕ × UInt64)) (app : σ) : (boot a ports app).2.hw = {} := by
  rw [boot_frame]
  rfl

theorem boot_app (a : InitArgs) (ports : List (ℕ × UInt64)) (app : σ) : (boot a ports app).2.app = app := by
  rw [boot_frame]
  rfl

/-- At the start no context is alive. -/
theorem boot_not_alive {a : InitArgs} (ha : a.maxConntrack = P.maxConntrack) (ports : List (ℕ × UInt64))
    (app : σ) (c : CtxId) : ¬ Alive P (boot a ports app).2 c := by
  rintro ⟨hlt, hnot⟩
  rw [boot_pool, List.mem_range, ha] at hnot
  exact hnot hlt

theorem inv_boot {a : InitArgs} (ha : a.maxConntrack = P.maxConntrack) (ports : List (ℕ × UInt64))
    (app : σ) : Inv P (view (boot a ports app)) := by
  have hnot := boot_not_alive (P := P) ha ports app
  have hbuckets := boot_buckets a ports app
  have hCT := boot_CT a ports app
  have hhw := boot_hw a ports app
  have hctx : ∀ c, ((boot a ports app).2.ctx c).entry = {} := fun c => by rw [boot_frame]; rfl
  have hview : view (boot a ports app) = (∅, (boot a ports app).2) := by
    unfold view boot
    rw [armedSet_init]
  rw [hview]
  refine ⟨⟨?_, ?_, fun hm => ?_, fun hm => absurd hm (Set.notMem_empty _), fun {k c} hk => ?_,
    fun ha => absurd ha (hnot _), fun ha => absurd ha (hnot _)⟩, ⟨fun i => ?_, fun {c i} => ?_,
    fun ha => absurd ha (hnot _)⟩, ⟨?_, ?_, fun ha => absurd ha (hnot _), fun _ c ha => absurd ha (hnot c),
    fun _ c h hh => ?_, fun _ c e he => ?_, fun _ e he => ?_, fun _ c ha => absurd ha (hnot c)⟩⟩
  · refine configured_initPorts ports _ ⟨fun p hp => (by cases hp), fun p hp => (by cases hp)⟩ ?_
    show SIP ||| DIP ||| UDP ||| SPORT ||| DPORT ||| UDP = SIP ||| DIP ||| UDP ||| SPORT ||| DPORT
    decide
  · rw [boot_pool]
    exact List.nodup_range
  · rw [boot_pool, List.mem_range] at hm
    rwa [← ha]
  · rw [hCT] at hk
    cases hk
  · rw [hbuckets]
    exact List.nodup_nil
  · rw [hbuckets]
    exact ⟨fun hm => absurd hm List.not_mem_nil, fun hm => absurd hm.1 (hnot c)⟩
  · rw [hhw]
    exact List.nodup_nil
  · rw [hhw]
    exact fun e he => absurd he List.not_mem_nil
  · rw [hctx] at hh
    cases hh
  · rw [hhw] at he
    exact absurd he List.not_mem_nil
  · rw [hhw] at he
    exact absurd he List.not_mem_nil

/-- The ports on which the tracker is enabled, and their flags. -/
theorem boot_ports (a : InitArgs) (ports : List (ℕ × UInt64)) (app : σ) {p : ℕ}
    (h : (boot a ports app).2.attr.PORT_CT_ENABLED p) :
    (p, (boot a ports app).2.attr.ActionFlags p) ∈ ports := by
  have key : ∀ (ports : List (ℕ × UInt64)) (s : Core σ),
      (ports.foldl conntrackInitPort s).attr.PORT_CT_ENABLED p →
      (p, (ports.foldl conntrackInitPort s).attr.ActionFlags p) ∈ ports ∨
        s.attr.PORT_CT_ENABLED p ∧
          (ports.foldl conntrackInitPort s).attr.ActionFlags p = s.attr.ActionFlags p := by
    intro ports
    induction ports with
    | nil => exact fun s hs => .inr ⟨hs, rfl⟩
    | cons q ports ih =>
      intro s hs
      rcases ih (conntrackInitPort s q) hs with hin | ⟨hen, hfl⟩
      · exact .inl (List.mem_cons_of_mem _ hin)
      · rw [List.foldl_cons, hfl]
        simp only [conntrackInitPort, Function.update_apply] at hen ⊢
        by_cases heq : p = q.1
        · left
          rw [if_pos heq, heq]
          exact List.mem_cons_self
        · right
          rw [if_neg heq] at hen ⊢
          exact ⟨hen, rfl⟩
  rcases key ports (conntrackInitEnv a app) h with hin | ⟨hen, -⟩
  · exact hin
  · cases hen

theorem attaches_boot (a : InitArgs) {ports : List (ℕ × UInt64)} (app : σ) (h : ∀ p ∈ ports, p.2 ≠ AGING) :
    Attaches (boot a ports app).2.attr :=
  fun _ hp => h _ (boot_ports a ports app hp)

theorem worldInv_boot {a : InitArgs} (ha : a.maxConntrack = P.maxConntrack) (ports : List (ℕ × UInt64))
    (app : σ) (hok : HandlerOk P (boot a ports app).2.attr) : WorldInv P (boot a ports app) :=
  ⟨hok, inv_boot ha ports app, mgrInv_init _⟩

/-! ### A small core -/

/-- A core that accepts every connection with the given change of its entry, and counts the connections
that it has accepted and that have not aged. -/
def accepting (change : FlowQoSEntry → FlowQoSEntry) : Params ℕ Unit where
  newConn_handler := some fun _ newEntry n => .ok (0, change newEntry, n + 1)
  agingConn_handler := some fun _ n => .ok (n - 1)
  maxConntrack := 2
  GAP := 1000

/-- Direct mode, with one hardware entry. -/
def oneEntry : InitArgs where
  maxConntrack := 2
  maxOffloadedEntry := 1
  offloadTime := 0
  offloadSpeed := 0
  tsc_hz := 1000000
  workers := 1
  rdtsc := 0

def packetOf (proto : UInt8) : Mbuf :=
  { port := 0, src_addr := 1, dst_addr := 2, next_proto_id := proto, sport := 3, dport := 4 }

/-- The environment of a packet that is offloaded at once. -/
def offloads (c : CtxId) : PacketEnv Unit where
  app := ()
  ctx := some c
  hash := true
  outcome := { entry := true, processed := 1 }
  start_tsc := 0
  tune_tsc := 1
  offload_tsc := 1
  flush_tsc := 2
  reset_tsc := 2

theorem keepsAll_accepting : KeepsAll (accepting id) := by
  rintro f x e a ret e' a' hf hr -
  cases hf
  cases hr
  exact ⟨rfl, rfl, rfl, rfl, rfl⟩

theorem shortExpire_accepting {change : FlowQoSEntry → FlowQoSEntry}
    (h : ∀ e, (change e).expireTime = e.expireTime) : ShortExpire (accepting change) := by
  rintro f x e a ret e' a' hf h0 hr -
  cases hf
  cases hr
  rw [h, h0]
  decide

end FlowQoS.Conntrack
