import FlowQoS.Conntrack.Aside

/-!
# A core with a longer pool

An event gets to the pool in two ways only: it takes the context that the pool gives, or puts one back. So it
goes on in the same way when further contexts lie behind those of the pool, and leaves them there
(`step_lend`), as long as the pool does not give one of them (`Event.drawn`).
-/

set_option linter.unusedSectionVars false

namespace FlowQoS.Conntrack

open Lib Pipe Timer

variable {σ ε : Type} {P : Params σ ε} {w w' : World σ} {s s' : Core σ} {c : CtxId} {m : Mbuf}
  {env : PacketEnv ε} {r : List CtxId}

/-- The core with further contexts in its pool. -/
def Core.lend (s : Core σ) (r : List CtxId) : Core σ := { s with pool := s.pool ++ r }

def lend (w : World σ) (r : List CtxId) : World σ := (w.1, w.2.lend r)

/-- The pool gives one of its contexts, or none. -/
def PacketEnv.drawn (env : PacketEnv ε) (pool : List CtxId) : PacketEnv ε :=
  { env with ctx := env.ctx.filter (· ∈ pool) }

def Event.drawn (pool : List CtxId) : Event σ ε → Event σ ε
  | .packet m env => .packet m (env.drawn pool)
  | e => e

/-- A loop whose turns commute with a change of the state. -/
theorem foldlM_map {α β : Type} {step : β → α → Except Fault β} {g : β → β}
    (h : ∀ b a, step (g b) a = (step b a).map g) : ∀ (as : List α) (b : β),
    as.foldlM step (g b) = (as.foldlM step b).map g
  | [], _ => rfl
  | a :: as, b => by
    rw [List.foldlM_cons, List.foldlM_cons, h]
    cases step b a with
    | error e => rfl
    | ok b' => exact foldlM_map h as b'

/-! ### Offloading -/

theorem offloadEntry_lend (o : Outcome) :
    offloadEntry (s.lend r) c o = (offloadEntry s c o).map fun x => (x.1, x.2.lend r) := by
  unfold offloadEntry
  have hctx : (s.lend r).ctx = s.ctx := rfl
  rw [hctx]
  cases (s.ctx c).entry.pipe <;> rfl

theorem offloadConn_lend : offloadConn (lend w r) c env = (offloadConn w c env).map (lend · r) := by
  unfold offloadConn
  have hattr : (lend w r).2.attr = w.2.attr := rfl
  have hctx : (lend w r).2.ctx = w.2.ctx := rfl
  rw [hattr, hctx]
  cases filterRuntimeTune w.2.attr env.tune_tsc with
  | error e => rfl
  | ok attr =>
    simp only [bind, Except.bind]
    generalize shouldOffloadCt attr (w.2.ctx c) env.offload_tsc = x
    obtain ⟨ready, attr'⟩ := x
    simp only
    by_cases hready : ready = true
    · simp only [if_pos hready]
      by_cases hen : attr'.ENABLE_FLOWQOS = true
      · simp only [if_pos hen]
        rfl
      · simp only [if_neg hen]
        by_cases hnum : w.2.CT_NUM = 0
        · simp only [lend, Core.lend, hnum, if_true]
          rfl
        · have hnum' : (lend w r).2.CT_NUM ≠ 0 := hnum
          simp only [if_neg hnum, if_neg hnum']
          have hadd := offloadEntry_lend (s := { w.2 with attr := attr' }) (r := r) (c := c) env.outcome
          rw [show ({ (lend w r).2 with attr := attr' } : Core σ) = Core.lend { w.2 with attr := attr' } r from rfl,
            hadd]
          cases offloadEntry { w.2 with attr := attr' } c env.outcome with
          | error e => rfl
          | ok x =>
            simp only [Except.map]
            split <;> rfl
    · simp only [if_neg hready]
      rfl

/-! ### Packets -/

theorem flushTimer_lend : flushTimer (lend w r) c env = (flushTimer w c env).map (lend · r) := by
  unfold flushTimer
  simp only [show (lend w r).2.ctx = w.2.ctx from rfl, show (lend w r).2.attr = w.2.attr from rfl,
    show (lend w r).1 = w.1 from rfl]
  split
  · cases flowQoSTimerReset w.1 c ((w.2.ctx c).entry.expireTime * 1000).toNat <;> rfl
  · rfl

theorem forward_lend :
    forward m (lend w r) c env = (forward m w c env).map fun x => (x.1, lend x.2 r) := by
  unfold forward
  have hcount : ((lend w r).1, (lend w r).2.setCtx c { (lend w r).2.ctx c with
        pktCount := ((lend w r).2.ctx c).pktCount + 1 }) =
      lend (w.1, w.2.setCtx c { w.2.ctx c with pktCount := (w.2.ctx c).pktCount + 1 }) r := rfl
  simp only [hcount, offloadConn_lend]
  cases offloadConn (w.1, w.2.setCtx c { w.2.ctx c with pktCount := (w.2.ctx c).pktCount + 1 }) c env with
  | error e => rfl
  | ok w₁ =>
    simp only [bind, Except.bind, Except.map, show (lend w₁ r).2.ctx = w₁.2.ctx from rfl]
    cases (w₁.2.ctx c).entry.pipe with
    | none => rfl
    | some pipe =>
      simp only [packetModifyer, flushTimer_lend]
      cases flushTimer w₁ c env <;> rfl

/-- The pool gives the same context. -/
theorem mempoolGet_lend (s : Core σ) (env : PacketEnv ε) : mempoolGet (s.lend r) (env.drawn s.pool).ctx =
    (mempoolGet s env.ctx).map fun x => (x.1, x.2.lend r) := by
  unfold mempoolGet PacketEnv.drawn
  cases env.ctx with
  | none => rfl
  | some c =>
    by_cases hc : c ∈ s.pool
    · have hin : c ∈ (s.lend r).pool := List.mem_append_left r hc
      simp only [Option.filter_some, decide_eq_true hc, if_true, if_pos hc, if_pos hin, Option.map_some]
      simp only [Core.lend, List.erase_append_left r hc]
    · simp [Option.filter_some, hc]

theorem addConnToHash_lend {e : FlowQoSEntry} {conn : Conn} :
    addConnToHash (lend w r) e conn (env.drawn w.2.pool) =
      (addConnToHash w e conn env).map fun x => (x.1, lend x.2 r) := by
  unfold addConnToHash
  have hget := mempoolGet_lend (r := r) w.2 env
  simp only [show (lend w r).2 = w.2.lend r from rfl, hget]
  cases mempoolGet w.2 env.ctx with
  | none => rfl
  | some x =>
    simp only [Option.map_some, show (env.drawn w.2.pool).hash = env.hash from rfl,
      show (env.drawn w.2.pool).start_tsc = env.start_tsc from rfl,
      show (x.2.lend r).ctx = x.2.ctx from rfl, show (lend w r).1 = w.1 from rfl]
    split
    · cases attachTimer w.1 x.1 ((x.2.ctx x.1).fill x.1 e env.start_tsc).entry <;> rfl
    · rfl

theorem openConn_lend {e : FlowQoSEntry} : openConn P m e (env.drawn w.2.pool) (lend w r) =
    (openConn P m e env w).map fun x => (x.1, lend x.2 r) := by
  unfold openConn
  cases P.newConn_handler with
  | none => rfl
  | some f =>
    simp only [show (env.drawn w.2.pool).app = env.app from rfl, show (lend w r).2.app = w.2.app from rfl]
    cases f env.app e w.2.app with
    | error e => rfl
    | ok x =>
      simp only [bind, Except.bind]
      split
      · rfl
      · exact addConnToHash_lend (w := (w.1, w.2.accept m.port e.match_ x.2.2))

theorem packet_lend : conntrackPacketProcessor P m (env.drawn w.2.pool) (lend w r) =
    (conntrackPacketProcessor P m env w).map fun x => (x.1, lend x.2 r) := by
  unfold conntrackPacketProcessor
  simp only [show (lend w r).2.attr = w.2.attr from rfl]
  split
  · cases packetParser w.2.attr m with
    | none => rfl
    | some e =>
      simp only [show findConnFromHash (lend w r).2 e = findConnFromHash w.2 e from rfl]
      cases findConnFromHash w.2 e with
      | some c =>
        simp only
        exact forward_lend
      | none =>
        simp only [openConn_lend]
        cases openConn P m e env w with
        | error e => rfl
        | ok x =>
          obtain ⟨o, w₁⟩ := x
          cases o with
          | none => rfl
          | some c => exact forward_lend
  · rfl

/-! ### Rounds of the scheduler -/

theorem delEntryEvent_lend : delEntryEvent (s.lend r) c = (delEntryEvent s c).map (Core.lend · r) := by
  unfold delEntryEvent
  simp only [show (s.lend r).ctx = s.ctx from rfl, show (s.lend r).qos = s.qos from rfl]
  split <;> rfl

theorem congestion_lend : congestion (s.lend r) = (congestion s).lend r := by
  unfold congestion
  simp only [show (s.lend r).qos = s.qos from rfl, show (s.lend r).attr = s.attr from rfl,
    show (s.lend r).congestionHandler = s.congestionHandler from rfl]
  -- the conditions of the two sides are the same, up to the pool
  split_ifs
  all_goals first
    | rfl
    | rename_i h h'; first | exact absurd h h' | exact absurd h' h

theorem qosLoop_lend {i : ℕ} {outcome : CtxId → Outcome} : ∀ (rest : List CtxId) (weight res : ℤ)
    (w : World σ), qosLoop i outcome rest weight res (lend w r) =
      (qosLoop i outcome rest weight res w).map fun x => (x.1, x.2.1, lend x.2.2 r)
  | [], _, _, _ => rfl
  | c :: rest, weight, res, w => by
    unfold qosLoop
    simp only [show (lend w r).2 = w.2.lend r from rfl, show (w.2.lend r).qos = w.2.qos from rfl,
      offloadEntry_lend]
    split
    · rfl
    · cases offloadEntry w.2 c (outcome c) with
      | error e => rfl
      | ok x =>
        obtain ⟨ret, s⟩ := x
        simp only [bind, Except.bind, Except.map, show (s.lend r).ctx = s.ctx from rfl]
        split
        · rfl
        · cases (s.ctx c).entry.flowQoS_qosHandler with
          | none => rfl
          | some f =>
            cases (s.ctx c).entry.flowQoS_args with
            | none => rfl
            | some arg =>
              have hspend : spendEntry (qosHandler ((lend w r).1, s.lend r) arg).2 i =
                  (spendEntry (qosHandler (w.1, s) arg).2 i).lend r := rfl
              simp only [hspend, congestion_lend, delEntryEvent_lend]
              cases delEntryEvent (congestion (spendEntry (qosHandler (w.1, s) arg).2 i)) c with
              | error e => rfl
              | ok s' => exact qosLoop_lend rest _ _ ((qosHandler (w.1, s) arg).1, s')

theorem qosQueues_lend {outcome : CtxId → Outcome} : ∀ (is : List ℕ) (res : ℤ) (w : World σ),
    qosQueues outcome is res (lend w r) =
      (qosQueues outcome is res w).map fun x => (x.1, x.2.1, lend x.2.2 r)
  | [], _, _ => rfl
  | i :: is, res, w => by
    unfold qosQueues
    simp only [show (lend w r).2.qos = w.2.qos from rfl, qosLoop_lend]
    cases qosLoop i outcome (w.2.qos.buckets i) (w.2.qos.weight i) res w with
    | error e => rfl
    | ok x =>
      simp only [bind, Except.bind, Except.map]
      split
      · exact qosQueues_lend is _ _
      · rfl

theorem doEntryEvent_lend {cur : UInt64} {outcome : CtxId → Outcome} :
    doEntryEvent cur outcome (lend w r) = (doEntryEvent cur outcome w).map fun x => (x.1, lend x.2 r) := by
  unfold doEntryEvent
  simp only [show (lend w r).2.qos = w.2.qos from rfl, qosQueues_lend]
  split
  · cases qosQueues outcome (List.range w.2.qos.priorityQueueNum).reverse 0 w with
    | error e => rfl
    | ok x =>
      simp only [bind, Except.bind, Except.map]
      split <;> rfl
  · rfl

/-! ### The end of a connection -/

theorem agingConn_lend : agingConn P (s.lend r) c = (agingConn P s c).map (Core.lend · r) := by
  unfold agingConn
  cases P.agingConn_handler with
  | none => rfl
  | some f =>
    simp only [show ((s.lend r).log (.ended ((s.lend r).conns c).id)).ctx = s.ctx from rfl,
      show ((s.lend r).log (.ended ((s.lend r).conns c).id)).app = s.app from rfl,
      show (s.log (.ended (s.conns c).id)).ctx = s.ctx from rfl,
      show (s.log (.ended (s.conns c).id)).app = s.app from rfl]
    cases f (s.ctx c).entry s.app <;> rfl

theorem connExpireSw_lend : connExpireSw P c (s.lend r) = (connExpireSw P c s).map (Core.lend · r) := by
  unfold connExpireSw
  have hdel : delConnFromHash (s.lend r) c = (delConnFromHash s c).lend r := rfl
  simp only [hdel, show ((delConnFromHash s c).lend r).attr = (delConnFromHash s c).attr from rfl,
    show ((delConnFromHash s c).lend r).ctx = (delConnFromHash s c).ctx from rfl, delEntryEvent_lend]
  split
  · cases delEntryEvent (delConnFromHash s c) c with
    | error e => rfl
    | ok s' => exact agingConn_lend
  · exact agingConn_lend

theorem connExpireHw_lend : connExpireHw P c (s.lend r) = (connExpireHw P c s).map (Core.lend · r) := by
  unfold connExpireHw
  have hdel : delConnFromHash (s.lend r) c = (delConnFromHash s c).lend r := rfl
  simp only [hdel, show ((delConnFromHash s c).lend r).attr = (delConnFromHash s c).attr from rfl,
    show ((delConnFromHash s c).lend r).ctx = (delConnFromHash s c).ctx from rfl]
  split
  · exact agingConn_lend (s := returnEntryEvent (delConnFromHash s c))
  · exact agingConn_lend (s := { delConnFromHash s c with CT_NUM := (delConnFromHash s c).CT_NUM + 1 })

theorem agedStep_lend (aged : HwEntry × Bool) :
    agedStep P (s.lend r) aged = (agedStep P s aged).map (Core.lend · r) := by
  unfold agedStep
  cases aged.1.user_data with
  | none => rfl
  | some c =>
    simp only [show (s.lend r).hw = s.hw from rfl, show (s.lend r).ctx = s.ctx from rfl]
    cases s.hw.rmEntry (s.ctx c).entry.entry aged.2 with
    | none => rfl
    | some hw =>
      simp only
      cases (s.ctx c).entry.cb with
      | none => rfl
      | some cb =>
        cases cb
        cases (s.ctx c).entry.cb_args with
        | none => rfl
        | some arg => exact connExpireHw_lend (s := { s with hw := hw })

theorem agingHandle_lend {reports : List (Handle × Bool)} :
    agingHandle P reports (s.lend r) = (agingHandle P reports s).map (Core.lend · r) :=
  foldlM_map (g := (Core.lend · r)) (fun _ aged => agedStep_lend aged) _
    { s with hw := s.hw.report (reports.map Prod.fst) }

theorem connAgingHandle_lend {reports : ℕ → List (Handle × Bool)} :
    connAgingHandle P reports (s.lend r) = (connAgingHandle P reports s).map (Core.lend · r) :=
  foldlM_map (g := (Core.lend · r)) (fun _ _ => agingHandle_lend) _ s

/-! ### Events -/

theorem fire_lend (x : Mgr × CtxId) :
    fire (fired P) (s.lend r) x = (fire (fired P) s x).map (Core.lend · r) := by
  unfold fire fired
  cases (x.1.timers x.2).cb with
  | none => rfl
  | some cb =>
    cases (x.1.timers x.2).cb_args with
    | none => rfl
    | some c => exact connExpireSw_lend

theorem tick_lend (hmgr : MgrInv w.1) (hT : w.1.timeout + 68719476735 < 2 ^ 64)
    (hlt : ∀ t ∈ armedSet w.1, t < P.maxConntrack) {rdtsc : ℕ} :
    flowQoSTimerTick (timerCallback P) (P.maxConntrack + 1) P.GAP rdtsc (lend w r) =
      (flowQoSTimerTick (timerCallback P) (P.maxConntrack + 1) P.GAP rdtsc w).map
        fun x => (x.1, lend x.2 r) := by
  obtain ⟨mgr, s⟩ := w
  unfold flowQoSTimerTick
  by_cases hdue : (mgr.startStmp + mgr.timeout * P.GAP) % 2 ^ 64 < rdtsc
  · have hdue' : ((lend (mgr, s) r).1.startStmp + (lend (mgr, s) r).1.timeout * P.GAP) % 2 ^ 64 < rdtsc := hdue
    rw [if_pos hdue, if_pos hdue']
    obtain ⟨mgr', due, htick, -⟩ := hmgr.timerTick (inert_timerCallback (P := P)) hT hlt
    show timerTick (timerCallback P) (P.maxConntrack + 1) (mgr, s.lend r) = _
    rw [htick, htick, foldlM_map (g := (Core.lend · r)) fun _ x => fire_lend x]
    cases due.foldlM (fire (fired P)) s <;> rfl
  · rw [if_neg hdue, if_neg (show ¬ ((lend (mgr, s) r).1.startStmp +
      (lend (mgr, s) r).1.timeout * P.GAP) % 2 ^ 64 < rdtsc from hdue)]
    rfl

/-- **An event goes on in the same way with a longer pool**, and leaves the further contexts there. -/
theorem step_lend (hmgr : MgrInv w.1) (hT : w.1.timeout + 68719476735 < 2 ^ 64)
    (hlt : ∀ t ∈ armedSet w.1, t < P.maxConntrack) (e : Event σ ε) :
    step P (lend w r) (e.drawn w.2.pool) = (step P w e).map (lend · r) := by
  cases e with
  | packet m env =>
    simp only [Event.drawn, step, packet_lend]
    cases conntrackPacketProcessor P m env w <;> rfl
  | tick rdtsc =>
    simp only [Event.drawn, step, tick_lend hmgr hT hlt]
    cases flowQoSTimerTick (timerCallback P) (P.maxConntrack + 1) P.GAP rdtsc w <;> rfl
  | qos rdtsc outcome =>
    simp only [Event.drawn, step, doEntryEvent_lend, show (lend w r).2.attr = w.2.attr from rfl]
    split
    · cases doEntryEvent rdtsc outcome w <;> rfl
    · rfl
  | aging reports =>
    simp only [Event.drawn, step, show (lend w r).2 = w.2.lend r from rfl, connAgingHandle_lend]
    cases connAgingHandle P reports w.2 <;> rfl
  | app app => rfl

end FlowQoS.Conntrack
