import FlowQoS.Conntrack.Defs
import FlowQoS.Timer.Wheel

/-!
# Accesses to the contexts

The worker cores take their contexts from one pool and put them back, and the fields of a context are
in memory that every core can reach. For each function that gets to a context, the accesses it makes:
what it takes from the pool and puts back, and the contexts whose fields it reads or writes, in order.

A context's timer is linked into the wheel, and its entry into a queue of the scheduler, so that an
operation on one of these can go to the links of the others.

`System` is the pool, the contexts and the cores; `System.step` is an event of one core, with a log of
the accesses.
-/

namespace FlowQoS.Conntrack

open Pipe Timer

/-- The fields of a context; `index` is the queue link of its entry. -/
inductive CtxField where
  | entry
  | index
  | timer
  | startTimeStmp
  | lastResetTimerStmp
  | pktCount
  | ct_state
  deriving DecidableEq

/-- `rte_mempool_get`, `rte_mempool_put`, or a read or write of a field. -/
inductive CtxAccess where
  | get (c : CtxId)
  | put (c : CtxId)
  | use (c : CtxId) (field : CtxField)
  deriving DecidableEq

variable {σ ε : Type}

/-- The links of the timers that run. -/
def wheelAccesses (P : Params σ ε) (mgr : Mgr) : List CtxAccess :=
  ((List.range P.maxConntrack).filter fun t => Armed mgr t).map fun t => .use t .timer

/-- The links of the entries in a queue. -/
def queueAccesses (s : Core σ) (p : ℕ) : List CtxAccess :=
  (s.qos.buckets p).map fun c => .use c .index

/-! ### The end of a connection -/

/-- `flowQoS_del_entry_event`. -/
def delEntryAccesses (s : Core σ) (c : CtxId) : List CtxAccess :=
  [.use c .entry, .use c .index] ++ queueAccesses s (s.ctx c).entry.priority.toNat

/-- `flowQoS_delConnFromHash`. -/
def delConnAccesses (c : CtxId) : List CtxAccess := [.use c .entry, .put c]

/-- The call of `agingConn_handler`, which is given the entry. -/
def agingConnAccesses (P : Params σ ε) (c : CtxId) : List CtxAccess :=
  if P.agingConn_handler.isSome then [.use c .entry] else []

/-- `flowQoS_conn_expire_sw_cb`. -/
def connExpireSwAccesses (P : Params σ ε) (c : CtxId) (s : Core σ) : List CtxAccess :=
  delConnAccesses c ++ [.use c .startTimeStmp] ++
    (if s.attr.ENABLE_FLOWQOS then [.use c .ct_state] else []) ++
    (if s.attr.ENABLE_FLOWQOS ∧ (s.ctx c).ct_state = .FLOW_QOS_STATE then delEntryAccesses s c else []) ++
    agingConnAccesses P c

/-- `flowQoS_conn_expire_hw_cb`. -/
def connExpireHwAccesses (P : Params σ ε) (c : CtxId) (s : Core σ) : List CtxAccess :=
  delConnAccesses c ++ [.use c .startTimeStmp] ++
    (if s.attr.ENABLE_FLOWQOS then [.use c .ct_state] else []) ++ agingConnAccesses P c

/-- The timer callback, with the accesses of the tick so far. -/
def timerCallbackAccesses (P : Params σ ε) :
    Callback CtxId TimerCallback CtxId (Core σ × List CtxAccess) :=
  fun _ timer s =>
    match (s.1.timers timer).cb_args with
    | none => .error .nullPointer
    | some c =>
      (connExpireSw P c s.2.1).map fun core => (s.1, core, s.2.2 ++ connExpireSwAccesses P c s.2.1)

/-- `flowQoS_timer_tick`. -/
def tickAccesses (P : Params σ ε) (rdtsc : ℕ) (w : World σ) : List CtxAccess :=
  if (w.1.startStmp + w.1.timeout * P.GAP) % 2 ^ 64 < rdtsc then
    wheelAccesses P w.1 ++
      match timerTick (timerCallbackAccesses P) (P.maxConntrack + 1) (w.1, w.2, []) with
      | .ok r => r.2.2.2
      | .error _ => []
  else []

/-- The body of the loop of `flowQoS_aging_handle`. -/
def agedStepAccesses (P : Params σ ε) (s : Core σ) (aged : HwEntry × Bool) : List CtxAccess :=
  match aged.1.user_data with
  | none => []
  | some c =>
    .use c .entry ::
      match s.hw.rmEntry (s.ctx c).entry.entry aged.2 with
      | none => []
      | some _ =>
        match (s.ctx c).entry.cb, (s.ctx c).entry.cb_args with
        | some .flowQoS_conn_expire_hw_cb, some c => connExpireHwAccesses P c s
        | _, _ => []

def agedAccesses (P : Params σ ε) : List (HwEntry × Bool) → Core σ → List CtxAccess
  | [], _ => []
  | aged :: rest, s => agedStepAccesses P s aged ++
    match agedStep P s aged with
    | .ok s => agedAccesses P rest s
    | .error _ => []

/-- `flowQoS_aging_handle`. -/
def agingHandleAccesses (P : Params σ ε) (reports : List (Handle × Bool)) (s : Core σ) : List CtxAccess :=
  let s := { s with hw := s.hw.report (reports.map Prod.fst) }
  agedAccesses P (agedEntries s.hw reports) s

/-- `flowQoS_conn_aging_handle`, for the ports left. -/
def portAccesses (P : Params σ ε) (reports : ℕ → List (Handle × Bool)) : List ℕ → Core σ → List CtxAccess
  | [], _ => []
  | i :: is, s => agingHandleAccesses P (reports i) s ++
    match agingHandle P (reports i) s with
    | .ok s => portAccesses P reports is s
    | .error _ => []

/-! ### Offloading -/

/-- `flowQoS_qosHandler`. -/
def qosHandlerAccesses (P : Params σ ε) (w : World σ) (c : CtxId) : List CtxAccess :=
  [.use c .entry] ++
    (if (w.2.ctx c).entry.action.flags ^^^ AGING ≠ 0 then .use c .timer :: wheelAccesses P w.1 else []) ++
    [.use c .ct_state]

/-- The context is handed to the scheduler. -/
def enqueueAccesses (s : Core σ) (c : CtxId) : List CtxAccess :=
  [.use c .entry, .use c .index] ++ queueAccesses s ((s.ctx c).entry.priority % 4).toNat ++
    [.use c .ct_state]

/-- `flowQoS_offload_conn`. -/
def offloadConnAccesses (P : Params σ ε) (w : World σ) (c : CtxId) (env : PacketEnv ε) :
    List CtxAccess :=
  match filterRuntimeTune w.2.attr env.tune_tsc with
  | .error _ => []
  | .ok attr =>
    let (ready, attr) := shouldOffloadCt attr (w.2.ctx c) env.offload_tsc
    let s : Core σ := { w.2 with attr := attr }
    [.use c .startTimeStmp, .use c .ct_state, .use c .pktCount] ++
      if ready then
        if attr.ENABLE_FLOWQOS then enqueueAccesses s c
        else if s.CT_NUM = 0 then []
        else
          .use c .entry ::
            match offloadEntry s c env.outcome with
            | .error _ => []
            | .ok (ret, s) => if ret ≠ 0 then qosHandlerAccesses P (w.1, s) c else []
      else []

/-- The loop of `flowQoS_do_entry_event` over queue `i`. -/
def qosLoopAccesses (P : Params σ ε) (i : ℕ) (outcome : CtxId → Outcome) :
    List CtxId → ℤ → World σ → List CtxAccess
  | [], _, _ => []
  | c :: rest, weight, w =>
    if weight ≤ 0 ∨ w.2.qos.maxEntry ≤ 0 then []
    else
      .use c .entry ::
        match offloadEntry w.2 c (outcome c) with
        | .error _ => []
        | .ok (ret, s) =>
          if ret ≤ 0 then []
          else
            match (s.ctx c).entry.flowQoS_args with
            | none => []
            | some arg =>
              let w' := qosHandler (w.1, s) arg
              let s' := congestion (spendEntry w'.2 i)
              qosHandlerAccesses P (w.1, s) arg ++ delEntryAccesses s' c ++
                match delEntryEvent s' c with
                | .ok s => qosLoopAccesses P i outcome rest (weight - 1) (w'.1, s)
                | .error _ => []

def qosQueuesAccesses (P : Params σ ε) (outcome : CtxId → Outcome) :
    List ℕ → ℤ → World σ → List CtxAccess
  | [], _, _ => []
  | i :: is, res, w => qosLoopAccesses P i outcome (w.2.qos.buckets i) (w.2.qos.weight i) w ++
    match qosLoop i outcome (w.2.qos.buckets i) (w.2.qos.weight i) res w with
    | .ok (res, goes, w) => if goes then qosQueuesAccesses P outcome is res w else []
    | .error _ => []

/-- `flowQoS_do_entry_event`. -/
def doEntryAccesses (P : Params σ ε) (cur : UInt64) (outcome : CtxId → Outcome) (w : World σ) :
    List CtxAccess :=
  if cur - w.2.qos.lastStmp > w.2.qos.gap then
    qosQueuesAccesses P outcome (List.range w.2.qos.priorityQueueNum).reverse 0 w
  else []

/-! ### Packets -/

/-- `flowQoS_addConnToHash`. -/
def addConnAccesses (P : Params σ ε) (w : World σ) (newEntry : FlowQoSEntry) (env : PacketEnv ε) :
    List CtxAccess :=
  match mempoolGet w.2 env.ctx with
  | none => []
  | some (c, _) =>
    if env.hash then
      [.get c, .use c .entry] ++
        (if newEntry.action.flags ^^^ AGING ≠ 0 then
          .use c .timer :: wheelAccesses P w.1 ++ [.use c .startTimeStmp, .use c .entry]
        else []) ++
        [.use c .pktCount, .use c .ct_state]
    else [.get c, .put c]

/-- `flowQoS_packet_modifyer`. -/
def packetModifyerAccesses (P : Params σ ε) (w : World σ) (c : CtxId) (env : PacketEnv ε) :
    List CtxAccess :=
  let x := w.2.ctx c
  [.use c .entry] ++
    if x.entry.action.flags &&& AGING ≠ 0 then
      [.use c .lastResetTimerStmp, .use c .ct_state] ++
        if env.flush_tsc - x.lastResetTimerStmp > w.2.attr.CPU_HZ ∧ x.ct_state ≠ .HW_FWD_STATE then
          .use c .timer :: wheelAccesses P w.1
        else []
    else []

/-- A packet of a connection in the table. -/
def forwardAccesses (P : Params σ ε) (w : World σ) (c : CtxId) (env : PacketEnv ε) : List CtxAccess :=
  let x := w.2.ctx c
  let w := (w.1, w.2.setCtx c { x with pktCount := x.pktCount + 1 })
  .use c .pktCount :: offloadConnAccesses P w c env ++
    match offloadConn w c env with
    | .error _ => []
    | .ok w => .use c .entry :: packetModifyerAccesses P w c env

/-- A packet of a connection that is not in the table. -/
def openConnAccesses (P : Params σ ε) (newEntry : FlowQoSEntry) (env : PacketEnv ε) (w : World σ) :
    List CtxAccess :=
  match P.newConn_handler with
  | none => []
  | some newConn_handler =>
    match newConn_handler env.app newEntry w.2.app with
    | .error _ => []
    | .ok (port, newEntry, _) => if port < 0 then [] else addConnAccesses P w newEntry env

/-- `flowQoS_conntrack_packet_processor`. -/
def packetAccesses (P : Params σ ε) (m : Mbuf) (env : PacketEnv ε) (w : World σ) : List CtxAccess :=
  if w.2.attr.PORT_CT_ENABLED m.port then
    match packetParser w.2.attr m with
    | none => []
    | some newEntry =>
      match findConnFromHash w.2 newEntry with
      | some c => forwardAccesses P w c env
      | none => openConnAccesses P newEntry env w ++
        match openConn P m newEntry env w with
        | .ok (some c, w) => forwardAccesses P w c env
        | _ => []
  else []

/-! ### The system -/

/-- The accesses of an event. -/
def accesses (P : Params σ ε) (w : World σ) : Event σ ε → List CtxAccess
  | .packet m env => packetAccesses P m env w
  | .tick rdtsc => tickAccesses P rdtsc w
  | .qos rdtsc outcome => if w.2.attr.ENABLE_FLOWQOS then doEntryAccesses P rdtsc outcome w else []
  | .aging reports =>
    portAccesses P reports ((List.range maxEthPorts).filter w.2.attr.PORT_CT_ENABLED) w.2
  | .app _ => []

/-- The cores, with the pool and the contexts that they share, and the log of their accesses. -/
structure System (σ : Type) where
  pool : List CtxId
  ctx : CtxId → ConnContext
  core : ℕ → World σ
  log : List (ℕ × CtxAccess)

/-- A core with the shared pool and contexts. -/
def System.view (sys : System σ) (i : ℕ) : World σ :=
  ((sys.core i).1, { (sys.core i).2 with pool := sys.pool, ctx := sys.ctx })

/-- An event of core `i`. -/
def System.step (P : Params σ ε) (sys : System σ) (i : ℕ) (e : Event σ ε) : Except Fault (System σ) :=
  (Conntrack.step P (sys.view i) e).map fun w =>
    { pool := w.2.pool
      ctx := w.2.ctx
      core := Function.update sys.core i w
      log := sys.log ++ (accesses P (sys.view i) e).map fun a => (i, a) }

/-- The system after the initialisation. -/
def System.boot (a : InitArgs) (ports : List (ℕ × UInt64)) (app : σ) : System σ where
  pool := List.range a.maxConntrack
  ctx := fun _ => {}
  core := fun _ => Conntrack.boot a ports app
  log := []

/-- The core that has taken a context from the pool and not put it back. -/
def holder (log : List (ℕ × CtxAccess)) : CtxId → Option ℕ :=
  log.foldl (fun h a =>
    match a.2 with
    | .get c => Function.update h c (some a.1)
    | .put c => Function.update h c none
    | .use _ _ => h) fun _ => none

/-- Every read and write of a field is made by the core that has taken the context. -/
def Safe (log : List (ℕ × CtxAccess)) : Prop :=
  ∀ l i c field l', log = l ++ (i, .use c field) :: l' → holder l c = some i

end FlowQoS.Conntrack
