import FlowQoS.Pipe.Defs
import FlowQoS.Timer.Defs
import Mathlib.Algebra.Group.Int.Defs

/-!
# The connection tracker (`flowQoS_conntrack.c`) and its scheduler (`flowQoS_qos.c`)

A worker core keeps its connections in a table from the match of a packet to a context from a pool. A
context starts in software: its timer runs, and packets start it again. It is offloaded either at
once (direct mode) or through the priority queue of a scheduler with a budget of hardware entries
(QoS mode). A context leaves the table when its timer fires or when the hardware reports its entry.

The applications' handlers are parameters. What the driver, the pool, the hash table and the
timestamp counter answer is part of each event. Beside the code's state, `conns` records for each
context the number of the accepted connection it was last taken for and the port of the packet that
opened it, and `events` what became of the connections.
-/

namespace FlowQoS.Conntrack

open Pipe Timer

def maxEthPorts : ℕ := 2
def dropPackets : ℤ := -1
def ignorePackets : ℤ := -2
def L4_TCP : UInt8 := 6
def L4_UDP : UInt8 := 17
def maxPriorityQueueNum : ℕ := 8
def flowQoSHwWatermarkPercent : ℤ := 80
def connschedDefaultPacketThreshold : UInt64 := 136
def connschedDefaultDeltaTimeUs : UInt64 := 1000
def connschedTuningWindowUs : UInt64 := 1000000
def connschedDefaultMaxTthSec : UInt64 := 10

inductive CtState where
  | SW_FWD_STATE
  | FLOW_QOS_STATE
  | HW_FWD_STATE
  deriving DecidableEq

/-- `FlowQoS_CONN_CONTEXT`; the timer of a context is in the manager, under the same name. -/
structure ConnContext where
  entry : FlowQoSEntry := {}
  startTimeStmp : UInt64 := 0
  lastResetTimerStmp : UInt64 := 0
  pktCount : UInt64 := 0
  ct_state : CtState := .SW_FWD_STATE

/-- `FlowQoS_CONN_ATTR` without the handlers. -/
structure ConnAttr where
  TCP_PIPE : ℕ → Option FlowQoSPipe := fun _ => none
  UDP_PIPE : ℕ → Option FlowQoSPipe := fun _ => none
  ActionFlags : ℕ → UInt64 := fun _ => 0
  TCP_MatchFlags : UInt64 := SIP ||| DIP ||| TCP ||| SPORT ||| DPORT
  UDP_MatchFlags : UInt64 := SIP ||| DIP ||| UDP ||| SPORT ||| DPORT
  PORT_CT_ENABLED : ℕ → Bool := fun _ => false
  CPU_HZ : UInt64 := 0
  CONN_OFFLOAD_TIME : UInt64 := 0
  CONN_OFFLOAD_TIME_MIN : UInt64 := 0
  CONN_OFFLOAD_TIME_MAX : UInt64 := 0
  CONN_OFFLOAD_TIME_DELTA : UInt64 := 0
  PACKET_THRESHOLD : UInt64 := 0
  FILTER_WINDOW_START : UInt64 := 0
  FILTER_WINDOW_ENQUEUED : UInt64 := 0
  FILTER_ENQUEUED_TOTAL : UInt64 := 0
  FILTER_REJECTED_TOTAL : UInt64 := 0
  MAX_OFFLOAD_SPEED : UInt64 := 0
  MaxEntry : UInt64 := 0
  MaxOffloadedEntry : UInt64 := 0
  ENABLE_FLOWQOS : Bool := false

/-- `FlowQoS_Stats`; the queues hold the entries' contexts in order. -/
structure FlowQoSStats where
  priorityQueueNum : ℕ := 0
  weight : ℕ → ℤ := fun _ => 0
  maxEntry : ℤ := 0
  maxEntryLimit : ℤ := 0
  hwWatermarkPercent : ℤ := 0
  hwCongested : ℤ := 0
  total : ℕ → UInt64 := fun _ => 0
  finished : ℕ → UInt64 := fun _ => 0
  gap : UInt64 := 0
  lastStmp : UInt64 := 0
  buckets : ℕ → List CtxId := fun _ => []

/-- The connection a context was taken for. -/
structure Conn where
  id : ℕ := 0
  port : ℕ := 0
  deriving DecidableEq

/-- What becomes of a connection: `newConn_handler` has accepted it, it has then got no context or no
place in the table, or it has ended, which `agingConn_handler`, where it is registered, is told. -/
inductive ConnEvent where
  | accepted (id port : ℕ) (match_ : FlowQoSMatch)
  | lost (id : ℕ)
  | ended (id : ℕ)
  deriving DecidableEq

/-- The state of a worker core without its timers. -/
structure Core (σ : Type) where
  attr : ConnAttr
  qos : FlowQoSStats
  /-- `qosCongestionHandler` is registered. -/
  congestionHandler : Bool
  pool : List CtxId
  ctx : CtxId → ConnContext
  CT : FlowQoSMatch → Option CtxId
  CT_NUM : UInt64
  hw : Hardware
  app : σ
  conns : CtxId → Conn
  accepted : ℕ
  events : List ConnEvent

inductive TimerCallback where
  | flowQoS_conn_expire_sw_cb
  deriving DecidableEq

abbrev Mgr := FlowQoSTimerMgr CtxId TimerCallback CtxId

/-- The state of a worker core: its timer manager and the rest. -/
abbrev World (σ : Type) := Mgr × Core σ

/-- What does not change in a run: the handlers of the application, the size of the pool, and the
ticks' distance on the timestamp counter. `ε` is what the application's environment answers. -/
structure Params (σ ε : Type) where
  newConn_handler : Option (ε → FlowQoSEntry → σ → Except Fault (ℤ × FlowQoSEntry × σ))
  agingConn_handler : Option (FlowQoSEntry → σ → Except Fault σ)
  maxConntrack : ℕ
  GAP : ℕ

/-- A packet: what the tracker reads and writes of it. -/
structure Mbuf where
  port : ℕ
  /-- `RTE_ETH_IS_IPV4_HDR(packet_type)`. -/
  ipv4 : Bool := true
  rss : UInt32 := 0
  s_addr : EtherAddr := 0
  d_addr : EtherAddr := 0
  src_addr : UInt32 := 0
  dst_addr : UInt32 := 0
  next_proto_id : UInt8 := 0
  type_of_service : UInt8 := 0
  time_to_live : UInt8 := 64
  hdr_checksum : UInt16 := 0
  sport : UInt16 := 0
  dport : UInt16 := 0
  /-- The checksum of the TCP or UDP header. -/
  cksum : UInt16 := 0
  PKT_TX_IPV4 : Bool := false
  PKT_TX_IP_CKSUM : Bool := false
  PKT_TX_TCP_CKSUM : Bool := false
  PKT_TX_UDP_CKSUM : Bool := false
  deriving DecidableEq

/-- What the environment answers while a packet is processed: the free context the pool gives, if any,
whether the table takes the key, the driver's answer to an insertion, and the readings of the
timestamp counter in their order. -/
structure PacketEnv (ε : Type) where
  app : ε
  ctx : Option CtxId
  hash : Bool
  outcome : Outcome
  start_tsc : UInt64
  tune_tsc : UInt64
  offload_tsc : UInt64
  flush_tsc : UInt64
  reset_tsc : UInt64

variable {σ ε : Type}

def Core.setCtx (s : Core σ) (c : CtxId) (x : ConnContext) : Core σ :=
  { s with ctx := Function.update s.ctx c x }

def Core.log (s : Core σ) (e : ConnEvent) : Core σ := { s with events := s.events ++ [e] }

/-! ### The scheduler's queues -/

/-- `flowQoS_add_entry_event`. -/
def addEntryEvent (s : Core σ) (c : CtxId) (priority : UInt64) : Core σ :=
  let x := s.ctx c
  let p := priority.toNat
  { s.setCtx c { x with entry := { x.entry with priority := priority } } with
    qos := { s.qos with
      buckets := Function.update s.qos.buckets p (s.qos.buckets p ++ [c])
      total := Function.update s.qos.total p (s.qos.total p + 1) } }

/-- `flowQoS_del_entry_event`: the entry has to be in the queue of its priority. -/
def delEntryEvent (s : Core σ) (c : CtxId) : Except Fault (Core σ) :=
  let p := (s.ctx c).entry.priority.toNat
  if c ∈ s.qos.buckets p then
    .ok { s with qos := { s.qos with
      buckets := Function.update s.qos.buckets p ((s.qos.buckets p).erase c) } }
  else .error .nullPointer

/-- `flowQoS_return_entry_event`. -/
def returnEntryEvent (s : Core σ) : Core σ :=
  let maxEntry := s.qos.maxEntry + 1
  { s with qos := { s.qos with
    maxEntry := if maxEntry > s.qos.maxEntryLimit then s.qos.maxEntryLimit else maxEntry } }

/-! ### The table -/

/-- `flowQoS_findConnFromHash`. -/
def findConnFromHash (s : Core σ) (newEntry : FlowQoSEntry) : Option CtxId := s.CT newEntry.match_

/-- `rte_mempool_get`: the pool gives one of its contexts, or none. -/
def mempoolGet (s : Core σ) (pick : Option CtxId) : Option (CtxId × Core σ) :=
  match pick with
  | none => none
  | some c => if c ∈ s.pool then some (c, { s with pool := s.pool.erase c }) else none

/-- `rte_mempool_put`. -/
def mempoolPut (s : Core σ) (c : CtxId) : Core σ := { s with pool := c :: s.pool }

/-- The context after `flowQoS_addConnToHash` has filled it. -/
def ConnContext.fill (x : ConnContext) (c : CtxId) (newEntry : FlowQoSEntry) (start_tsc : UInt64) :
    ConnContext :=
  let x := { x with entry := newEntry }
  let x :=
    if newEntry.action.flags ^^^ AGING ≠ 0 then
      { x with
        entry := { newEntry with
          expireTime := if newEntry.expireTime = 0 then 10 else newEntry.expireTime
          cb := some .flowQoS_conn_expire_hw_cb
          cb_args := some c }
        startTimeStmp := start_tsc }
    else x
  { x with pktCount := 0, ct_state := .SW_FWD_STATE }

/-- The timer is attached: `flowQoS_timer_add`, whose result is not looked at. -/
def attachTimer (mgr : Mgr) (c : CtxId) (entry : FlowQoSEntry) : Except Fault Mgr :=
  if entry.action.flags ^^^ AGING ≠ 0 then
    (flowQoSTimerAdd mgr c (some .flowQoS_conn_expire_sw_cb) (some c)
      (entry.expireTime * 1000).toNat).map Prod.snd
  else .ok mgr

/-- `flowQoS_addConnToHash`. -/
def addConnToHash (w : World σ) (newEntry : FlowQoSEntry) (conn : Conn) (env : PacketEnv ε) :
    Except Fault (Option CtxId × World σ) :=
  match mempoolGet w.2 env.ctx with
  | none => .ok (none, w.1, w.2.log (.lost conn.id))
  | some (c, s) =>
    if env.hash then
      let x := (s.ctx c).fill c newEntry env.start_tsc
      let s := { s.setCtx c x with
        CT := Function.update s.CT newEntry.match_ (some c)
        conns := Function.update s.conns c conn }
      (attachTimer w.1 c x.entry).map fun mgr => (some c, mgr, s)
    else .ok (none, w.1, (mempoolPut s c).log (.lost conn.id))

/-- `flowQoS_delConnFromHash`. -/
def delConnFromHash (s : Core σ) (c : CtxId) : Core σ :=
  mempoolPut { s with CT := Function.update s.CT (s.ctx c).entry.match_ none } c

/-- The end of a connection: the call of `agingConn_handler`, where it is registered. -/
def agingConn (P : Params σ ε) (s : Core σ) (c : CtxId) : Except Fault (Core σ) :=
  let s := s.log (.ended (s.conns c).id)
  match P.agingConn_handler with
  | none => .ok s
  | some agingConn_handler =>
    (agingConn_handler (s.ctx c).entry s.app).map fun app => { s with app := app }

/-- `flowQoS_conn_expire_sw_cb` for the context in `cb_args`. -/
def connExpireSw (P : Params σ ε) (c : CtxId) (s : Core σ) : Except Fault (Core σ) := do
  let s := delConnFromHash s c
  let s ← if s.attr.ENABLE_FLOWQOS ∧ (s.ctx c).ct_state = .FLOW_QOS_STATE then delEntryEvent s c
    else pure s
  agingConn P s c

/-- The timer callback. -/
def timerCallback (P : Params σ ε) : Callback CtxId TimerCallback CtxId (Core σ) :=
  fun _ timer s =>
    match (s.1.timers timer).cb_args with
    | none => .error .nullPointer
    | some c => (connExpireSw P c s.2).map fun core => (s.1, core)

/-- `flowQoS_conn_expire_hw_cb`. -/
def connExpireHw (P : Params σ ε) (c : CtxId) (s : Core σ) : Except Fault (Core σ) :=
  let s := delConnFromHash s c
  let s :=
    if s.attr.ENABLE_FLOWQOS ∧ (s.ctx c).ct_state = .HW_FWD_STATE then returnEntryEvent s
    else { s with CT_NUM := s.CT_NUM + 1 }
  agingConn P s c

/-! ### Aging of hardware entries -/

/-- The body of the loop of `flowQoS_aging_handle`, for an aged entry and whether the driver can remove
what it is asked to. -/
def agedStep (P : Params σ ε) (s : Core σ) (aged : HwEntry × Bool) : Except Fault (Core σ) :=
  match aged.1.user_data with
  | none => .error .nullPointer
  | some c =>
    match s.hw.rmEntry (s.ctx c).entry.entry aged.2 with
    | none => .ok s
    | some hw =>
      let s := { s with hw := hw }
      match (s.ctx c).entry.cb with
      | none => .ok s
      | some .flowQoS_conn_expire_hw_cb =>
        match (s.ctx c).entry.cb_args with
        | none => .error .nullPointer
        | some c => connExpireHw P c s

/-- The aged entries of a poll. -/
def agedEntries (hw : Hardware) (reports : List (Handle × Bool)) : List (HwEntry × Bool) :=
  reports.filterMap fun r => (hw.entries.find? fun e => e.handle == r.1).map fun e => (e, r.2)

/-- `flowQoS_aging_handle`. -/
def agingHandle (P : Params σ ε) (reports : List (Handle × Bool)) (s : Core σ) :
    Except Fault (Core σ) :=
  let s := { s with hw := s.hw.report (reports.map Prod.fst) }
  (agedEntries s.hw reports).foldlM (agedStep P) s

/-- `flowQoS_conn_aging_handle`. -/
def connAgingHandle (P : Params σ ε) (reports : ℕ → List (Handle × Bool)) (s : Core σ) :
    Except Fault (Core σ) :=
  ((List.range maxEthPorts).filter s.attr.PORT_CT_ENABLED).foldlM
    (fun s i => agingHandle P (reports i) s) s

/-! ### The filter -/

/-- `flowQoS_filter_runtime_tune`. -/
def filterRuntimeTune (attr : ConnAttr) (now : UInt64) : Except Fault ConnAttr :=
  if attr.ENABLE_FLOWQOS = false ∨ attr.MAX_OFFLOAD_SPEED = 0 then .ok attr
  else
    let window := attr.CPU_HZ * connschedTuningWindowUs / 1000000
    if attr.FILTER_WINDOW_START = 0 then .ok { attr with FILTER_WINDOW_START := now }
    else if now - attr.FILTER_WINDOW_START < window then .ok attr
    else
      let elapsed := now - attr.FILTER_WINDOW_START
      if elapsed = 0 then .error .divisionByZero
      else
        let enqueueRate := attr.FILTER_WINDOW_ENQUEUED * attr.CPU_HZ / elapsed
        let time :=
          if enqueueRate > attr.MAX_OFFLOAD_SPEED then
            let time := attr.CONN_OFFLOAD_TIME + attr.CONN_OFFLOAD_TIME_DELTA
            if time > attr.CONN_OFFLOAD_TIME_MAX then attr.CONN_OFFLOAD_TIME_MAX else time
          else if attr.CONN_OFFLOAD_TIME > attr.CONN_OFFLOAD_TIME_MIN + attr.CONN_OFFLOAD_TIME_DELTA then
            attr.CONN_OFFLOAD_TIME - attr.CONN_OFFLOAD_TIME_DELTA
          else attr.CONN_OFFLOAD_TIME_MIN
        .ok { attr with
          CONN_OFFLOAD_TIME := time
          FILTER_WINDOW_ENQUEUED := 0
          FILTER_WINDOW_START := now }

/-- `flowQoS_filter_congestion_cb`. -/
def filterCongestionCb (attr : ConnAttr) : ConnAttr :=
  if attr.ENABLE_FLOWQOS then
    let time := attr.CONN_OFFLOAD_TIME * 2
    { attr with CONN_OFFLOAD_TIME :=
      if time > attr.CONN_OFFLOAD_TIME_MAX then attr.CONN_OFFLOAD_TIME_MAX else time }
  else attr

/-- `flowQoS_should_offload_ct`, and the filter after it. -/
def shouldOffloadCt (attr : ConnAttr) (x : ConnContext) (now : UInt64) : Bool × ConnAttr :=
  let gap := now - x.startTimeStmp
  let ready := x.ct_state == .SW_FWD_STATE && decide (gap > attr.CONN_OFFLOAD_TIME) &&
    decide (x.pktCount > attr.PACKET_THRESHOLD)
  (ready,
    if !ready && x.ct_state == .SW_FWD_STATE then
      { attr with FILTER_REJECTED_TOTAL := attr.FILTER_REJECTED_TOTAL + 1 }
    else attr)

/-! ### Offloading -/

/-- The context is in the hardware. -/
def Core.toHw (s : Core σ) (c : CtxId) : Core σ :=
  s.setCtx c { s.ctx c with ct_state := .HW_FWD_STATE }

/-- The timer is deleted and the state changes; in the scheduler this is `flowQoS_qosHandler`. -/
def qosHandler (w : World σ) (c : CtxId) : World σ :=
  (if (w.2.ctx c).entry.action.flags ^^^ AGING ≠ 0 then flowQoSTimerDel w.1 c else w.1, w.2.toHw c)

/-- The context is handed to the scheduler. -/
def enqueueConn (s : Core σ) (c : CtxId) : Core σ :=
  let x := s.ctx c
  let s := s.setCtx c { x with entry := { x.entry with
    flowQoS_qosHandler := some .flowQoS_qosHandler
    flowQoS_args := some c } }
  let s := addEntryEvent s c (x.entry.priority % 4)
  let s := s.setCtx c { s.ctx c with ct_state := .FLOW_QOS_STATE }
  { s with attr := { s.attr with
    FILTER_WINDOW_ENQUEUED := s.attr.FILTER_WINDOW_ENQUEUED + 1
    FILTER_ENQUEUED_TOTAL := s.attr.FILTER_ENQUEUED_TOTAL + 1 } }

/-- `flowQoS_add_entry` for the entry of a context, into its own pipe. -/
def offloadEntry (s : Core σ) (c : CtxId) (o : Outcome) : Except Fault (ℤ × Core σ) :=
  match (s.ctx c).entry.pipe with
  | none => .error .nullPointer
  | some pipe =>
    let (ret, entry, hw) := addEntry pipe c (s.ctx c).entry o s.hw
    .ok (ret, { s.setCtx c { s.ctx c with entry := entry } with hw := hw })

/-- `flowQoS_offload_conn`. -/
def offloadConn (w : World σ) (c : CtxId) (env : PacketEnv ε) : Except Fault (World σ) := do
  let attr ← filterRuntimeTune w.2.attr env.tune_tsc
  let (ready, attr) := shouldOffloadCt attr (w.2.ctx c) env.offload_tsc
  let s : Core σ := { w.2 with attr := attr }
  if ready then
    if attr.ENABLE_FLOWQOS then return (w.1, enqueueConn s c)
    else if s.CT_NUM = 0 then return (w.1, s)
    else
      let (ret, s) ← offloadEntry s c env.outcome
      if ret ≠ 0 then
        let w := qosHandler (w.1, s) c
        return (w.1, { w.2 with CT_NUM := w.2.CT_NUM - 1 })
      else return (w.1, s)
  else return (w.1, s)

/-- A hardware entry of the budget is spent on queue `i`. -/
def spendEntry (s : Core σ) (i : ℕ) : Core σ :=
  { s with qos := { s.qos with
    maxEntry := s.qos.maxEntry - 1
    finished := Function.update s.qos.finished i (s.qos.finished i + 1) } }

/-- A product of two `int`. -/
def mulInt (a b : ℤ) : ℤ := (a * b).bmod (2 ^ 32)

/-- The congestion signal after an entry has been offloaded. -/
def congestion (s : Core σ) : Core σ :=
  let occupied := UInt64.ofInt (s.qos.maxEntryLimit - s.qos.maxEntry)
  let watermark := UInt64.ofInt ((mulInt s.qos.maxEntryLimit s.qos.hwWatermarkPercent).tdiv 100)
  let s :=
    if s.qos.maxEntryLimit > 0 ∧ occupied < watermark then
      { s with qos := { s.qos with hwCongested := 0 } }
    else s
  if s.qos.maxEntryLimit > 0 ∧ s.congestionHandler ∧ occupied ≥ watermark ∧ s.qos.hwCongested = 0 then
    { s with
      qos := { s.qos with hwCongested := 1 }
      attr := filterCongestionCb s.attr }
  else s

/-- The loop of `flowQoS_do_entry_event` over queue `i`, from the entries it has come to: the entries
offloaded, whether the round goes on, and the state. -/
def qosLoop (i : ℕ) (outcome : CtxId → Outcome) :
    List CtxId → ℤ → ℤ → World σ → Except Fault (ℤ × Bool × World σ)
  | [], _, res, w => .ok (res, true, w)
  | c :: rest, weight, res, w => do
    if weight ≤ 0 ∨ w.2.qos.maxEntry ≤ 0 then return (res, true, w)
    let (ret, s) ← offloadEntry w.2 c (outcome c)
    if ret ≤ 0 then return (0, false, w.1, s)
    match (s.ctx c).entry.flowQoS_qosHandler, (s.ctx c).entry.flowQoS_args with
    | some .flowQoS_qosHandler, some arg =>
      let w := qosHandler (w.1, s) arg
      let s ← delEntryEvent (congestion (spendEntry w.2 i)) c
      qosLoop i outcome rest (weight - 1) (res + ret) (w.1, s)
    | _, _ => .error .nullPointer

/-- The queues from the highest priority down; `is` are those left. -/
def qosQueues (outcome : CtxId → Outcome) : List ℕ → ℤ → World σ → Except Fault (ℤ × Bool × World σ)
  | [], res, w => .ok (res, true, w)
  | i :: is, res, w => do
    let (res, goes, w) ← qosLoop i outcome (w.2.qos.buckets i) (w.2.qos.weight i) res w
    if goes then qosQueues outcome is res w else return (res, false, w)

/-- `flowQoS_do_entry_event`: a failing insertion ends the round at once. -/
def doEntryEvent (cur : UInt64) (outcome : CtxId → Outcome) (w : World σ) :
    Except Fault (ℤ × World σ) := do
  if cur - w.2.qos.lastStmp > w.2.qos.gap then
    let (res, goes, w) ← qosQueues outcome (List.range w.2.qos.priorityQueueNum).reverse 0 w
    if goes then return (res, w.1, { w.2 with qos := { w.2.qos with lastStmp := cur } })
    else return (res, w)
  else return (0, w)

/-! ### Packets -/

/-- `flowQoS_packet_parser`: the entry of a TCP or UDP packet. -/
def packetParser (attr : ConnAttr) (m : Mbuf) : Option FlowQoSEntry :=
  if m.ipv4 then
    let newEntry : FlowQoSEntry :=
      { match_ :=
          { src_ip := m.src_addr
            dst_ip := m.dst_addr
            proto := m.next_proto_id
            src_port := m.sport
            dst_port := m.dport
            rss := m.rss }
        priority := m.type_of_service.toUInt64
        action := { flags := attr.ActionFlags m.port } }
    if m.next_proto_id = L4_TCP then
      some { newEntry with
        match_ := { newEntry.match_ with flags := attr.TCP_MatchFlags }
        pipe := attr.TCP_PIPE m.port }
    else if m.next_proto_id = L4_UDP then
      some { newEntry with
        match_ := { newEntry.match_ with flags := attr.UDP_MatchFlags }
        pipe := attr.UDP_PIPE m.port }
    else none
  else none

/-- The header changes of `flowQoS_packet_modifyer`. -/
def rewrite (m : Mbuf) (x : ConnContext) : Mbuf :=
  let action := x.entry.action
  let m := if action.flags &&& SMAC ≠ 0 then { m with s_addr := action.src_mac } else m
  let m := if action.flags &&& DMAC ≠ 0 then { m with d_addr := action.dst_mac } else m
  let m := if action.flags &&& SIP ≠ 0 then { m with src_addr := action.src_ip } else m
  let m := if action.flags &&& DIP ≠ 0 then { m with dst_addr := action.dst_ip } else m
  let m := if action.flags &&& TTL_DECREASE ≠ 0 then { m with time_to_live := m.time_to_live - 1 } else m
  let m := if action.flags &&& SPORT ≠ 0 then { m with sport := action.src_port } else m
  let m := if action.flags &&& DPORT ≠ 0 then { m with dport := action.dst_port } else m
  let ip_cksum := action.flags &&& (SIP ||| DIP ||| TTL_DECREASE) ≠ 0
  let l4_cksum := action.flags &&& (SPORT ||| DPORT) ≠ 0
  let m := if ip_cksum then { m with hdr_checksum := 0, PKT_TX_IPV4 := true, PKT_TX_IP_CKSUM := true } else m
  let m := if l4_cksum ∧ x.entry.match_.proto = L4_TCP then { m with cksum := 0, PKT_TX_TCP_CKSUM := true }
    else m
  if l4_cksum ∧ x.entry.match_.proto = L4_UDP then { m with cksum := 0, PKT_TX_UDP_CKSUM := true } else m

/-- The timer of a context in software is started again almost every second. -/
def flushTimer (w : World σ) (c : CtxId) (env : PacketEnv ε) : Except Fault (World σ) :=
  let x := w.2.ctx c
  if x.entry.action.flags &&& AGING ≠ 0 ∧ env.flush_tsc - x.lastResetTimerStmp > w.2.attr.CPU_HZ ∧
      x.ct_state ≠ .HW_FWD_STATE then
    (flowQoSTimerReset w.1 c (x.entry.expireTime * 1000).toNat).map fun r =>
      (r.2, w.2.setCtx c { x with lastResetTimerStmp := env.reset_tsc })
  else .ok w

/-- `flowQoS_packet_modifyer`. -/
def packetModifyer (m : Mbuf) (w : World σ) (c : CtxId) (env : PacketEnv ε) :
    Except Fault (Mbuf × World σ) :=
  (flushTimer w c env).map fun w' => (rewrite m (w.2.ctx c), w')

/-- What becomes of a packet, and the context that was applied to it. -/
structure Verdict where
  action : ℤ
  m : Mbuf
  ctx : Option CtxId := none

/-- A packet of a connection in the table. -/
def forward (m : Mbuf) (w : World σ) (c : CtxId) (env : PacketEnv ε) :
    Except Fault (Verdict × World σ) := do
  let x := w.2.ctx c
  let w := (w.1, w.2.setCtx c { x with pktCount := x.pktCount + 1 })
  let w ← offloadConn w c env
  match (w.2.ctx c).entry.pipe with
  | none => .error .nullPointer
  | some pipe =>
    let (m, w) ← packetModifyer m w c env
    return ({ action := (pipe.port_id ^^^ 1 : ℕ), m := m, ctx := some c }, w)

/-- A packet of a connection that is not in the table. -/
def openConn (P : Params σ ε) (m : Mbuf) (newEntry : FlowQoSEntry) (env : PacketEnv ε) (w : World σ) :
    Except Fault (Option CtxId × World σ) := do
  match P.newConn_handler with
  | none => return (none, w)
  | some newConn_handler =>
    let (port, newEntry', app) ← newConn_handler env.app newEntry w.2.app
    let s : Core σ := { w.2 with app := app }
    if port < 0 then return (none, w.1, s)
    let s := { s with accepted := s.accepted + 1 }.log (.accepted s.accepted m.port newEntry.match_)
    addConnToHash (w.1, s) newEntry' ⟨w.2.accepted, m.port⟩ env

/-- `flowQoS_conntrack_packet_processor`. -/
def conntrackPacketProcessor (P : Params σ ε) (m : Mbuf) (env : PacketEnv ε) (w : World σ) :
    Except Fault (Verdict × World σ) := do
  if w.2.attr.PORT_CT_ENABLED m.port then
    match packetParser w.2.attr m with
    | none => return ({ action := ignorePackets, m := m }, w)
    | some newEntry =>
      match findConnFromHash w.2 newEntry with
      | some c => forward m w c env
      | none =>
        match ← openConn P m newEntry env w with
        | (none, w) => return ({ action := dropPackets, m := m }, w)
        | (some c, w) => forward m w c env
  else return ({ action := ignorePackets, m := m }, w)

/-! ### The core -/

/-- `flowQoS_qos_init`, as every worker core copies it. -/
def qosInit (priorityQueueNum : ℕ) (weight : ℕ → ℤ) (maxEntry offloadSpeed : ℤ)
    (tsc_hz workers rdtsc : UInt64) : FlowQoSStats where
  priorityQueueNum := priorityQueueNum
  weight := weight
  maxEntry := maxEntry
  maxEntryLimit := maxEntry
  hwWatermarkPercent := flowQoSHwWatermarkPercent
  lastStmp := rdtsc
  gap := tsc_hz * workers / UInt64.ofInt offloadSpeed

/-- The arguments of `flowQoS_conntrack_init_env`, the frequency of the timestamp counter, the number of
worker cores and a reading. -/
structure InitArgs where
  maxConntrack : ℕ
  maxOffloadedEntry : ℤ
  offloadTime : ℤ
  offloadSpeed : ℤ
  tsc_hz : UInt64
  workers : UInt64
  rdtsc : UInt64

/-- `flowQoS_conntrack_init_env`, for one core; the contexts are those of the pool. -/
def conntrackInitEnv (a : InitArgs) (app : σ) : Core σ :=
  let time := UInt64.ofInt a.offloadTime * (a.tsc_hz / 1000000)
  let max := connschedDefaultMaxTthSec * a.tsc_hz
  { attr :=
      { CPU_HZ := a.tsc_hz
        CONN_OFFLOAD_TIME := time
        CONN_OFFLOAD_TIME_MIN := time
        CONN_OFFLOAD_TIME_MAX := if max < time then time else max
        CONN_OFFLOAD_TIME_DELTA := connschedDefaultDeltaTimeUs * (a.tsc_hz / 1000000)
        PACKET_THRESHOLD := if a.offloadSpeed > 0 then connschedDefaultPacketThreshold else 0
        FILTER_WINDOW_START := a.rdtsc
        MAX_OFFLOAD_SPEED := UInt64.ofInt a.offloadSpeed
        MaxEntry := a.maxConntrack.toUInt64
        MaxOffloadedEntry := UInt64.ofInt a.maxOffloadedEntry
        ENABLE_FLOWQOS := a.offloadSpeed > 0 }
    qos :=
      if a.offloadSpeed > 0 then
        qosInit 4 (fun i => if i = 0 ∨ i = 1 then 1 else if i = 2 then 2 else if i = 3 then 4 else 0)
          a.maxOffloadedEntry a.offloadSpeed a.tsc_hz a.workers a.rdtsc
      else {}
    congestionHandler := a.offloadSpeed > 0
    pool := List.range a.maxConntrack
    ctx := fun _ => {}
    CT := fun _ => none
    CT_NUM := UInt64.ofInt a.maxOffloadedEntry
    hw := {}
    app := app
    conns := fun _ => {}
    accepted := 0
    events := [] }

/-- `flowQoS_conntrack_init_port`. -/
def conntrackInitPort (s : Core σ) (port : ℕ × UInt64) : Core σ :=
  let attr := s.attr
  { s with attr := { attr with
    ActionFlags := Function.update attr.ActionFlags port.1 port.2
    UDP_PIPE := Function.update attr.UDP_PIPE port.1
      (some (buildPipe port.1 (attr.UDP_MatchFlags ||| UDP) port.2))
    TCP_PIPE := Function.update attr.TCP_PIPE port.1 (some (buildPipe port.1 attr.TCP_MatchFlags port.2))
    PORT_CT_ENABLED := Function.update attr.PORT_CT_ENABLED port.1 true } }

/-- The core after the initialisation of the environment and of the ports. -/
def boot (a : InitArgs) (ports : List (ℕ × UInt64)) (app : σ) : World σ :=
  (flowQoSTimerMgrInit a.rdtsc.toNat, ports.foldl conntrackInitPort (conntrackInitEnv a app))

/-- What happens on a core: the general processors come round, a packet arrives, or the application's
own state changes. -/
inductive Event (σ ε : Type) where
  | packet (m : Mbuf) (env : PacketEnv ε)
  | tick (rdtsc : ℕ)
  | qos (rdtsc : UInt64) (outcome : CtxId → Outcome)
  | aging (reports : ℕ → List (Handle × Bool))
  | app (s : σ)

/-- One event. The loops of a tick are as long as there are contexts. -/
def step (P : Params σ ε) (w : World σ) : Event σ ε → Except Fault (World σ)
  | .packet m env => (conntrackPacketProcessor P m env w).map Prod.snd
  | .tick rdtsc =>
    (flowQoSTimerTick (timerCallback P) (P.maxConntrack + 1) P.GAP rdtsc w).map Prod.snd
  | .qos rdtsc outcome =>
    if w.2.attr.ENABLE_FLOWQOS then (doEntryEvent rdtsc outcome w).map Prod.snd else .ok w
  | .aging reports => (connAgingHandle P reports w.2).map fun s => (w.1, s)
  | .app app => .ok (w.1, { w.2 with app := app })

end FlowQoS.Conntrack
