import FlowQoS.Fault
import Mathlib.Data.Int.Notation
import Mathlib.Data.Nat.Notation
import Mathlib.Logic.Function.Basic

/-!
# The router (`flowQoS_router.c`)

Up to 256 routes in four parallel arrays. A slot of the arrays is in use when the sum of its four
words is not 0, and an `rte_lpm` table maps networks to slots. Port addresses are set by `ifconfig`,
which also keeps a route to the network of the port.

The code is parametric in the `rte_lpm` library and in what its read/write lock does: `rwlock` is
the lock of DPDK, seen from the only thread there is, and `ignored` leaves locking out.
-/

namespace FlowQoS.Router

/-- The operations of an `rte_lpm` table. A lookup writes the next hop whether it matches or not. -/
structure RteLpm (L : Type) where
  add : L → (ip : UInt32) → (depth : UInt8) → (next_hop : UInt32) → ℤ × L
  delete : L → (ip : UInt32) → (depth : UInt8) → ℤ × L
  lookup : L → (ip : UInt32) → Bool × UInt32

/-! ### The read/write lock -/

/-- What `rte_rwlock` does. -/
inductive Locking where
  | rwlock
  | ignored
  deriving DecidableEq

namespace Locking

/-- `rte_rwlock_read_lock` on a lock with `cnt` readers, or a writer when `cnt` is `-1`. -/
def readLock : Locking → ℤ → Except Fault ℤ
  | rwlock, cnt => if cnt < 0 then .error .deadlock else .ok (cnt + 1)
  | ignored, cnt => .ok cnt

def readUnlock : Locking → ℤ → ℤ
  | rwlock, cnt => cnt - 1
  | ignored, cnt => cnt

def writeLock : Locking → ℤ → Except Fault ℤ
  | rwlock, cnt => if cnt ≠ 0 then .error .deadlock else .ok (-1)
  | ignored, cnt => .ok cnt

def writeUnlock : Locking → ℤ → ℤ
  | rwlock, cnt => cnt + 1
  | ignored, cnt => cnt

end Locking

/-! ### The state -/

structure LocalPortInfo where
  name : String
  ip : UInt32 := 0
  prefixLen : UInt32 := 0

structure ArpEntry where
  ip : UInt32 := 0
  mac : List UInt8 := [0, 0, 0, 0, 0, 0]

structure ArpTable where
  port_id : UInt32 := 0
  maxEntry : UInt32 := 0
  mask : UInt32 := 0
  arps : Option (ℕ → ArpEntry) := none
  lock : ℤ := 0

/-- `routingTable`, `localPortInfo` and `arp_tables`. -/
structure RouterState (L : Type) where
  lpm : L
  ip : ℕ → UInt32
  prefixLen : ℕ → UInt32
  gw_ip : ℕ → UInt32
  port_id : ℕ → UInt32
  lock : ℤ
  localPortInfo : ℕ → LocalPortInfo
  arp_tables : ℕ → ArpTable

def portNum : ℕ := 2
def maxRules : ℕ := 256

/-- `~((1 << (32 - prefix)) - 1)`; a shift uses the low five bits of its amount. -/
def maskOf (prefixLen : UInt32) : UInt32 := ~~~((1 <<< (32 - prefixLen)) - 1)

variable {L : Type} (lpm : RteLpm L) (sem : Locking)

/-- The state after `registRoutingModule`, with an empty LPM table. -/
def registRoutingModule (table : L) : RouterState L where
  lpm := table
  ip _ := 0
  prefixLen _ := 0
  gw_ip _ := 0
  port_id _ := 0
  lock := 0
  localPortInfo i := { name := "dpdk" ++ toString i }
  arp_tables _ := {}

/-- `isRoute`: the sum that says whether a slot is in use. -/
def isRoute (r : RouterState L) (pos : ℕ) : UInt32 :=
  r.port_id pos + r.gw_ip pos + r.ip pos + r.prefixLen pos

/-- The loop of `flowQoS_router_isLocalIP` over the ports that are left. -/
def isLocalIPLoop (r : RouterState L) (tip : UInt32) : List ℕ → ℤ
  | [] => -1
  | i :: is =>
    let mask := maskOf (r.localPortInfo i).prefixLen
    if tip &&& mask = (r.localPortInfo i).ip &&& mask then i else isLocalIPLoop r tip is

def isLocalIP (r : RouterState L) (tip : UInt32) : ℤ := isLocalIPLoop r tip (List.range portNum)

/-! ### Routes -/

/-- What `flowQoS_router_findRoute` returns, with the words it writes. -/
structure FoundRoute where
  ret : ℤ
  port_id : UInt32
  gw_ip : UInt32

def findRoute (r : RouterState L) (ip : UInt32) : Except Fault (FoundRoute × RouterState L) := do
  let lock ← sem.readLock r.lock
  let found := lpm.lookup r.lpm ip
  -- an address that matches no rule takes the default route, the rule of address 0
  let found := if found.1 then found else lpm.lookup r.lpm 0
  let pos := found.2.toNat
  return ({ ret := if found.1 then 1 else 0, port_id := r.port_id pos, gw_ip := r.gw_ip pos },
    { r with lock := sem.readUnlock lock })

/-- The loop of `flowQoS_router_addRoute` over the slots that are left: the last free slot, or
`none` when the network has a route. -/
def freeSlotLoop (r : RouterState L) (ip : UInt32) : List ℕ → Option ℕ → Option (Option ℕ)
  | [], pos => some pos
  | i :: is, pos =>
    if isRoute r i ≠ 0 then if ip = r.ip i then none else freeSlotLoop r ip is pos
    else freeSlotLoop r ip is (some i)

/-- The port of a route: that of its gateway, or of its network when it has none. -/
def routePort (r : RouterState L) (ip gw_ip : UInt32) : ℤ :=
  if gw_ip = 0 then isLocalIP r ip else isLocalIP r gw_ip

/-- The slot `pos` after a route is written to it. -/
def RouterState.setRoute (r : RouterState L) (pos : ℕ) (ip prefixLen gw_ip port_id : UInt32) : RouterState L :=
  { r with
    ip := Function.update r.ip pos ip
    prefixLen := Function.update r.prefixLen pos prefixLen
    gw_ip := Function.update r.gw_ip pos gw_ip
    port_id := Function.update r.port_id pos port_id }

/-- `flowQoS_router_addRoute`, but for its lock. -/
def addRouteLocked (r : RouterState L) (ip prefixLen gw_ip : UInt32) : ℤ × RouterState L :=
  let ip := ip &&& maskOf prefixLen
  match freeSlotLoop r ip (List.range maxRules) none with
  | none => (0, r)
  | some none => (0, r)
  | some (some pos) =>
    let (ret, table) := lpm.add r.lpm ip prefixLen.toUInt8 pos.toUInt32
    let r := { r with lpm := table }
    if ret = 0 then
      let port := routePort r ip gw_ip
      if port = -1 then (0, r)
      else (1, r.setRoute pos (ip &&& maskOf prefixLen) prefixLen gw_ip port.toNat.toUInt32)
    else (0, r)

def addRoute (r : RouterState L) (ip prefixLen gw_ip : UInt32) : Except Fault (ℤ × RouterState L) := do
  let lock ← sem.writeLock r.lock
  let (ret, r) := addRouteLocked lpm { r with lock := lock } ip prefixLen gw_ip
  return (ret, { r with lock := sem.writeUnlock r.lock })

/-- The loop of `flowQoS_router_delRoute` over the slots that are left. -/
def delRouteLoop (ip prefixLen : UInt32) : List ℕ → RouterState L → Except Fault (ℤ × RouterState L)
  | [], r => return (0, r)
  | i :: is, r =>
    if isRoute r i ≠ 0 ∧ ip = r.ip i then do
      let (_, r) ← findRoute lpm sem r (r.ip i)
      let (ret, table) := lpm.delete r.lpm ip prefixLen.toUInt8
      let r := { r with lpm := table }
      if ret = 0 then return (1, r.setRoute i 0 0 0 0)
      else delRouteLoop ip prefixLen is r
    else delRouteLoop ip prefixLen is r

def delRoute (r : RouterState L) (ip prefixLen : UInt32) : Except Fault (ℤ × RouterState L) := do
  let lock ← sem.writeLock r.lock
  let (ret, r) ← delRouteLoop lpm sem (ip &&& maskOf prefixLen) prefixLen (List.range maxRules)
    { r with lock := lock }
  return (ret, { r with lock := sem.writeUnlock r.lock })

/-- A line of `flowQoS_router_dumpRoute`. The default route, that of address 0, is shown under its
name and with an empty mask. -/
structure RouteLine where
  destination : Option UInt32
  gateway : UInt32
  genmask : UInt32
  iface : String

/-- The loop of `flowQoS_router_dumpRoute` over the slots that are left. -/
def dumpRouteLoop : List ℕ → RouterState L → Except Fault (List RouteLine × RouterState L)
  | [], r => return ([], r)
  | i :: is, r =>
    if isRoute r i ≠ 0 then do
      let ip := r.ip i
      let netmask := maskOf (r.prefixLen i)
      let (found, r) ← findRoute lpm sem r ip
      let (lines, r') ← dumpRouteLoop is r
      let name := (r.localPortInfo found.port_id.toNat).name
      if found.ret ≠ 0 then
        if ip = 0 then return (⟨none, found.gw_ip, 0, name⟩ :: lines, r')
        else return (⟨some ip, found.gw_ip, netmask, name⟩ :: lines, r')
      else return (lines, r')
    else dumpRouteLoop is r

/-- `flowQoS_router_dumpRoute`, with the lines it prints; it returns their number. -/
def dumpRoute (r : RouterState L) : Except Fault ((ℤ × List RouteLine) × RouterState L) := do
  let lock ← sem.readLock r.lock
  let (lines, r) ← dumpRouteLoop lpm sem (List.range maxRules) { r with lock := lock }
  return ((lines.length, lines), { r with lock := sem.readUnlock r.lock })

/-! ### Port addresses -/

/-- `flowQoS_router_initARP_Table`; `malloc` says whether the memory for the table is there. -/
def initARPTable (malloc : Bool) (r : RouterState L) (port_id : ℕ) (postfix_len : UInt32) :
    Except Fault (ℤ × RouterState L) := do
  let lock ← sem.writeLock (r.arp_tables port_id).lock
  let table : ArpTable :=
    { port_id := port_id.toUInt32
      maxEntry := 1 <<< postfix_len
      mask := (1 <<< postfix_len) - 1
      arps := if malloc then some fun _ => {} else none
      lock := sem.writeUnlock lock }
  return (if malloc then 1 else 0,
    { r with arp_tables := Function.update r.arp_tables port_id table })

/-- The port of a name, the first of those that are left. -/
def portOfName (r : RouterState L) (name : String) : List ℕ → Option ℕ
  | [] => none
  | i :: is => if (r.localPortInfo i).name = name then some i else portOfName r name is

def ifconfig (malloc : Bool) (r : RouterState L) (name : String) (ip prefixLen : UInt32) :
    Except Fault (ℤ × RouterState L) := do
  match portOfName r name (List.range portNum) with
  | none => return (0, r)
  | some port_id =>
    let info := r.localPortInfo port_id
    let (_, r) ← if info.ip ≠ 0 then delRoute lpm sem r info.ip info.prefixLen else pure (0, r)
    let info := { r.localPortInfo port_id with ip := ip, prefixLen := prefixLen }
    let r := { r with localPortInfo := Function.update r.localPortInfo port_id info }
    let (_, r) ← initARPTable sem malloc r port_id (32 - prefixLen)
    let (_, r) ← addRoute lpm sem r ip prefixLen 0
    return (1, r)

/-! ### Calls -/

/-- A call of the router by its only thread. -/
inductive Call where
  | addRoute (ip prefixLen gw_ip : UInt32)
  | delRoute (ip prefixLen : UInt32)
  | findRoute (ip : UInt32)
  | dumpRoute
  | ifconfig (malloc : Bool) (name : String) (ip prefixLen : UInt32)

/-- What the call returns. -/
def Call.run : Call → RouterState L → Except Fault (ℤ × RouterState L)
  | .addRoute ip prefixLen gw_ip, r => Router.addRoute lpm sem r ip prefixLen gw_ip
  | .delRoute ip prefixLen, r => Router.delRoute lpm sem r ip prefixLen
  | .findRoute ip, r => (Router.findRoute lpm sem r ip).map fun x => (x.1.ret, x.2)
  | .dumpRoute, r => (Router.dumpRoute lpm sem r).map fun x => (x.1.1, x.2)
  | .ifconfig malloc name ip prefixLen, r => Router.ifconfig lpm sem malloc r name ip prefixLen

end FlowQoS.Router
