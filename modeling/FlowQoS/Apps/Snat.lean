import FlowQoS.Conntrack.Defs
import FlowQoS.Router.Defs

/-!
# Source address translation (`flowQoS_snat.c`)

A pool of the 65536 ports of the public address, last in, first out, and one table in which every
connection from the LAN has two keys, its own header and that of the packets that come back. Both have
the pool entry of the connection as their value, and the entry remembers where in the LAN the
connection came from.

A pool entry stands for the pointer to it, the index in `attr.entries`. What the ARP tables hold and
whether the table takes a new key is part of each call.
-/

namespace FlowQoS.Snat

open Pipe Conntrack

def WAN_PORT : ℕ := 1
def LAN_PORT : ℕ := 0
def CONN_EXPIRE : UInt64 := 50
def poolSize : ℕ := 65536
def MAX_CT_OFFLOADED : ℕ := 1 <<< 16
def MAX_CT_IN_POOL : ℕ := MAX_CT_OFFLOADED * 2 + 10

/-- `rte_be_to_cpu_32`. -/
def beToCpu32 (x : UInt32) : UInt32 :=
  x >>> 24 ||| ((x >>> 8) &&& (0xff00 : UInt32)) ||| ((x <<< 8) &&& (0xff0000 : UInt32)) ||| x <<< 24

/-- A key of the table. -/
structure SnatMatch where
  sip : UInt32
  dip : UInt32
  sport : UInt16
  dport : UInt16
  proto : UInt8
  deriving DecidableEq

/-- The public address and port, and the address and port in the LAN that use it. -/
structure SnatPoolEntry where
  sip : UInt32
  dip : UInt32
  sport : UInt16
  dport : UInt16
  deriving DecidableEq

/-- `flowQoS_snat_attr`. -/
structure SnatAttr where
  snat_table : SnatMatch → Option ℕ
  entries : ℕ → SnatPoolEntry
  bucket : List ℕ

/-! ### The pool -/

/-- `flowQoS_snat_pool_put`. -/
def flowQoSSnatPoolPut (attr : SnatAttr) (entry : ℕ) : SnatAttr :=
  { attr with bucket := entry :: attr.bucket }

/-- `flowQoS_snat_pool_get`. -/
def flowQoSSnatPoolGet (attr : SnatAttr) : Option (ℕ × SnatAttr) :=
  match attr.bucket with
  | [] => none
  | entry :: bucket => some (entry, { attr with bucket := bucket })

/-- A turn of the loop of `flowQoS_snat_pool_init`. -/
def poolInitStep (sip : UInt32) (attr : SnatAttr) (i : ℕ) : SnatAttr :=
  flowQoSSnatPoolPut
    { attr with
      entries := Function.update attr.entries i
        { attr.entries i with sip := sip, sport := i.toUInt16 } } i

/-- `flowQoS_snat_pool_init`, where the memory for the table and the pool is there; `mem` is what the
memory of the entries held, and `sip` the address of the port to the WAN as the network orders it. -/
def flowQoSSnatPoolInit (sip : UInt32) (mem : ℕ → SnatPoolEntry) : SnatAttr :=
  (List.range poolSize).foldl (poolInitStep sip)
    { snat_table := fun _ => none, entries := mem, bucket := [] }

/-! ### The table -/

/-- `rte_hash_add_key_data`: a key that is there gets the new value; for another key, `ok` says whether
the table takes it. -/
def hashAddKeyData (attr : SnatAttr) (key : SnatMatch) (data : ℕ) (ok : Bool) : Option SnatAttr :=
  if ok ∨ (attr.snat_table key).isSome then
    some { attr with snat_table := Function.update attr.snat_table key (some data) }
  else none

/-- `rte_hash_del_key`. -/
def hashDelKey (attr : SnatAttr) (key : SnatMatch) : SnatAttr :=
  { attr with snat_table := Function.update attr.snat_table key none }

/-! ### The handlers -/

/-- The bytes of an address in a row. -/
def etherAddr (mac : List UInt8) : EtherAddr :=
  BitVec.ofNat 48 (mac.foldl (fun n b => n * 256 + b.toNat) 0)

/-- `flowQoS_router_get_arp`: the stored address is not compared with the one that is looked for. -/
def flowQoSRouterGetArp (table : Router.ArpTable) (ip : UInt32) : Option EtherAddr :=
  match table.arps with
  | none => none
  | some arps =>
    let entry := arps (ip &&& table.mask).toNat
    if entry.ip = 0 then none else some (etherAddr entry.mac)

/-- What the environment answers to a call of `newConn_handler`: the ARP tables, and whether the table
takes the upstream and the downstream key. -/
structure SnatEnv where
  arp_tables : ℕ → Router.ArpTable
  upstream : Bool
  downstream : Bool

/-- The key of an entry's match. -/
def keyOf (x : FlowQoSMatch) : SnatMatch where
  sip := x.src_ip
  dip := x.dst_ip
  sport := x.src_port
  dport := x.dst_port
  proto := x.proto

/-- The key of the packets that come back to a connection with this pool entry. -/
def reverseKey (key : SnatMatch) (entry : SnatPoolEntry) : SnatMatch where
  sip := key.dip
  sport := key.dport
  proto := key.proto
  dip := entry.sip
  dport := entry.sport

/-- The branch of `newConn_handler` for the LAN. -/
def newConnLan (env : SnatEnv) (newEntry : FlowQoSEntry) (attr : SnatAttr) :
    ℤ × FlowQoSEntry × SnatAttr :=
  match flowQoSRouterGetArp (env.arp_tables WAN_PORT) (beToCpu32 newEntry.match_.dst_ip) with
  | none => (dropPackets, newEntry, attr)
  | some mac =>
    match flowQoSSnatPoolGet attr with
    | none => (dropPackets, newEntry, attr)
    | some (i, attr) =>
      let entry := { attr.entries i with
        dip := newEntry.match_.src_ip, dport := newEntry.match_.src_port }
      let attr := { attr with entries := Function.update attr.entries i entry }
      let match_ := keyOf newEntry.match_
      match hashAddKeyData attr match_ i env.upstream with
      | none => (dropPackets, newEntry, flowQoSSnatPoolPut attr i)
      | some attr =>
        match hashAddKeyData attr (reverseKey match_ entry) i env.downstream with
        | none => (dropPackets, newEntry, flowQoSSnatPoolPut (hashDelKey attr match_) i)
        | some attr =>
          (WAN_PORT,
            { newEntry with
              expireTime := CONN_EXPIRE
              action := { newEntry.action with
                src_ip := entry.sip, src_port := entry.sport, dst_mac := mac } },
            attr)

/-- The branch of `newConn_handler` for the WAN. -/
def newConnWan (env : SnatEnv) (newEntry : FlowQoSEntry) (attr : SnatAttr) :
    ℤ × FlowQoSEntry × SnatAttr :=
  match attr.snat_table (keyOf newEntry.match_) with
  | none => (dropPackets, newEntry, attr)
  | some i =>
    let entry := attr.entries i
    let newEntry := { newEntry with
      expireTime := CONN_EXPIRE
      action := { newEntry.action with dst_ip := entry.dip, dst_port := entry.dport } }
    match flowQoSRouterGetArp (env.arp_tables LAN_PORT) (beToCpu32 newEntry.action.dst_ip) with
    | none => (dropPackets, newEntry, attr)
    | some mac => (LAN_PORT, { newEntry with action := { newEntry.action with dst_mac := mac } }, attr)

/-- `newConn_handler`. -/
def newConnHandler (env : SnatEnv) (newEntry : FlowQoSEntry) (attr : SnatAttr) :
    Except Fault (ℤ × FlowQoSEntry × SnatAttr) :=
  match newEntry.pipe with
  | none => .error .nullPointer
  | some pipe =>
    .ok (if pipe.port_id = LAN_PORT then newConnLan env newEntry attr else newConnWan env newEntry attr)

/-- `agingConn_handler`. -/
def agingConnHandler (newEntry : FlowQoSEntry) (attr : SnatAttr) : Except Fault SnatAttr :=
  match newEntry.pipe with
  | none => .error .nullPointer
  | some pipe =>
    if pipe.port_id = LAN_PORT then
      let match_ := keyOf newEntry.match_
      match attr.snat_table match_ with
      | none => .ok attr
      | some i =>
        let reverse_match := reverseKey match_ (attr.entries i)
        .ok (flowQoSSnatPoolPut (hashDelKey (hashDelKey attr match_) reverse_match) i)
    else .ok attr

/-! ### The application -/

/-- The application on the connection tracker, with the ticks' distance on the timestamp counter. -/
def snat (GAP : ℕ) : Params SnatAttr SnatEnv where
  newConn_handler := some newConnHandler
  agingConn_handler := some agingConnHandler
  maxConntrack := MAX_CT_IN_POOL
  GAP := GAP

/-- What `init_snat` gives to `flowQoS_conntrack_init_env`, on its one worker core. -/
def initArgs (tsc_hz rdtsc : UInt64) : InitArgs where
  maxConntrack := MAX_CT_IN_POOL
  maxOffloadedEntry := MAX_CT_OFFLOADED
  offloadTime := 0
  offloadSpeed := 0
  tsc_hz := tsc_hz
  workers := 1
  rdtsc := rdtsc

/-- The ports, with the action flags `init_snat` gives to `flowQoS_conntrack_init_port`. -/
def snatPorts : List (ℕ × UInt64) :=
  [(LAN_PORT, SIP ||| SPORT ||| DMAC ||| AGING), (WAN_PORT, DIP ||| DPORT ||| DMAC ||| AGING)]

/-- `init_snat`, where everything it asks for is there. -/
def initSnat (tsc_hz rdtsc : UInt64) (sip : UInt32) (mem : ℕ → SnatPoolEntry) : World SnatAttr :=
  boot (initArgs tsc_hz rdtsc) snatPorts (flowQoSSnatPoolInit sip mem)

end FlowQoS.Snat
