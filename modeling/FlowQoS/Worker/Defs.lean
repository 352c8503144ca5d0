import Mathlib.Data.Int.Notation
import Mathlib.Data.Nat.Notation
import Mathlib.Logic.Function.Basic

/-!
# The packet worker (`flowQoS_worker.c`)

Every core polls its receive queue of every port, asks the registered packet processors what to do
with each packet, and collects the packets that go out in a transmit buffer for each port, which is
flushed when it is full and after every burst. What the processors and the NIC answer is part of the
input of a call.

Beside what the code keeps, the state records which packets have been received, which the NIC has
taken and which have been freed, and by which core, and the core that holds each packet.
-/

namespace FlowQoS.Worker

def maxPktBurst : ℕ := 128
def dropPackets : ℤ := -1
def ignorePackets : ℤ := -2

/-- A packet buffer; every reception is one of its own. -/
abbrev Mbuf := ℕ

/-- The transmit buffer of a core for a port. Pointers from earlier bursts stay in it. -/
structure QueuesBuf where
  tx_burst : ℕ → Option Mbuf := fun _ => none
  tx_len : ℕ := 0

/-- The packet goes behind the last one. -/
def QueuesBuf.push (b : QueuesBuf) (m : Mbuf) : QueuesBuf where
  tx_burst := Function.update b.tx_burst b.tx_len (some m)
  tx_len := b.tx_len + 1

structure LcoreConf where
  port_num : ℕ
  queue_id : ℕ
  queuesBuf : ℕ → QueuesBuf := fun _ => {}

/-- A packet the NIC has taken. -/
structure Sent where
  port_id : ℕ
  queue_id : ℕ
  m : Mbuf
  deriving DecidableEq

/-- A packet a core has freed, and whether that core held it. -/
structure Freed where
  cid : ℕ
  m : Mbuf
  held : Bool
  deriving DecidableEq

structure State where
  lcore_conf : ℕ → LcoreConf
  received : List Mbuf := []
  sent : List Sent := []
  freed : List Freed := []
  holder : Mbuf → Option ℕ := fun _ => none

/-- The state after `launch_worker`. -/
def launchWorker (port_num queue_id : ℕ → ℕ) : State where
  lcore_conf cid := { port_num := port_num cid, queue_id := queue_id cid }

/-- A packet of a burst, the answers of the processors in their order, and how many of the packets it
is offered the NIC refuses if this packet finds its transmit buffer full. -/
structure RxPacket where
  m : Mbuf
  actions : List ℤ
  refused : ℕ

/-- The burst received from a port, and how many of the packets it is offered at the end of the burst
the NIC refuses. -/
structure RxBurst where
  rx : List RxPacket := []
  refused : ℕ := 0

namespace State

def buf (s : State) (cid port_id : ℕ) : QueuesBuf := (s.lcore_conf cid).queuesBuf port_id

def setBuf (s : State) (cid port_id : ℕ) (b : QueuesBuf) : State :=
  { s with lcore_conf := Function.update s.lcore_conf cid { s.lcore_conf cid with
      queuesBuf := Function.update (s.lcore_conf cid).queuesBuf port_id b } }

/-- `rte_eth_rx_burst`: the packets are in the hands of the core. -/
def receive (s : State) (cid : ℕ) (ms : List Mbuf) : State :=
  { s with received := s.received ++ ms, holder := fun m => if m ∈ ms then some cid else s.holder m }

/-- `rte_pktmbuf_free`, called by `cid`; a null pointer is let through. -/
def free (s : State) (cid : ℕ) : Option Mbuf → State
  | none => s
  | some m =>
    { s with
      freed := s.freed ++ [⟨cid, m, s.holder m == some cid⟩]
      holder := Function.update s.holder m none }

/-- `rte_eth_tx_burst` on the first `n` packets of the buffer, of which the NIC refuses some: the
number it takes. -/
def txBurst (s : State) (cid port_id n refused : ℕ) : ℕ × State :=
  let ms := (List.range (n - refused)).filterMap (s.buf cid port_id).tx_burst
  (n - refused,
    { s with
      sent := s.sent ++ ms.map fun m => ⟨port_id, (s.lcore_conf cid).queue_id, m⟩
      holder := fun m => if m ∈ ms then none else s.holder m })

/-- The loop that frees the packets from `nb_tx` up to `n` in the transmit buffer of `owner`. -/
def freeRest (s : State) (cid owner port_id nb_tx n : ℕ) : State :=
  (List.range' nb_tx (n - nb_tx)).foldl
    (fun s i => s.free cid ((s.buf owner port_id).tx_burst i)) s

end State

/-- `send_packets`. -/
def sendPackets (s : State) (port_id cid : ℕ) (m : Mbuf) (refused : ℕ) : State :=
  let s :=
    if (s.buf cid port_id).tx_len = maxPktBurst then
      let (nb_tx, s) := s.txBurst cid port_id maxPktBurst refused
      let s := s.freeRest cid cid port_id nb_tx maxPktBurst
      s.setBuf cid port_id { s.buf cid port_id with tx_len := 0 }
    else s
  s.setBuf cid port_id ((s.buf cid port_id).push m)

/-- The action for a packet: the last answer that is not `IGNORE_PACKETS`. -/
def actionOf (actions : List ℤ) : ℤ :=
  actions.foldl (fun action this => if this ≠ ignorePackets then this else action) dropPackets

/-- The body of the loop over a burst. -/
def rxStep (cid : ℕ) (s : State) (x : RxPacket) : State :=
  if actionOf x.actions = dropPackets then s.free cid (some x.m)
  else sendPackets s (actionOf x.actions).toNat cid x.m x.refused

/-- The end of a burst. The packets that the NIC refuses are freed out of the buffer of the first
core: `lcore_conf->queuesBuf` is `lcore_conf[0].queuesBuf`. -/
def flushPort (cid port_id refused : ℕ) (s : State) : State :=
  let n := (s.buf cid port_id).tx_len
  let (nb_tx, s) := s.txBurst cid port_id n refused
  let s := s.freeRest cid 0 port_id nb_tx n
  s.setBuf cid port_id { s.buf cid port_id with tx_len := 0 }

/-- The loop of `general_pkt_processor` over the ports: the work that is counted, and the state. -/
def portStep (cid : ℕ) (input : ℕ → RxBurst) (acc : ℕ × State) (port_id : ℕ) : ℕ × State :=
  let s := acc.2.receive cid ((input port_id).rx.map RxPacket.m)
  let s := (input port_id).rx.foldl (rxStep cid) s
  (acc.1 + (input port_id).rx.length + (s.buf cid port_id).tx_len,
    flushPort cid port_id (input port_id).refused s)

/-- `general_pkt_processor`. -/
def generalPktProcessor (cid : ℕ) (input : ℕ → RxBurst) (s : State) : ℕ × State :=
  (List.range (s.lcore_conf cid).port_num).foldl (portStep cid input) (0, s)

end FlowQoS.Worker
