import FlowQoS.Conntrack.Defs
import FlowQoS.Lib.Rotation
import FlowQoS.Pipe.Format
import FlowQoS.Worker.Processors

/-!
# Packet spraying (`flowQoS_vxlan_packets_spraying.c`)

Every core counts its packets in a word of 64 bits and gives them the source ports of four paths in turn. Since
four divides `2 ^ 64`, the paths are taken evenly for ever (`run_sprays`).
-/

namespace FlowQoS.Spraying

open Lib Pipe

def maxEthPorts : ℕ := 2
def pathNum : ℕ := 4

/-- `rte_cpu_to_be_16(counter % 4 + 7788)`, on a little-endian host. -/
def sprayPort (counter : UInt64) : UInt16 := beToCpu16 (counter % 4 + 7788).toUInt16

/-- A packet as `packet_spray` leaves it. -/
def sprayed (counter : UInt64) (packet : Conntrack.Mbuf) : Conntrack.Mbuf :=
  { packet with sport := sprayPort counter, cksum := 0, PKT_TX_UDP_CKSUM := true }

/-- `packet_spray`; the state is the counter of the core. -/
def packetSpray : Worker.PacketProcessor Unit Conntrack.Mbuf UInt64 := fun _ packet counter =>
  .ok ((packet.port ^^^ 1 : ℕ), sprayed (counter + 1) packet, counter + 1)

/-- The processors that are registered when the workers are launched. -/
def registered : List (Worker.PacketProcessor Unit Conntrack.Mbuf UInt64) :=
  (Worker.registerPacketProcessor [] packetSpray).2

/-- The driver writes the port into the packet. -/
def Comes (p : ℕ) (packet : Conntrack.Mbuf) : Prop := packet.port = p

abbrev Treated := Worker.Treated Conntrack.Mbuf

variable {ts : List Treated} {counter : UInt64} {n r : ℕ}

/-- The source port of a path. -/
def pathPort (r : ℕ) : UInt16 := beToCpu16 (7788 + r).toUInt16

/-- How many of the packets have been given a path. -/
def taken (ts : List Treated) (r : ℕ) : ℕ := ts.countP fun t => t.after.sport = pathPort r

/-! ### The paths -/

/-- The four paths have four source ports. -/
theorem pathPort_inj {r r' : ℕ} (hr : r < pathNum) (hr' : r' < pathNum) (h : pathPort r = pathPort r') : r = r' := by
  have key : ∀ r < pathNum, ∀ r' < pathNum, pathPort r = pathPort r' → r = r' := by decide
  exact key r hr r' hr' h

/-- The path of the packet after `n` others. -/
theorem sprayPort_eq (n : ℕ) : sprayPort (UInt64.ofNat (n + 1)) = pathPort ((n + 1) % pathNum) := by
  have hmod : UInt64.ofNat (n + 1) % 4 + 7788 = UInt64.ofNat (7788 + (n + 1) % pathNum) := by
    apply UInt64.toNat_inj.1
    rw [UInt64.toNat_add, UInt64.toNat_mod, UInt64.toNat_ofNat', UInt64.toNat_ofNat']
    show ((n + 1) % 2 ^ 64 % 4 + 7788) % 2 ^ 64 = (7788 + (n + 1) % 4) % 2 ^ 64
    omega
  unfold sprayPort pathPort
  rw [hmod]
  congr 1
  apply UInt16.toNat_inj.1
  rw [UInt64.toNat_toUInt16, UInt64.toNat_ofNat', UInt16.toNat_ofNat']
  omega

/-- What has been done after some packets: the counter is their number, and each has got the path that its number
says. -/
structure Sprayed (counter : UInt64) (ts : List Treated) : Prop where
  counter : counter = UInt64.ofNat ts.length
  each : ∀ (i : ℕ) (t : Treated), ts[i]? = some t → t.action = (t.before.port ^^^ 1 : ℕ) ∧
    t.after = { t.before with sport := pathPort ((i + 1) % pathNum), cksum := 0, PKT_TX_UDP_CKSUM := true }
  turns : ∀ r < pathNum, taken ts r = turns (2 ^ 64) pathNum ts.length ((r + 3) % pathNum)

/-- **A packet.** -/
theorem sprayed_keeps : Worker.Keeps registered Comes maxEthPorts (fun _ => True) Sprayed := by
  intro x counter counter' ts actions packet p hp hcomes _ h hrun
  cases hrun
  have hone : ∀ a : ℤ, a ≠ Worker.ignorePackets → Worker.actionOf [a] = a := fun a ha => if_pos ha
  have hact : Worker.actionOf [((x.packet.port ^^^ 1 : ℕ) : ℤ)] = (x.packet.port ^^^ 1 : ℕ) := by
    apply hone
    unfold Worker.ignorePackets
    omega
  have hcounter : counter + 1 = UInt64.ofNat (ts.length + 1) := by
    rw [h.counter, UInt64.ofNat_add]
    rfl
  rw [hact]
  refine ⟨?_, trivial, ?_, fun i t ht => ?_, fun r hr => ?_⟩
  · unfold Worker.dropPackets
    omega
  · rw [hcounter, List.length_append]
    rfl
  · rcases Nat.lt_trichotomy i ts.length with hi | rfl | hi
    · rw [List.getElem?_append_left hi] at ht
      exact h.each i t ht
    · rw [List.getElem?_append_right le_rfl, Nat.sub_self] at ht
      obtain rfl := Option.some.inj ht
      refine ⟨rfl, ?_⟩
      show sprayed (counter + 1) x.packet = _
      unfold sprayed
      rw [hcounter, sprayPort_eq]
    · rw [List.getElem?_eq_none (by simp; omega)] at ht
      cases ht
  · have hiff : pathPort ((ts.length + 1) % pathNum) = pathPort r ↔
        ts.length % 2 ^ 64 % pathNum = (r + 3) % pathNum := by
      unfold pathNum at hr ⊢
      constructor
      · intro hport
        have hr' : (ts.length + 1) % 4 = r := pathPort_inj (Nat.mod_lt _ (by decide)) hr hport
        omega
      · intro hturn
        have hr' : (ts.length + 1) % 4 = r := by omega
        rw [hr']
    unfold taken
    rw [List.countP_append, List.length_append, List.length_singleton, turns_succ]
    congr 1
    · exact h.turns r hr
    · rw [List.countP_singleton]
      show (if decide ((sprayed (counter + 1) x.packet).sport = pathPort r) then 1 else 0) = _
      have hsport : (sprayed (counter + 1) x.packet).sport = pathPort ((ts.length + 1) % pathNum) := by
        unfold sprayed
        rw [hcounter, sprayPort_eq]
      rw [hsport]
      simp only [decide_eq_true_eq, hiff]

theorem sprayed_nil : Sprayed 0 [] where
  counter := rfl
  each i t ht := by cases ht
  turns r _ := rfl

/-! ### Runs -/

/-- A core that has been launched; nothing else touches its counter. -/
abbrev Runs (cid : ℕ) (queue_id : ℕ → ℕ) (es : List (Worker.MachineEvent Unit Conntrack.Mbuf Empty))
    (s : Worker.Machine Conntrack.Mbuf UInt64) : Prop :=
  Trace (Worker.MachineStep registered cid Comes (fun _ => True) fun _ e _ => e.elim)
    (Worker.Machine.launch (fun _ => maxEthPorts) queue_id 0) es s

/-- **Spraying.** In every run of a core: the packets are treated in the order in which they come, the paths go
round from each packet to the next, also where the counter wraps around, and nothing else in a packet changes but
its checksum; of all its packets no path gets two more than another; and the packets that have come in by a port
leave by the other one, in their order. -/
theorem run_sprays {cid : ℕ} {queue_id : ℕ → ℕ} {es : List (Worker.MachineEvent Unit Conntrack.Mbuf Empty)}
    {s : Worker.Machine Conntrack.Mbuf UInt64} (hr : Runs cid queue_id es s) :
    s.worker.received = s.treated.map Worker.Treated.m ∧
    (∀ (i : ℕ) (t : Treated), s.treated[i]? = some t → t.after =
      { t.before with sport := pathPort ((i + 1) % pathNum), cksum := 0, PKT_TX_UDP_CKSUM := true }) ∧
    (∀ r < pathNum, ∀ r' < pathNum, taken s.treated r ≤ taken s.treated r' + 1) ∧
    ∀ p q, ((s.worker.accepted q).filter fun m => m ∈ s.ofClass fun t => t.before.port = p).Sublist
      (if q = p ^^^ 1 then s.ofClass fun t => t.before.port = p else []) := by
  have h : Worker.MachineInv cid maxEthPorts Sprayed s :=
    Worker.run_machine sprayed_keeps (fun _ e => e.elim) sprayed_nil hr
  refine ⟨?_, fun i t ht => (h.app.each i t ht).2, fun r hr r' hr' => ?_, fun p q => ?_⟩
  · rw [h.transmits.received, List.append_nil]
  · rw [h.app.turns r hr, h.app.turns r' hr']
    exact (turns_fair_iff (by decide) (by decide)).2 (.inl (by decide)) _ (Nat.mod_lt _ (by decide)) _
      (Nat.mod_lt _ (by decide))
  · refine h.in_order _ (fun t ht hport => ?_) q
    obtain ⟨i, hi⟩ := List.getElem?_of_mem ht
    rw [(h.app.each i t hi).1, hport]

/-- Three packets that come in by one port, and two by the other. -/
def fivePackets (p : ℕ) : Worker.ArrivalBurst Unit Conntrack.Mbuf :=
  if p = 0 then { rx := [⟨10, { port := 0 }, (), 0⟩, ⟨11, { port := 0 }, (), 0⟩, ⟨12, { port := 0 }, (), 0⟩] }
  else if p = 1 then { rx := [⟨13, { port := 1 }, (), 0⟩, ⟨14, { port := 1 }, (), 0⟩] }
  else {}

theorem run_sprays_five : ∃ s : Worker.Machine Conntrack.Mbuf UInt64,
    s.worker.accepted 1 = [10, 11, 12] ∧
    (∀ r < pathNum, ∀ r' < pathNum, taken s.treated r ≤ taken s.treated r' + 1) ∧ taken s.treated 1 = 2 := by
  have hports : Worker.OnPorts Comes maxEthPorts fivePackets := by
    intro p _ x hx
    unfold fivePackets at hx
    split at hx
    · next hp =>
      simp only [List.mem_cons, List.not_mem_nil, or_false] at hx
      rcases hx with rfl | rfl | rfl <;> exact hp.symm
    · split at hx
      · next hp =>
        simp only [List.mem_cons, List.not_mem_nil, or_false] at hx
        rcases hx with rfl | rfl <;> exact hp.symm
      · cases hx
  have hrun : ∃ s, Runs 0 id [.poll fivePackets] s ∧ s.worker.accepted 1 = [10, 11, 12] ∧
      taken s.treated 1 = 2 :=
    ⟨_, .single ⟨trivial, hports, by decide, rfl⟩, by decide +kernel, by decide +kernel⟩
  obtain ⟨s, hr, h1, htaken⟩ := hrun
  obtain ⟨-, -, heven, -⟩ := run_sprays hr
  exact ⟨s, h1, heven, htaken⟩

end FlowQoS.Spraying
