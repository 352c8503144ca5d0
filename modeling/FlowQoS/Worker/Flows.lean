import FlowQoS.Apps.Snat
import FlowQoS.Conntrack.Affinity
import FlowQoS.Conntrack.Dealings
import FlowQoS.Pipe.Format
import FlowQoS.Router.Reply
import FlowQoS.Worker.Processors

/-!
# The packets of a connection, from the receive queue to the transmit queue

A core with the packet processors of the applications: the tracker, which `flowQoS_conntrack_init_env` registers,
and behind it, in the load balancer and in the address translation, the replies to ARP and ICMP. What the tracker
has forwarded the replies ignore, so that no packet gets an action from both (`registered_cases`).

A connection is treated in one way from its first packet to its end (`Served`). Together with the buffers of the
worker this gives the order of the connection: its packets leave by the port that is opposite to the one of its
first packet, and in the order in which they came (`run_flows`).
-/

namespace FlowQoS.Flows

open Lib Pipe Conntrack

variable {σ ε L : Type}

/-! ### A packet and its processors -/

/-- A packet buffer as the processors see it: its headers, the ARP header where `ether_type` says so, what a
reply reads and writes beside them, and the connection that it has been forwarded for. -/
structure Packet where
  headers : Conntrack.Mbuf
  arp : Option Router.ArpHdr := none
  packet_id : UInt16 := 0
  fragment_offset : UInt16 := 0
  icmp : Router.IcmpMsg
  l2_len : ℕ := 0
  l3_len : ℕ := 0
  conn : Option ℕ := none

/-- The bytes of an address. -/
def macOf (mac : EtherAddr) : Router.Mac := .ofFn fun i => macByte mac i

/-- The packet as `flowQoS_ARP_ICMP_PROCESS` reads it. -/
def Packet.frame (x : Packet) : Router.Frame where
  port := x.headers.port
  s_addr := macOf x.headers.s_addr
  d_addr := macOf x.headers.d_addr
  body :=
    match x.arp with
    | some arp => .arp arp
    | none =>
      if x.headers.ipv4 then
        .ipv4
          { packet_id := x.packet_id
            fragment_offset := x.fragment_offset
            time_to_live := x.headers.time_to_live
            next_proto_id := x.headers.next_proto_id
            hdr_checksum := beToCpu16 x.headers.hdr_checksum
            src_addr := beToCpu32 x.headers.src_addr
            dst_addr := beToCpu32 x.headers.dst_addr }
          x.icmp
      else .other
  l2_len := x.l2_len
  l3_len := x.l3_len
  PKT_TX_IPV4 := x.headers.PKT_TX_IPV4
  PKT_TX_IP_CKSUM := x.headers.PKT_TX_IP_CKSUM

/-- The packet after `flowQoS_ARP_ICMP_PROCESS` has written it. -/
def Packet.setFrame (x : Packet) (m : Router.Frame) : Packet :=
  let headers := { x.headers with
    s_addr := Snat.etherAddr m.s_addr.toList
    d_addr := Snat.etherAddr m.d_addr.toList
    PKT_TX_IPV4 := m.PKT_TX_IPV4
    PKT_TX_IP_CKSUM := m.PKT_TX_IP_CKSUM }
  let x := { x with headers := headers, l2_len := m.l2_len, l3_len := m.l3_len }
  match m.body with
  | .arp arp => { x with arp := some arp }
  | .ipv4 ip icmp =>
    { x with
      headers := { headers with
        time_to_live := ip.time_to_live
        hdr_checksum := beToCpu16 ip.hdr_checksum
        src_addr := beToCpu32 ip.src_addr
        dst_addr := beToCpu32 ip.dst_addr }
      packet_id := ip.packet_id
      fragment_offset := ip.fragment_offset
      icmp := icmp }
  | .other => x

/-- The processors of an application work on the tracker and on the router. -/
abbrev Processor (σ ε L : Type) :=
  Worker.PacketProcessor (PacketEnv ε) Packet (World σ × Router.RouterState L)

/-- The packet as the tracker leaves it, with the connection of the context that was applied to it. -/
def Packet.tracked (x : Packet) (v : Verdict) (w : World σ) : Packet :=
  { x with headers := v.m, conn := v.ctx.map fun c => (w.2.conns c).id }

/-- `flowQoS_conntrack_packet_processor`. -/
def conntrackProcessor (P : Params σ ε) : Processor σ ε L := fun env x t => do
  let (v, w) ← conntrackPacketProcessor P x.headers env t.1
  return (v.action, x.tracked v w, w, t.2)

/-- `flowQoS_ARP_ICMP_PROCESS`, which leaves a packet that it ignores as it is. -/
def replyProcessor (sem : Router.Locking) (mac : ℕ → Router.Mac) : Processor σ ε L := fun _ x t => do
  let (action, m, r) ← Router.arpIcmpProcess sem mac t.2 x.frame
  return (action, if action = Router.ignorePackets then x else x.setFrame m, t.1, r)

/-- The processors that the application has registered when the workers are launched; `replies` is whether it
is one of those that answer ARP and ICMP. -/
def registered (P : Params σ ε) (sem : Router.Locking) (mac : ℕ → Router.Mac) (replies : Bool) :
    List (Processor σ ε L) :=
  let packet_processor_arr := (Worker.registerPacketProcessor [] (conntrackProcessor P)).2
  if replies then (Worker.registerPacketProcessor packet_processor_arr (replyProcessor sem mac)).2
  else packet_processor_arr

/-- What the driver writes: the port, and the type of the packet, which is not IPv4 where the frame is ARP. -/
def Comes (p : ℕ) (x : Packet) : Prop := x.headers.port = p ∧ (x.headers.ipv4 → x.arp = none)

variable {P : Params σ ε} {sem : Router.Locking} {mac : ℕ → Router.Mac} {replies : Bool} {w w' : World σ}
  {r r' : Router.RouterState L} {x y : Packet} {env : PacketEnv ε} {v : Verdict} {actions : List ℤ} {p : ℕ}

/-- A packet that is parsed is one of TCP or UDP over IPv4. -/
theorem packetParser_ipv4 {attr : ConnAttr} {m : Conntrack.Mbuf} {e : FlowQoSEntry}
    (h : packetParser attr m = some e) : m.ipv4 ∧ (m.next_proto_id = L4_TCP ∨ m.next_proto_id = L4_UDP) := by
  unfold packetParser at h
  split at h
  · next hip =>
    split at h
    · next hproto => exact ⟨hip, .inl hproto⟩
    · split at h
      · next hproto => exact ⟨hip, .inr hproto⟩
      · cases h
  · cases h

/-- A packet leaves the tracker with the port, the type and the protocol that it came with. -/
theorem conntrack_kind {m : Conntrack.Mbuf} (hrun : conntrackPacketProcessor P m env w = .ok (v, w')) :
    v.m.port = m.port ∧ v.m.ipv4 = m.ipv4 ∧ v.m.next_proto_id = m.next_proto_id := by
  have hrewrite : ∀ c, (rewrite m c).port = m.port ∧ (rewrite m c).ipv4 = m.ipv4 ∧
      (rewrite m c).next_proto_id = m.next_proto_id := by
    intro c
    unfold rewrite
    refine ⟨?_, ?_, ?_⟩
    · simp only [apply_ite Conntrack.Mbuf.port, ite_self]
    · simp only [apply_ite Conntrack.Mbuf.ipv4, ite_self]
    · simp only [apply_ite Conntrack.Mbuf.next_proto_id, ite_self]
  unfold conntrackPacketProcessor at hrun
  split at hrun
  · split at hrun
    · cases hrun
      exact ⟨rfl, rfl, rfl⟩
    · split at hrun
      · obtain ⟨w₁, pipe, -, -, -, rfl⟩ := forward_cases hrun
        exact hrewrite _
      · obtain ⟨⟨ret, w₁⟩, -, hrun⟩ := bind_eq_ok.1 hrun
        cases ret with
        | none =>
          cases hrun
          exact ⟨rfl, rfl, rfl⟩
        | some c =>
          obtain ⟨w₂, pipe, -, -, -, rfl⟩ := forward_cases hrun
          exact hrewrite _
  · cases hrun
    exact ⟨rfl, rfl, rfl⟩

/-- What the tracker does not ignore is a packet of TCP or UDP over IPv4. -/
theorem conntrack_ipv4 {m : Conntrack.Mbuf} (hrun : conntrackPacketProcessor P m env w = .ok (v, w'))
    (hact : v.action ≠ ignorePackets) : m.ipv4 ∧ (m.next_proto_id = L4_TCP ∨ m.next_proto_id = L4_UDP) := by
  rcases packet_cases hrun with ⟨hign, -⟩ | ⟨e, -, hparse, -⟩
  · exact absurd hign hact
  · exact packetParser_ipv4 hparse

/-- A packet of TCP or UDP over IPv4 is not answered. -/
theorem arpIcmp_ignores (harp : x.arp = none) (hip : x.headers.ipv4)
    (hproto : x.headers.next_proto_id = L4_TCP ∨ x.headers.next_proto_id = L4_UDP) :
    Router.arpIcmpProcess sem mac r x.frame = .ok (Router.ignorePackets, x.frame, r) := by
  have hne : x.headers.next_proto_id ≠ 1 := by
    rcases hproto with h | h
    · rw [h]
      decide
    · rw [h]
      decide
  unfold Router.arpIcmpProcess Packet.frame
  simp only [harp, hip, if_true]
  rw [if_neg fun h => hne h.1]
  rfl

/-- A reply goes out where the packet has come in. -/
theorem arpIcmp_action {m m' : Router.Frame} {action : ℤ}
    (h : Router.arpIcmpProcess sem mac r m = .ok (action, m', r')) :
    action = m.port ∨ action = Router.ignorePackets := by
  unfold Router.arpIcmpProcess at h
  split at h
  · split at h
    · obtain ⟨⟨ret, r₁⟩, -, h⟩ := bind_eq_ok.1 h
      cases h
      exact .inl rfl
    · cases h
      exact .inr rfl
  · split at h
    · cases h
      exact .inl rfl
    · cases h
      exact .inr rfl
  · cases h
    exact .inr rfl

theorem conn_setFrame (x : Packet) (m : Router.Frame) : (x.setFrame m).conn = x.conn := by
  unfold Packet.setFrame
  cases m.body <;> rfl

/-- The replies leave the tracker alone, and the packets that are not for them. -/
theorem replyProcessor_cases {t t' : World σ × Router.RouterState L} {action : ℤ}
    (hrun : replyProcessor sem mac env x t = .ok (action, y, t')) :
    t'.1 = t.1 ∧ y.conn = x.conn ∧ (action = x.headers.port ∨ action = ignorePackets) ∧
      (x.arp = none → x.headers.ipv4 → x.headers.next_proto_id = L4_TCP ∨ x.headers.next_proto_id = L4_UDP →
        action = ignorePackets ∧ y = x) := by
  obtain ⟨⟨action', m, r'⟩, harp, hrun⟩ := bind_eq_ok.1 hrun
  cases hrun
  refine ⟨rfl, ?_, arpIcmp_action harp, fun hnone hip hproto => ?_⟩
  · split
    · rfl
    · exact conn_setFrame x m
  · rw [arpIcmp_ignores hnone hip hproto] at harp
    cases harp
    exact ⟨rfl, if_pos rfl⟩

/-- **The processors of an application.** The action for a packet is that of the tracker, unless the tracker
ignores it; then it is dropped, or it is answered and goes back. -/
theorem registered_cases (hx : x.headers.ipv4 → x.arp = none) {t' : World σ × Router.RouterState L}
    (hrun : Worker.runProcessors (registered P sem mac replies) env x (w, r) = .ok (actions, y, t')) :
    ∃ v, conntrackPacketProcessor P x.headers env w = .ok (v, t'.1) ∧ y.conn = (x.tracked v t'.1).conn ∧
      (v.action ≠ ignorePackets → Worker.actionOf actions = v.action ∧ y.headers = v.m) ∧
      (v.action = ignorePackets →
        Worker.actionOf actions = x.headers.port ∨ Worker.actionOf actions = Worker.dropPackets) := by
  have harr : (registered P sem mac replies : List (Processor σ ε L)) =
      conntrackProcessor P :: if replies then [replyProcessor sem mac] else [] := by
    cases replies <;> rfl
  rw [harr] at hrun
  obtain ⟨⟨action, x₁, t₁⟩, hct, hrun⟩ := bind_eq_ok.1 hrun
  obtain ⟨⟨v, w₁⟩, hv, hct⟩ := bind_eq_ok.1 hct
  cases hct
  obtain ⟨⟨as, x₂, t₂⟩, hreply, hrun⟩ := bind_eq_ok.1 hrun
  cases hrun
  obtain ⟨hport, hip, hproto⟩ := conntrack_kind hv
  cases replies with
  | false =>
    cases hreply
    refine ⟨v, hv, rfl, fun hact => ⟨if_pos hact, rfl⟩, fun hact => .inr ?_⟩
    exact if_neg (not_not.2 hact)
  | true =>
    obtain ⟨⟨action', x₃, t₃⟩, hreply, hnil⟩ := bind_eq_ok.1 hreply
    cases hnil
    obtain ⟨hworld, hconn, hact', hl4⟩ := replyProcessor_cases hreply
    have hlast : Worker.actionOf [v.action, action'] =
        if action' ≠ ignorePackets then action' else Worker.actionOf [v.action] := rfl
    rw [hworld]
    refine ⟨v, hv, hconn, fun hact => ?_, fun hact => ?_⟩
    · obtain ⟨hip', hproto'⟩ := conntrack_ipv4 hv hact
      obtain ⟨hignore, hy⟩ := hl4 (hx hip') (hip.trans hip') (by
        show v.m.next_proto_id = L4_TCP ∨ v.m.next_proto_id = L4_UDP
        rw [hproto]
        exact hproto')
      rw [hlast, if_neg (not_not.2 hignore), hy]
      exact ⟨if_pos hact, rfl⟩
    · rw [hlast]
      by_cases hignore : action' = ignorePackets
      · rw [if_neg (not_not.2 hignore)]
        exact .inr (if_neg (not_not.2 hact))
      · rw [if_pos hignore, hact'.resolve_right hignore]
        exact .inl (congrArg Int.ofNat hport)

/-! ### One treatment for a connection -/

/-- How a connection is treated: the port of its first packet, and what its packets are changed by. -/
structure Treatment where
  port : ℕ
  ctx : ConnContext

/-- The contexts in use and the packets that have been treated go with the treatment of their connections. -/
structure TreatedAs (P : Params σ ε) (attr : ConnAttr) (E : ℕ → Treatment) (s : Core σ)
    (ts : List (Worker.Treated Packet)) : Prop where
  alive : ∀ c, Alive P s c → (s.conns c).port = (E (s.conns c).id).port ∧
    SameEntry (E (s.conns c).id).ctx.entry (s.ctx c).entry
  treated : ∀ t ∈ ts, ∀ n, t.after.conn = some n → n < s.accepted ∧ t.action = ((E n).port ^^^ 1 : ℕ) ∧
    OwnPacket attr (E n).ctx.entry.match_ t.before.headers ∧ t.after.headers = rewrite t.before.headers (E n).ctx

variable {attr : ConnAttr} {E : ℕ → Treatment} {ts : List (Worker.Treated Packet)} {c c' : CtxId}

/-- A connection has one context. -/
theorem one_context {A : Set CtxId} {s : Core σ} (hl : Ledger P s) (ht : TableInv P A s) (hc : Alive P s c)
    (hc' : Alive P s c') (hid : (s.conns c).id = (s.conns c').id) : c = c' := by
  have ho := hl.alive hc
  rw [hid] at ho
  obtain ⟨-, hmatch⟩ := ho.unique (hl.alive hc')
  have hk := ht.stored hc
  rw [hmatch, ht.stored hc'] at hk
  exact (Option.some.inj hk).symm

/-- Connections of before keep their treatment, and new ones get one. -/
theorem TreatedAs.moves (h : TreatedAs P attr E w.2 ts) (hw : WorldInv P w) (hw' : WorldInv P w')
    (hl' : Ledger P w'.2) (hm : Moves P ⟨True, True⟩ (view w) (view w')) :
    ∃ E', TreatedAs P attr E' w'.2 ts := by
  have hnew : ∀ n, ∃ e : Treatment, (n < w.2.accepted → e = E n) ∧ ∀ c, Alive P w'.2 c →
      (w'.2.conns c).id = n → (w'.2.conns c).port = e.port ∧ SameEntry e.ctx.entry (w'.2.ctx c).entry := by
    intro n
    by_cases hlt : n < w.2.accepted
    · refine ⟨E n, fun _ => rfl, fun c hc hid => ?_⟩
      obtain ⟨hc₀, hconns, hentry⟩ := Moves.entry hw.ok hw.inv hm hc (by
        show (w'.2.conns c).id < w.2.accepted
        omega)
      change w'.2.conns c = w.2.conns c at hconns
      obtain ⟨hport, hsame⟩ := h.alive c hc₀
      rw [← hconns, hid] at hport hsame
      exact ⟨hport, hsame.trans hentry⟩
    · by_cases hex : ∃ c, Alive P w'.2 c ∧ (w'.2.conns c).id = n
      · obtain ⟨c₀, hc₀, hid₀⟩ := hex
        refine ⟨⟨(w'.2.conns c₀).port, w'.2.ctx c₀⟩, fun hlt' => absurd hlt' hlt, fun c hc hid => ?_⟩
        obtain rfl := one_context hl' hw'.inv.table hc hc₀ (hid.trans hid₀.symm)
        exact ⟨rfl, SameEntry.refl _⟩
      · exact ⟨E n, fun _ => rfl, fun c hc hid => absurd ⟨c, hc, hid⟩ hex⟩
  choose E' hold hE' using hnew
  refine ⟨E', fun c hc => hE' _ c hc rfl, fun t ht n hn => ?_⟩
  obtain ⟨hlt, hrest⟩ := h.treated t ht n hn
  rw [hold n hlt]
  exact ⟨Nat.lt_of_lt_of_le hlt (Moves.accepted_le hm), hrest⟩

/-- A packet that is not forwarded is ignored or dropped. -/
theorem action_of_none {m : Conntrack.Mbuf} (hrun : conntrackPacketProcessor P m env w = .ok (v, w'))
    (hnone : v.ctx = none) : v.action = ignorePackets ∨ v.action = dropPackets := by
  have hfwd : ∀ {w₁ : World σ} {c : CtxId}, forward m w₁ c env ≠ .ok (v, w') := by
    intro w₁ c hrun
    obtain ⟨w₂, pipe, -, -, -, rfl⟩ := forward_cases hrun
    cases hnone
  rcases packet_cases hrun with ⟨hign, -⟩ | ⟨e, -, -, ⟨c, -, h⟩ | ⟨-, ret, w₁, -, ⟨-, hdrop, -⟩ | ⟨c, -, h⟩⟩⟩
  · exact .inl hign
  · exact absurd h hfwd
  · exact .inr hdrop
  · exact absurd h hfwd

theorem own_config {attr' : ConnAttr} {k : FlowQoSMatch} {m : Conntrack.Mbuf} (h : OwnPacket attr' k m)
    (hsame : SameConfig attr attr') : OwnPacket attr k m := by
  obtain ⟨hen, e, hparse, hk⟩ := h
  refine ⟨?_, e, ?_, hk⟩
  · rw [← hsame.PORT_CT_ENABLED]
    exact hen
  · rw [← packetParser_same hsame]
    exact hparse

section Runs

variable (P) (a : InitArgs) (ports : List (ℕ × UInt64)) (app : σ)

/-- What holds of the application and of the packets that have been treated. -/
structure Served (t : World σ × Router.RouterState L) (ts : List (Worker.Treated Packet)) : Prop where
  inv : WorldInv P t.1
  ledger : Ledger P t.1.2
  config : SameConfig (boot a ports app).2.attr t.1.2.attr
  action : ∀ y ∈ ts, y.action = dropPackets ∨ y.action = 0 ∨ y.action = 1
  treated : ∃ E, TreatedAs P (boot a ports app).2.attr E t.1.2 ts

/-- The tick count is not about to wrap around. -/
def Ready (t : World σ × Router.RouterState L) : Prop := t.1.1.timeout < 2 ^ 64 - 2 ^ 36

variable {P a ports app} {t t' : World σ × Router.RouterState L}

theorem Served.step (h : Served P a ports app t ts) {e : Event σ ε} (hs : Steps P t.1 e t'.1) :
    Served P a ports app t' ts := by
  obtain ⟨hinv, hledger⟩ := hs.inv (L := ⟨True, True⟩) (Q := fun u => Ledger P u.2)
    (fun _ _ hok hinv hl hm => ledger_move hok hinv hl hm) h.inv h.ledger (fun _ => trivial) fun _ _ => trivial
  obtain ⟨hm, -⟩ := hs.moves (L := ⟨True, True⟩) h.inv (fun _ => trivial) fun _ _ => trivial
  obtain ⟨E, hE⟩ := h.treated
  exact ⟨hinv, hledger, h.config.trans (Moves.sameConfig hm), h.action, hE.moves h.inv hinv hledger hm⟩

/-- Of the ports of the machine, one is the other's opposite. -/
theorem opposite_port {p : ℕ} (hp : p < maxEthPorts) : p ^^^ 1 = 0 ∨ p ^^^ 1 = 1 := by
  have hcases : p = 0 ∨ p = 1 := by
    unfold maxEthPorts at hp
    omega
  rcases hcases with rfl | rfl
  · exact .inr rfl
  · exact .inl rfl

/-- One more packet. -/
theorem Served.append (h : Served P a ports app t ts) {y : Worker.Treated Packet}
    (hact : y.action = dropPackets ∨ y.action = 0 ∨ y.action = 1)
    (hy : ∀ E, TreatedAs P (boot a ports app).2.attr E t.1.2 ts → ∀ n, y.after.conn = some n →
      n < t.1.2.accepted ∧ y.action = ((E n).port ^^^ 1 : ℕ) ∧
        OwnPacket (boot a ports app).2.attr (E n).ctx.entry.match_ y.before.headers ∧
        y.after.headers = rewrite y.before.headers (E n).ctx) :
    Served P a ports app t (ts ++ [y]) := by
  obtain ⟨E, hE⟩ := h.treated
  refine ⟨h.inv, h.ledger, h.config, fun y' hy' => ?_, E, hE.alive, fun y' hy' => ?_⟩
  · rcases List.mem_append.1 hy' with hold | hnew
    · exact h.action y' hold
    · obtain rfl := List.mem_singleton.1 hnew
      exact hact
  · rcases List.mem_append.1 hy' with hold | hnew
    · exact hE.treated y' hold
    · obtain rfl := List.mem_singleton.1 hnew
      exact hy E hE

/-- **A packet.** -/
theorem served_keeps (hports : ∀ q ∈ ports, q.1 < maxEthPorts) :
    Worker.Keeps (registered P sem mac replies : List (Processor σ ε L)) Comes maxEthPorts Ready
      (Served P a ports app) := by
  intro x t t' ts actions packet p hp hcomes hready h hrun
  obtain ⟨hport, harp⟩ := hcomes
  obtain ⟨v, hv, hconn, hact, hign⟩ := registered_cases harp hrun
  have hproc : Processes P t.1 x.packet.headers x.env v t'.1 := ⟨hready, hv⟩
  obtain ⟨hgoes, -⟩ := packet_goes (L := ⟨True, True⟩) h.inv.ok h.inv.inv h.inv.mgr
    (by unfold Ready at hready; omega) (fun _ => trivial) hv
  have h' : Served P a ports app t' ts := h.step hproc.steps
  have hready' : Ready t' := by
    unfold Ready
    rw [hgoes.timeout]
    exact hready
  have hge : ∀ {action : ℤ}, action = dropPackets ∨ action = 0 ∨ action = 1 → Worker.dropPackets ≤ action := by
    rintro action (ha | ha | ha) <;> rw [ha] <;> decide
  unfold Packet.tracked at hconn
  cases hctx : v.ctx with
  | none =>
    -- the tracker does not forward the packet
    rw [hctx] at hconn
    have hout : Worker.actionOf actions = dropPackets ∨ Worker.actionOf actions = 0 ∨
        Worker.actionOf actions = 1 := by
      rcases action_of_none hv hctx with hi | hd
      · rcases hign hi with hback | hdrop
        · right
          rw [hback, hport]
          unfold maxEthPorts at hp
          omega
        · exact .inl hdrop
      · left
        rw [(hact (by rw [hd]; decide)).1]
        exact hd
    refine ⟨hge hout, hready', h'.append hout fun E _ n hn => ?_⟩
    change packet.conn = some n at hn
    rw [hconn] at hn
    cases hn
  | some c =>
    rw [hctx] at hconn
    obtain ⟨k, hown, hk, hm, haction⟩ := hproc.rewrites h.inv hctx
    have hne : v.action ≠ ignorePackets := by
      rw [haction]
      unfold ignorePackets
      omega
    obtain ⟨hactions, hheaders⟩ := hact hne
    have halive := (h'.inv.inv.table.table hk).1
    have hconnport : (t'.1.2.conns c).port < maxEthPorts := by
      have hen := (h'.inv.inv.table.made halive).enabled
      change t'.1.2.attr.PORT_CT_ENABLED (t'.1.2.conns c).port at hen
      rw [h'.config.PORT_CT_ENABLED] at hen
      exact hports _ (boot_ports a ports app hen)
    have hout : Worker.actionOf actions = dropPackets ∨ Worker.actionOf actions = 0 ∨
        Worker.actionOf actions = 1 := by
      right
      rw [hactions, haction]
      exact (opposite_port hconnport).imp (congrArg Int.ofNat) (congrArg Int.ofNat)
    refine ⟨hge hout, hready', h'.append hout fun E hE n hn => ?_⟩
    change packet.conn = some n at hn
    rw [hconn] at hn
    obtain rfl : (t'.1.2.conns c).id = n := Option.some.inj hn
    obtain ⟨hportE, hentry⟩ := hE.alive c halive
    refine ⟨h'.ledger.open_lt (h'.ledger.alive halive), ?_, ?_, ?_⟩
    · show Worker.actionOf actions = _
      rw [hactions, haction, hportE]
    · have hmatch : (E (t'.1.2.conns c).id).ctx.entry.match_ = k :=
        hentry.1.symm.trans (h'.inv.inv.table.table hk).2
      rw [hmatch]
      exact own_config hown h.config
    · show packet.headers = _
      rw [hheaders, hm, rewrite_congr hentry]

theorem served_boot (ha : a.maxConntrack = P.maxConntrack) (hok : HandlerOk P (boot a ports app).2.attr)
    (r : Router.RouterState L) : Served P a ports app (boot a ports app, r) [] where
  inv := worldInv_boot ha ports app hok
  ledger := ledger_boot ha ports app
  config := SameConfig.refl _
  action y hy := by cases hy
  treated := ⟨fun _ => ⟨0, {}⟩, fun c hc => absurd hc (boot_not_alive ha ports app c), fun y hy => by cases hy⟩

/-! ### Runs -/

/-- What the other general processors of the core do, and the main core to the router. -/
inductive General (σ ε L : Type) where
  | core (e : Event σ ε)
  | router (r : Router.RouterState L)

def GeneralStep (P : Params σ ε) (t : World σ × Router.RouterState L) :
    General σ ε L → World σ × Router.RouterState L → Prop
  | .core e, t' => (∀ m env, e ≠ .packet m env) ∧ Steps P t.1 e t'.1 ∧ t'.2 = t.2
  | .router r, t' => t' = (t.1, r)

/-- A core that has been initialised and launched. -/
def launched (a : InitArgs) (ports : List (ℕ × UInt64)) (app : σ) (r : Router.RouterState L) (queue_id : ℕ → ℕ) :
    Worker.Machine Packet (World σ × Router.RouterState L) :=
  .launch (fun _ => maxEthPorts) queue_id (boot a ports app, r)

/-- The packet has been forwarded for the connection. -/
def OfConn (n : ℕ) (t : Worker.Treated Packet) : Prop := t.after.conn = some n

instance (n : ℕ) : DecidablePred (OfConn n) := fun t => inferInstanceAs (Decidable (t.after.conn = some n))

/-- **The order of a connection.** In every run of a core with the processors of an application: every packet that
is received is treated, in the order in which they come, and is dropped or directed to one of the ports; the
transmit buffers stay within their bounds; and the packets of a connection leave by one port alone, in the order
in which they came, all changed by the same entry. -/
theorem run_flows (P : Params σ ε) (sem : Router.Locking) (mac : ℕ → Router.Mac) (replies : Bool) (cid : ℕ)
    {a : InitArgs} (ha : a.maxConntrack = P.maxConntrack) {ports : List (ℕ × UInt64)}
    (hports : ∀ q ∈ ports, q.1 < maxEthPorts) (app : σ) (hok : HandlerOk P (boot a ports app).2.attr)
    (r : Router.RouterState L) (queue_id : ℕ → ℕ)
    {es : List (Worker.MachineEvent (PacketEnv ε) Packet (General σ ε L))}
    {s : Worker.Machine Packet (World σ × Router.RouterState L)}
    (hr : Trace (Worker.MachineStep (registered P sem mac replies) cid Comes Ready (GeneralStep P))
      (launched a ports app r queue_id) es s) :
    s.worker.received = s.treated.map Worker.Treated.m ∧
    (∀ t ∈ s.treated, t.action = dropPackets ∨ t.action = 0 ∨ t.action = 1) ∧
    (∀ p, (s.worker.buf cid p).tx_len ≤ Worker.maxPktBurst) ∧
    ∀ n, ∃ (p : ℕ) (k : FlowQoSMatch) (c : ConnContext),
      (∀ t ∈ s.treated, OfConn n t → t.action = p ∧ OwnPacket (boot a ports app).2.attr k t.before.headers ∧
        t.after.headers = rewrite t.before.headers c) ∧
      ∀ q, ((s.worker.accepted q).filter fun m => m ∈ s.ofClass (OfConn n)).Sublist
        (if q = p then s.ofClass (OfConn n) else []) := by
  have h : Worker.MachineInv cid maxEthPorts (Served P a ports app) s :=
    Worker.run_machine (served_keeps hports) ?_ (served_boot ha hok r) hr
  · obtain ⟨E, hE⟩ := h.app.treated
    refine ⟨?_, h.app.action, fun p => (h.transmits.out p).len, fun n => ?_⟩
    · rw [h.transmits.received, List.append_nil]
    · refine ⟨(E n).port ^^^ 1, (E n).ctx.entry.match_, (E n).ctx, fun t ht hn => (hE.treated t ht n hn).2, ?_⟩
      exact h.in_order (OfConn n) fun t ht hn => (hE.treated t ht n hn).2.1
  · rintro t e t' ts hserved hs
    cases e with
    | core e =>
      obtain ⟨-, hs, -⟩ := hs
      exact hserved.step hs
    | router r =>
      cases hs
      exact ⟨hserved.inv, hserved.ledger, hserved.config, hserved.action, hserved.treated⟩

end Runs

/-! ### Three packets of a connection, and a ping between them -/

def noMsg : Router.IcmpMsg :=
  { icmp_type := 0, icmp_code := 0, icmp_cksum := 0, icmp_ident := 0, icmp_seq_nb := 0, data := [] }

def tcpPacket (ttl : UInt8) : Packet :=
  { headers := { packetOf L4_TCP with time_to_live := ttl }, icmp := noMsg }

/-- A ping of 192.168.200.1 that comes in by port 0. -/
def pingPacket : Packet :=
  { headers := { port := 0, next_proto_id := 1, dst_addr := 0x01C8A8C0 }, icmp := Router.firstPing }

/-- The NIC refuses one of the packets that it is offered for port 1. -/
def firstBursts (p : ℕ) : Worker.ArrivalBurst (PacketEnv Unit) Packet :=
  if p = 0 then
    { rx := [⟨10, tcpPacket 64, offloads 0, 0⟩, ⟨11, pingPacket, offloads 0, 0⟩,
        ⟨12, tcpPacket 9, offloads 0, 0⟩] }
  else { refused := 1 }

def secondBursts (p : ℕ) : Worker.ArrivalBurst (PacketEnv Unit) Packet :=
  if p = 0 then { rx := [⟨13, tcpPacket 64, offloads 0, 0⟩] } else {}

def threeAndPing : List (Worker.MachineEvent (PacketEnv Unit) Packet (General ℕ Unit Unit)) :=
  [.poll firstBursts, .general (.core (.tick 1)), .poll secondBursts]

theorem onPorts_firstBursts : Worker.OnPorts Comes 2 firstBursts := by
  intro p _ x hx
  unfold firstBursts at hx
  split at hx
  · next hp =>
    subst hp
    simp only [List.mem_cons, List.not_mem_nil, or_false] at hx
    rcases hx with rfl | rfl | rfl
    · exact ⟨rfl, fun _ => rfl⟩
    · exact ⟨rfl, fun _ => rfl⟩
    · exact ⟨rfl, fun _ => rfl⟩
  · cases hx

theorem onPorts_secondBursts : Worker.OnPorts Comes 2 secondBursts := by
  intro p _ x hx
  unfold secondBursts at hx
  split at hx
  · next hp =>
    subst hp
    obtain rfl := List.mem_singleton.1 hx
    exact ⟨rfl, fun _ => rfl⟩
  · cases hx

/-- The second packet of the connection is lost, the ping goes back. -/
theorem run_flows_three : ∃ s : Worker.Machine Packet (World ℕ × Router.RouterState Unit),
    s.worker.accepted 0 = [11] ∧ s.worker.accepted 1 = [10, 13] ∧ s.ofClass (OfConn 0) = [10, 12, 13] ∧
    ∃ p : ℕ, ∀ q, ((s.worker.accepted q).filter fun m => m ∈ s.ofClass (OfConn 0)).Sublist
      (if q = p then s.ofClass (OfConn 0) else []) := by
  obtain ⟨s, hr, h0, h1, hclass⟩ : ∃ s : Worker.Machine Packet (World ℕ × Router.RouterState Unit),
      Trace (Worker.MachineStep (registered (accepting id) .rwlock (fun _ => Router.routerMac) true) 0 Comes Ready
        (GeneralStep (accepting id)))
        (launched oneEntry [(0, AGING ||| SIP)] 0 (Router.routerAt 0xC0A8C801) id) threeAndPing s ∧
      s.worker.accepted 0 = [11] ∧ s.worker.accepted 1 = [10, 13] ∧ s.ofClass (OfConn 0) = [10, 12, 13] := by
    refine ⟨_, .cons ⟨?_, onPorts_firstBursts, ?_, rfl⟩ (.cons ⟨(_, _), ⟨?_, ⟨?_, rfl⟩, rfl⟩, rfl⟩
      (.cons ⟨?_, onPorts_secondBursts, ?_, rfl⟩ (.nil _))), ?_, ?_, ?_⟩
    · show (_ : ℕ) < _
      decide +kernel
    · decide +kernel
    · rintro m env ⟨⟩
    · decide +kernel
    · show (_ : ℕ) < _
      decide +kernel
    · decide +kernel
    · decide +kernel
    · decide +kernel
    · decide +kernel
  obtain ⟨-, -, -, hflows⟩ := run_flows (accepting id) .rwlock (fun _ => Router.routerMac) true 0 rfl (by decide) 0
    (.inl keepsAll_accepting) (Router.routerAt 0xC0A8C801) id hr
  obtain ⟨p, -, -, -, horder⟩ := hflows 0
  exact ⟨s, h0, h1, hclass, p, horder⟩

end FlowQoS.Flows
