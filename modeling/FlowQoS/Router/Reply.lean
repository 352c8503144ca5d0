import FlowQoS.Lib.OnesComplement
import FlowQoS.Router.Local

/-!
# Replies to ARP and ICMP (`flowQoS_ARP_ICMP_PROCESS`)

A frame for the address of its port is turned into the reply and goes out where it has come in. An ARP frame
is answered whatever its opcode is, so an answer from the port's peer is answered again: an exchange
between two routers ends after at most one reply exactly when the first frame is not for its port, or is a
request from an address other than the peer's (`exchange_ends_iff`).

The checksum of an echo reply is that of the request plus 8 in the word that the host reads, and the carry
out of the word is lost: a reply to a valid request is valid exactly when there is none
(`echoReply_valid_iff`).
-/

namespace FlowQoS.Router

open Lib

variable {L : Type} {sem : Locking} {r r' : RouterState L}

def ignorePackets : ℤ := -2
def RTE_ETHER_TYPE_IPV4 : UInt16 := 0x0800
def RTE_ETHER_ADDR_LEN : UInt8 := 6
def RTE_IP_ICMP_ECHO_REQUEST : UInt8 := 8
def RTE_IP_ICMP_ECHO_REPLY : UInt8 := 0

/-! ### Frames -/

/-- `rte_arp_hdr`, its words in host order. -/
structure ArpHdr where
  arp_hardware : UInt16 := 1
  arp_protocol : UInt16 := RTE_ETHER_TYPE_IPV4
  arp_hlen : UInt8 := RTE_ETHER_ADDR_LEN
  arp_plen : UInt8 := 4
  arp_opcode : UInt16
  arp_sha : Mac
  arp_sip : UInt32
  arp_tha : Mac
  arp_tip : UInt32

/-- What a reply reads and writes of `rte_ipv4_hdr`, the words in host order. -/
structure Ipv4Hdr where
  packet_id : UInt16 := 0
  fragment_offset : UInt16 := 0
  time_to_live : UInt8 := 64
  next_proto_id : UInt8
  hdr_checksum : UInt16 := 0
  src_addr : UInt32
  dst_addr : UInt32

/-- An ICMP message: `rte_icmp_hdr`, its words as the little-endian host reads them, and the data behind. -/
structure IcmpMsg where
  icmp_type : UInt8
  icmp_code : UInt8
  icmp_cksum : UInt16
  icmp_ident : UInt16
  icmp_seq_nb : UInt16
  data : List UInt8

/-- What stands behind the Ethernet header: ARP, where `ether_type` says so; IPv4, where `packet_type` says
so, with what begins 20 bytes into it; or something else. -/
inductive FrameBody where
  | arp (arp : ArpHdr)
  | ipv4 (ip : Ipv4Hdr) (icmp : IcmpMsg)
  | other

/-- A packet buffer with its frame. -/
structure Frame where
  port : ℕ
  s_addr : Mac
  d_addr : Mac
  body : FrameBody
  l2_len : ℕ := 0
  l3_len : ℕ := 0
  PKT_TX_IPV4 : Bool := false
  PKT_TX_IP_CKSUM : Bool := false

/-- `htons` on a little-endian host. -/
def htons (x : UInt16) : UInt16 := x <<< 8 ||| x >>> 8

/-! ### The replies -/

/-- `flowQoS_router_getLocalIP`. -/
def getLocalIP (r : RouterState L) (port_id : ℕ) : UInt32 := (r.localPortInfo port_id).ip

/-- An ARP frame as it is sent back by a port with the given MAC. -/
def arpReply (mac : Mac) (m : Frame) (arp : ArpHdr) : Frame :=
  { m with
    d_addr := m.s_addr
    s_addr := mac
    body := .arp
      { arp_opcode := 2
        arp_sha := mac
        arp_sip := arp.arp_tip
        arp_tha := m.s_addr
        arp_tip := arp.arp_sip } }

/-- An echo request as it is sent back. -/
def echoReply (m : Frame) (ip : Ipv4Hdr) (icmp : IcmpMsg) : Frame :=
  { m with
    s_addr := m.d_addr
    d_addr := m.s_addr
    l2_len := 14
    l3_len := 20
    PKT_TX_IPV4 := true
    PKT_TX_IP_CKSUM := true
    body := .ipv4
      { ip with
        packet_id := 0
        fragment_offset := 0
        time_to_live := 64
        src_addr := ip.dst_addr
        dst_addr := ip.src_addr
        hdr_checksum := 0 }
      { icmp with
        icmp_type := RTE_IP_ICMP_ECHO_REPLY
        icmp_cksum := icmp.icmp_cksum + htons 0x0800 } }

/-- `flowQoS_ARP_ICMP_PROCESS`; the MACs are those of `localPortInfo`. -/
def arpIcmpProcess (sem : Locking) (mac : ℕ → Mac) (r : RouterState L) (m : Frame) :
    Except Fault (ℤ × Frame × RouterState L) := do
  match m.body with
  | .arp arp =>
    if arp.arp_tip = getLocalIP r m.port then
      let (_, r) ← putArp sem r m.port arp.arp_sip m.s_addr
      return (m.port, arpReply (mac m.port) m arp, r)
    else return (ignorePackets, m, r)
  | .ipv4 ip icmp =>
    if ip.next_proto_id = 1 ∧ ip.dst_addr = getLocalIP r m.port ∧
        icmp.icmp_type = RTE_IP_ICMP_ECHO_REQUEST then
      return (m.port, echoReply m ip icmp, r)
    else return (ignorePackets, m, r)
  | .other => return (ignorePackets, m, r)

/-- An ARP frame for the address of its port is answered where the table can be written. -/
theorem arpIcmpProcess_own {mac : ℕ → Mac} {m : Frame} {arp : ArpHdr} {ret : ℤ} (hbody : m.body = .arp arp)
    (htip : arp.arp_tip = getLocalIP r m.port)
    (hput : putArp sem r m.port arp.arp_sip m.s_addr = .ok (ret, r')) :
    arpIcmpProcess sem mac r m = .ok (m.port, arpReply (mac m.port) m arp, r') := by
  unfold arpIcmpProcess
  rw [hbody]
  simp only
  rw [if_pos htip, hput]
  rfl

theorem arpIcmpProcess_other {mac : ℕ → Mac} {m : Frame} {arp : ArpHdr} (hbody : m.body = .arp arp)
    (htip : arp.arp_tip ≠ getLocalIP r m.port) :
    arpIcmpProcess sem mac r m = .ok (ignorePackets, m, r) := by
  unfold arpIcmpProcess
  rw [hbody]
  simp only
  rw [if_neg htip]
  rfl

/-- What is answered is for the address of its port. -/
theorem arpIcmpProcess_arp {mac : ℕ → Mac} {m m' : Frame} {arp : ArpHdr} (hbody : m.body = .arp arp)
    (h : arpIcmpProcess sem mac r m = .ok (m.port, m', r')) :
    arp.arp_tip = getLocalIP r m.port ∧ m' = arpReply (mac m.port) m arp ∧
      ∃ ret, putArp sem r m.port arp.arp_sip m.s_addr = .ok (ret, r') := by
  by_cases htip : arp.arp_tip = getLocalIP r m.port
  · cases hput : putArp sem r m.port arp.arp_sip m.s_addr with
    | error e =>
      unfold arpIcmpProcess at h
      simp only [hbody, if_pos htip, hput] at h
      cases h
    | ok x =>
      rw [arpIcmpProcess_own hbody htip (show _ = Except.ok (x.1, x.2) from hput)] at h
      cases h
      exact ⟨htip, rfl, x.1, rfl⟩
  · rw [arpIcmpProcess_other hbody htip] at h
    have haction : ignorePackets = (m.port : ℤ) := congrArg Prod.fst (Except.ok.inj h)
    unfold ignorePackets at haction
    omega

/-! ### Echo requests -/

/-- The bytes of the message. -/
def IcmpMsg.bytes (icmp : IcmpMsg) : List UInt8 :=
  icmp.icmp_type :: icmp.icmp_code ::
    (Ones.le16 icmp.icmp_cksum ++ (Ones.le16 icmp.icmp_ident ++ (Ones.le16 icmp.icmp_seq_nb ++ icmp.data)))

/-- The checksum verifies: the words of the message in network order add up to all ones. -/
def IcmpMsg.Verifies (icmp : IcmpMsg) : Prop := Ones.Valid Ones.allOnes (Ones.beWords icmp.bytes)

instance (icmp : IcmpMsg) : Decidable icmp.Verifies := inferInstanceAs (Decidable (Ones.Valid _ _))

/-- An echo request to the address of the port, with a checksum that verifies. -/
structure EchoRequest (r : RouterState L) (m : Frame) (ip : Ipv4Hdr) (icmp : IcmpMsg) : Prop where
  body : m.body = .ipv4 ip icmp
  proto : ip.next_proto_id = 1
  dst : ip.dst_addr = getLocalIP r m.port
  type : icmp.icmp_type = RTE_IP_ICMP_ECHO_REQUEST
  verifies : icmp.Verifies

/-- What the words of a message add up to on the host. -/
theorem IcmpMsg.sum_bytes (icmp : IcmpMsg) : (Ones.leWords icmp.bytes).sum =
    icmp.icmp_type.toNat + 256 * icmp.icmp_code.toNat + (icmp.icmp_cksum.toNat + (icmp.icmp_ident.toNat +
      (icmp.icmp_seq_nb.toNat + (Ones.leWords icmp.data).sum))) := by
  unfold IcmpMsg.bytes
  rw [Ones.leWords_two, Ones.leWords_le16, Ones.leWords_le16, Ones.leWords_le16]
  simp

theorem IcmpMsg.verifies_iff (icmp : IcmpMsg) :
    icmp.Verifies ↔ 0 < (Ones.leWords icmp.bytes).sum ∧ Ones.allOnes ∣ (Ones.leWords icmp.bytes).sum := by
  unfold IcmpMsg.Verifies
  rw [Ones.valid_beWords, Ones.valid_iff (by decide) (Ones.leWords_le _)]

/-- The reply takes 8 from the first word and adds 8 to the checksum, which may run over. -/
theorem cksum_reply (cksum : UInt16) : (cksum + htons 0x0800).toNat = (cksum.toNat + 8) % 65536 := by
  rw [UInt16.toNat_add, show (htons 0x0800).toNat = 8 by decide]

theorem EchoRequest.process (sem : Locking) (mac : ℕ → Mac) {m : Frame} {ip : Ipv4Hdr} {icmp : IcmpMsg}
    (h : EchoRequest r m ip icmp) :
    arpIcmpProcess sem mac r m = .ok (m.port, echoReply m ip icmp, r) := by
  unfold arpIcmpProcess
  rw [h.body]
  simp only
  rw [if_pos ⟨h.proto, h.dst, h.type⟩]
  rfl

/-- **Echo replies.** The reply to a valid echo request is the request with the type 0 and another checksum,
which verifies if and only if the word of the old one is less than `0xFFF8`. -/
theorem echoReply_valid_iff (sem : Locking) (mac : ℕ → Mac) {m : Frame} {ip : Ipv4Hdr} {icmp : IcmpMsg}
    (h : EchoRequest r m ip icmp) :
    ∃ (m' : Frame) (ip' : Ipv4Hdr) (cksum : UInt16),
      arpIcmpProcess sem mac r m = .ok (m.port, m', r) ∧
      m'.body = .ipv4 ip' { icmp with icmp_type := RTE_IP_ICMP_ECHO_REPLY, icmp_cksum := cksum } ∧
      (IcmpMsg.Verifies { icmp with icmp_type := RTE_IP_ICMP_ECHO_REPLY, icmp_cksum := cksum } ↔
        icmp.icmp_cksum < 0xFFF8) := by
  refine ⟨_, _, _, h.process sem mac, rfl, ?_⟩
  have hold := icmp.verifies_iff.1 h.verifies
  have hc := icmp.icmp_cksum.toNat_lt
  rw [IcmpMsg.verifies_iff, IcmpMsg.sum_bytes, UInt16.lt_iff_toNat_lt]
  rw [IcmpMsg.sum_bytes, h.type] at hold
  simp only [cksum_reply, RTE_IP_ICMP_ECHO_REQUEST, RTE_IP_ICMP_ECHO_REPLY, Ones.allOnes] at hold ⊢
  have h8 : (8 : UInt8).toNat = 8 := rfl
  have h0 : (0 : UInt8).toNat = 0 := rfl
  have hbound : (0xFFF8 : UInt16).toNat = 65528 := rfl
  rw [h8] at hold
  rw [h0, hbound]
  by_cases hfits : icmp.icmp_cksum.toNat + 8 < 65536
  · rw [Nat.mod_eq_of_lt hfits]
    omega
  · omega

def routerMac : Mac := macA
def peerMac : Mac := #v[2, 0, 0, 0, 0, 2]

/-- A router that has the address on its ports, and no ARP tables. -/
def routerAt (ip : UInt32) : RouterState Unit :=
  { registRoutingModule () with localPortInfo := fun i => { name := portName i, ip := ip, prefixLen := 24 } }

/-- A ping of 192.168.200.1 from 192.168.200.2. -/
def pingHdr : Ipv4Hdr := { next_proto_id := 1, src_addr := 0xC0A8C802, dst_addr := 0xC0A8C801 }

def ping (icmp : IcmpMsg) : Frame :=
  { port := 0, s_addr := peerMac, d_addr := routerMac, body := .ipv4 pingHdr icmp }

def firstPing : IcmpMsg :=
  { icmp_type := 8, icmp_code := 0, icmp_cksum := 0xFFEB, icmp_ident := 1, icmp_seq_nb := 1, data := [10] }

/-- A ping whose checksum runs over. -/
def latePing : IcmpMsg :=
  { icmp_type := 8, icmp_code := 0, icmp_cksum := 0xFFF8, icmp_ident := 0xFFFE, icmp_seq_nb := 0, data := [] }

theorem echoReply_valid_iff_firstPing :
    ∃ (m' : Frame) (ip' : Ipv4Hdr) (cksum : UInt16),
      arpIcmpProcess .rwlock (fun _ => routerMac) (routerAt 0xC0A8C801) (ping firstPing) =
        .ok (0, m', routerAt 0xC0A8C801) ∧
      m'.body = .ipv4 ip' { firstPing with icmp_type := RTE_IP_ICMP_ECHO_REPLY, icmp_cksum := cksum } ∧
      IcmpMsg.Verifies { firstPing with icmp_type := RTE_IP_ICMP_ECHO_REPLY, icmp_cksum := cksum } := by
  obtain ⟨m', ip', cksum, hrun, hbody, hiff⟩ :=
    echoReply_valid_iff .rwlock (fun _ => routerMac)
      (show EchoRequest (routerAt 0xC0A8C801) (ping firstPing) pingHdr firstPing from
        ⟨rfl, rfl, rfl, rfl, by decide⟩)
  exact ⟨m', ip', cksum, hrun, hbody, hiff.2 (by decide)⟩

/-- The reply to the late ping does not verify. -/
theorem late_reply_invalid :
    EchoRequest (routerAt 0xC0A8C801) (ping latePing) pingHdr latePing ∧ latePing.icmp_code = 0 ∧
    ∃ (m' : Frame) (ip' : Ipv4Hdr) (icmp' : IcmpMsg),
      arpIcmpProcess .rwlock (fun _ => routerMac) (routerAt 0xC0A8C801) (ping latePing) =
        .ok (0, m', routerAt 0xC0A8C801) ∧ m'.body = .ipv4 ip' icmp' ∧ ¬ icmp'.Verifies :=
  ⟨⟨rfl, rfl, rfl, rfl, by decide⟩, rfl, _, _, _, rfl, rfl, by decide⟩

/-! ### Exchanges -/

/-- Two routers joined by a link, and a frame on its way to one of them. -/
structure Link (L : Type) where
  router : Bool → RouterState L
  dest : Bool
  frame : Frame

section Exchange

variable (sem) (mac : Bool → ℕ → Mac) (port : Bool → ℕ)

/-- The address of the port at an end of the link. -/
def Link.own (s : Link L) (side : Bool) : UInt32 := getLocalIP (s.router side) (port side)

/-- The frame in the buffer of the port that receives it. -/
def Link.received (s : Link L) : Frame := { s.frame with port := port s.dest }

/-- The router the frame comes to answers it, and the answer goes back over the link. -/
def Replies (s : Link L) (m' : Frame) (s' : Link L) : Prop :=
  ∃ r', arpIcmpProcess sem (mac s.dest) (s.router s.dest) (s.received port) =
      .ok (port s.dest, m', r') ∧
    s' = { router := Function.update s.router s.dest r', dest := !s.dest, frame := m' }

/-- The first frame is answered only if it is a request for the address of its port, and it is followed by
at most one answer. -/
structure ExchangeEnds (s : Link L) (arp : ArpHdr) : Prop where
  request : ∀ m' s', Replies sem mac port s m' s' → arp.arp_opcode = 1 ∧ arp.arp_tip = s.own port s.dest
  replies : ∀ ms s', Trace (Replies sem mac port) s ms s' → ms.length ≤ 1

variable {sem mac port} {s s' : Link L} {m' : Frame} {arp : ArpHdr}

theorem putArp_ports {port_id : ℕ} {ip : UInt32} {mac : Mac} {ret : ℤ}
    (h : putArp sem r port_id ip mac = .ok (ret, r')) : r'.localPortInfo = r.localPortInfo := by
  unfold putArp writeArp at h
  obtain ⟨lock, -, h⟩ := bind_eq_ok.1 h
  split at h
  · cases h
    rfl
  · cases h
    rfl

theorem putArp_free (sem : Locking) (h : LocksFree r) (port_id : ℕ) (ip : UInt32) (mac : Mac) :
    ∃ ret r', putArp sem r port_id ip mac = .ok (ret, r') ∧ LocksFree r' := by
  have hfree : ∀ arps, LocksFree (r.setArp port_id 0 arps) := fun arps => ⟨h.1, fun i => by
    by_cases hi : i = port_id
    · subst hi
      simp [RouterState.setArp]
    · simpa [RouterState.setArp, hi] using h.2 i⟩
  obtain ⟨lock, hlock, hunlock⟩ : ∃ lock, sem.writeLock (r.arp_tables port_id).lock = .ok lock ∧
      sem.writeUnlock lock = 0 := by
    rw [h.2 port_id]
    cases sem
    · exact ⟨-1, rfl, rfl⟩
    · exact ⟨0, rfl, rfl⟩
  unfold putArp writeArp
  rw [hlock]
  simp only [bind, Except.bind, hunlock]
  split
  · exact ⟨_, _, rfl, hfree _⟩
  · exact ⟨_, _, rfl, hfree _⟩

/-- A frame that is answered is for the port it comes to; the answer is for the sender of the frame, and no
address changes. -/
theorem Replies.answer (h : Replies sem mac port s m' s') (hbody : s.frame.body = .arp arp) :
    arp.arp_tip = s.own port s.dest ∧ s'.dest = !s.dest ∧ (∀ side, s'.own port side = s.own port side) ∧
      ∃ arp', s'.frame.body = .arp arp' ∧ arp'.arp_sip = arp.arp_tip ∧ arp'.arp_tip = arp.arp_sip := by
  obtain ⟨r', hrun, rfl⟩ := h
  obtain ⟨htip, rfl, ret, hput⟩ := arpIcmpProcess_arp (show (s.received port).body = .arp arp from hbody) hrun
  refine ⟨htip, rfl, fun side => ?_, _, rfl, rfl, rfl⟩
  by_cases hside : side = s.dest
  · subst hside
    simp [Link.own, getLocalIP, putArp_ports hput]
  · simp [Link.own, hside]

/-- A frame for the port it comes to is answered, and then no lock is held. -/
theorem replies_own (sem : Locking) (mac : Bool → ℕ → Mac)
    (hfree : ∀ side, LocksFree (s.router side)) (hbody : s.frame.body = .arp arp)
    (htip : arp.arp_tip = s.own port s.dest) :
    ∃ m' s', Replies sem mac port s m' s' ∧ ∀ side, LocksFree (s'.router side) := by
  obtain ⟨ret, r', hput, hfree'⟩ :=
    putArp_free sem (hfree s.dest) (port s.dest) arp.arp_sip s.frame.s_addr
  have hrun : arpIcmpProcess sem (mac s.dest) (s.router s.dest) (s.received port) = _ :=
    arpIcmpProcess_own hbody htip hput
  refine ⟨_, _, ⟨r', hrun, rfl⟩, fun side => ?_⟩
  by_cases hside : side = s.dest
  · subst hside
    simpa using hfree'
  · simpa [hside] using hfree side

/-! ### Frames between the two addresses -/

/-- The frame on its way is from the address at the other end of the link, for the address at this end. -/
structure Between (port : Bool → ℕ) (s : Link L) (arp : ArpHdr) : Prop where
  free : ∀ side, LocksFree (s.router side)
  body : s.frame.body = .arp arp
  tip : arp.arp_tip = s.own port s.dest
  sip : arp.arp_sip = s.own port (!s.dest)

/-- It is answered by another one. -/
theorem Between.step (sem : Locking) (mac : Bool → ℕ → Mac) (h : Between port s arp) :
    ∃ m' s' arp', Replies sem mac port s m' s' ∧ Between port s' arp' := by
  obtain ⟨m', s', hreply, hfree⟩ := replies_own sem mac h.free h.body h.tip
  obtain ⟨-, hto, hown, arp', hbody, hsip, htip⟩ := hreply.answer h.body
  refine ⟨m', s', arp', hreply, hfree, hbody, ?_, ?_⟩
  · rw [htip, h.sip, hown, hto]
  · rw [hsip, h.tip, hown, hto, Bool.not_not]

/-- The exchange goes on for ever. -/
theorem Between.endless (sem : Locking) (mac : Bool → ℕ → Mac) (n : ℕ) :
    ∀ {s : Link L} {arp : ArpHdr}, Between port s arp →
      ∃ ms s', Trace (Replies sem mac port) s ms s' ∧ ms.length = n := by
  induction n with
  | zero =>
    intro s arp _
    exact ⟨[], s, .nil s, rfl⟩
  | succ n ih =>
    intro s arp h
    obtain ⟨m', s₁, arp', hreply, h₁⟩ := h.step sem mac
    obtain ⟨ms, s', htrace, hlen⟩ := ih h₁
    exact ⟨m' :: ms, s', .cons hreply htrace, by rw [List.length_cons, hlen]⟩

/-- **Exchanges.** Between two routers that hold no lock, the exchange after an ARP frame ends as it should if
and only if the frame is not for the address of its port, or is a request from an address other than that of
the port at the other end. -/
theorem exchange_ends_iff (hfree : ∀ side, LocksFree (s.router side)) (hbody : s.frame.body = .arp arp) :
    ExchangeEnds sem mac port s arp ↔
      (arp.arp_tip ≠ s.own port s.dest ∨ arp.arp_opcode = 1 ∧ arp.arp_sip ≠ s.own port (!s.dest)) := by
  constructor
  · intro h
    by_cases htip : arp.arp_tip = s.own port s.dest
    · obtain ⟨m', s', hreply, -⟩ := replies_own sem mac hfree hbody htip
      refine .inr ⟨(h.request m' s' hreply).1, fun hsip => ?_⟩
      obtain ⟨ms, s₂, htrace, hlen⟩ := Between.endless sem mac 2 ⟨hfree, hbody, htip, hsip⟩
      have hle := h.replies ms s₂ htrace
      omega
    · exact .inl htip
  · intro h
    refine ⟨fun m' s' hreply => ?_, fun ms s' htrace => ?_⟩
    · have htip := (hreply.answer hbody).1
      exact ⟨(h.resolve_left fun hne => hne htip).1, htip⟩
    · cases htrace with
      | nil => simp
      | @cons _ s₁ _ m₁ ms hreply htrace =>
        obtain ⟨htip, hto, hown, arp₁, hbody₁, -, htip₁⟩ := hreply.answer hbody
        have hsip := (h.resolve_left fun hne => hne htip).2
        cases htrace with
        | nil => simp
        | @cons _ s₂ _ m₂ ms hreply₂ htrace =>
          have hback := (hreply₂.answer hbody₁).1
          rw [htip₁, hown, hto] at hback
          exact absurd hback hsip

end Exchange

/-! ### 192.168.200.1 and 192.168.200.2 -/

/-- Who has 192.168.200.1? -/
def whoHas (sip : UInt32) : ArpHdr :=
  { arp_opcode := 1
    arp_sha := peerMac
    arp_sip := sip
    arp_tha := #v[0, 0, 0, 0, 0, 0]
    arp_tip := 0xC0A8C801 }

/-- A request on its way to the router at 192.168.200.1; the other router is at 192.168.200.2. -/
def asking (sip : UInt32) : Link Unit where
  router side := if side then routerAt 0xC0A8C802 else routerAt 0xC0A8C801
  dest := false
  frame :=
    { port := 0
      s_addr := peerMac
      d_addr := #v[255, 255, 255, 255, 255, 255]
      body := .arp (whoHas sip) }

theorem asking_free (sip : UInt32) : ∀ side, LocksFree ((asking sip).router side) := by
  intro side
  cases side <;> exact ⟨rfl, fun _ => rfl⟩

/-- A host at 192.168.200.7 asks. -/
theorem exchange_ends_iff_host :
    ExchangeEnds .rwlock (fun _ _ => routerMac) (fun _ => 0) (asking 0xC0A8C807) (whoHas 0xC0A8C807) :=
  (exchange_ends_iff (asking_free _) rfl).2 (.inr ⟨rfl, by decide⟩)

/-- The other router asks: there is no end of answers. -/
theorem request_answered_for_ever :
    (∀ n, ∃ ms s', Trace (Replies .rwlock (fun _ _ => routerMac) fun _ => 0) (asking 0xC0A8C802) ms s' ∧
      ms.length = n) ∧
    ¬ ExchangeEnds .rwlock (fun _ _ => routerMac) (fun _ => 0) (asking 0xC0A8C802) (whoHas 0xC0A8C802) := by
  have hendless : ∀ n, ∃ ms s', Trace (Replies .rwlock (fun _ _ => routerMac) fun _ => 0)
      (asking 0xC0A8C802) ms s' ∧ ms.length = n := fun n =>
    Between.endless _ _ n ⟨asking_free _, rfl, rfl, rfl⟩
  refine ⟨hendless, fun h => ?_⟩
  obtain ⟨ms, s', htrace, hlen⟩ := hendless 2
  have hle := h.replies ms s' htrace
  omega

end FlowQoS.Router
