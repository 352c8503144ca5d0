import FlowQoS.Conntrack.FastPath
import FlowQoS.Lib.OnesComplement

/-!
# Checksums of rewritten packets

`flowQoS_packet_modifyer` asks the NIC for the checksum of the IP header where it changes the addresses or the
time to live, and for that of the TCP or UDP header where it changes a port. The second one also covers the
addresses. So the IP checksum of a packet that goes out is valid, and that of the TCP or UDP header exactly
when it is asked for, is not used, or the sum of the addresses has stayed the same modulo 65535
(`rewritten_checksums_iff`).

The words are those that the little-endian host reads; `Lib.OnesComplement` says that this makes no
difference for what is valid.
-/

namespace FlowQoS.Conntrack

open Lib Pipe

variable {σ ε : Type} {w w' : World σ} {c : CtxId} {m m' : Mbuf} {x : ConnContext} {env : PacketEnv ε}

/-! ### Packets -/

/-- The fields of `rte_tcp_hdr` that the tracker does not look at. -/
structure TcpRest where
  sent_seq : UInt32
  recv_ack : UInt32
  data_off : UInt8
  tcp_flags : UInt8
  rx_win : UInt16
  tcp_urp : UInt16

/-- What is left of a TCP or UDP header. -/
inductive L4Hdr where
  | tcp (rest : TcpRest)
  | udp (dgram_len : UInt16)

def L4Hdr.proto : L4Hdr → UInt8
  | .tcp _ => L4_TCP
  | .udp _ => L4_UDP

/-- What a packet has beside the fields of `Mbuf`: the rest of the IPv4 header, which has no options, the
rest of the TCP or UDP header, and what is behind it. -/
structure PacketRest where
  total_length : UInt16
  packet_id : UInt16
  fragment_offset : UInt16
  l4 : L4Hdr
  payload : List UInt8

/-- A TCP or UDP packet. -/
structure L4Packet where
  m : Mbuf
  rest : PacketRest
  proto : m.next_proto_id = rest.l4.proto

namespace L4Packet

variable (p : L4Packet)

/-- The IPv4 header. -/
def ipBytes : List UInt8 :=
  0x45 :: p.m.type_of_service :: (Ones.le16 p.rest.total_length ++ (Ones.le16 p.rest.packet_id ++
    (Ones.le16 p.rest.fragment_offset ++ (p.m.time_to_live :: p.m.next_proto_id ::
      (Ones.le16 p.m.hdr_checksum ++ (Ones.le32 p.m.src_addr ++ Ones.le32 p.m.dst_addr))))))

/-- The TCP or UDP header and what is behind it. -/
def l4Bytes : List UInt8 :=
  Ones.le16 p.m.sport ++ (Ones.le16 p.m.dport ++ match p.rest.l4 with
    | .tcp h => Ones.le32 h.sent_seq ++ (Ones.le32 h.recv_ack ++ (h.data_off :: h.tcp_flags ::
        (Ones.le16 h.rx_win ++ (Ones.le16 p.m.cksum ++ (Ones.le16 h.tcp_urp ++ p.rest.payload)))))
    | .udp dgram_len => Ones.le16 dgram_len ++ (Ones.le16 p.m.cksum ++ p.rest.payload))

/-- The pseudo-header. -/
def pseudoHeader : List UInt8 :=
  Ones.le32 p.m.src_addr ++ (Ones.le32 p.m.dst_addr ++ [0, p.m.next_proto_id,
    (p.l4Bytes.length / 256).toUInt8, p.l4Bytes.length.toUInt8])

/-- What the checksum of the TCP or UDP header covers. -/
def l4Message : List UInt8 := p.pseudoHeader ++ p.l4Bytes

/-- The IP header checksum is valid. -/
def IpValid : Prop := Ones.Valid Ones.allOnes (Ones.beWords p.ipBytes)

/-- A UDP packet whose checksum is 0 has none. -/
def NoCksum : Prop := p.rest.l4.proto = L4_UDP ∧ p.m.cksum = 0

/-- The checksum of the TCP or UDP header is valid, or there is none. -/
def L4Valid : Prop := p.NoCksum ∨ Ones.Valid Ones.allOnes (Ones.beWords p.l4Message)

/-! ### The NIC -/

/-- The NIC is asked for the checksum of the TCP or UDP header. -/
def L4Asked : Prop :=
  match p.rest.l4 with
  | .tcp _ => p.m.PKT_TX_TCP_CKSUM
  | .udp _ => p.m.PKT_TX_UDP_CKSUM

instance : Decidable p.NoCksum := inferInstanceAs (Decidable (_ ∧ _))
instance : Decidable p.IpValid := inferInstanceAs (Decidable (Ones.Valid _ _))
instance : Decidable p.L4Valid := inferInstanceAs (Decidable (_ ∨ Ones.Valid _ _))
instance : Decidable p.L4Asked := by unfold L4Asked; split <;> infer_instance

def setHdrChecksum (cksum : UInt16) : L4Packet where
  m := { p.m with hdr_checksum := cksum }
  rest := p.rest
  proto := p.proto

def setCksum (cksum : UInt16) : L4Packet where
  m := { p.m with cksum := cksum }
  rest := p.rest
  proto := p.proto

/-- The word that makes the rest of a message valid. -/
def cksumOf (bs : List UInt8) : UInt16 := (Ones.checksum Ones.allOnes (Ones.leWords bs)).toUInt16

/-- The NIC computes the checksum of the IP header, if it is asked for. -/
def nicIp : L4Packet :=
  if p.m.PKT_TX_IP_CKSUM then p.setHdrChecksum (cksumOf (p.setHdrChecksum 0).ipBytes) else p

/-- The checksum that the NIC computes for the TCP or UDP header. A UDP checksum that comes out as 0 is sent
as all ones. -/
def nicCksum : UInt16 :=
  let cksum := cksumOf (p.setCksum 0).l4Message
  if p.rest.l4.proto = L4_UDP ∧ cksum = 0 then 0xFFFF else cksum

/-- The NIC computes the checksum of the TCP or UDP header, if it is asked for. -/
def nicL4 : L4Packet := if p.L4Asked then p.setCksum p.nicCksum else p

/-- The NIC computes the checksums that it is asked for, and changes nothing else. -/
def nic : L4Packet := p.nicIp.nicL4

/-! ### The sums -/

/-- The two words of an address add up to this. -/
def halves (a : UInt32) : ℕ := a.toNat % 65536 + a.toNat / 65536

def l4Length (rest : PacketRest) : ℕ :=
  (match rest.l4 with
    | .tcp _ => 20
    | .udp _ => 8) + rest.payload.length

/-- What the fields beside `Mbuf` add to the words of the TCP or UDP message. -/
def restSum (rest : PacketRest) : ℕ :=
  256 * rest.l4.proto.toNat + ((l4Length rest / 256).toUInt8.toNat + 256 * (l4Length rest).toUInt8.toNat) +
    (match rest.l4 with
      | .tcp h => halves h.sent_seq + halves h.recv_ack + (h.data_off.toNat + 256 * h.tcp_flags.toNat) +
          h.rx_win.toNat + h.tcp_urp.toNat
      | .udp dgram_len => dgram_len.toNat) +
    (Ones.leWords rest.payload).sum

theorem l4Bytes_length : p.l4Bytes.length = l4Length p.rest := by
  unfold l4Bytes l4Length
  cases p.rest.l4 with
  | tcp h => simp [Ones.le16, Ones.le32]; omega
  | udp dgram_len => simp [Ones.le16]; omega

theorem sum_ipBytes : (Ones.leWords p.ipBytes).sum =
    (69 + 256 * p.m.type_of_service.toNat) + p.rest.total_length.toNat + p.rest.packet_id.toNat +
      p.rest.fragment_offset.toNat + (p.m.time_to_live.toNat + 256 * p.m.next_proto_id.toNat) +
      p.m.hdr_checksum.toNat + halves p.m.src_addr + halves p.m.dst_addr := by
  have hdst := Ones.leWords_le32 p.m.dst_addr []
  rw [List.append_nil] at hdst
  unfold ipBytes halves
  rw [Ones.leWords_two, Ones.leWords_le16, Ones.leWords_le16, Ones.leWords_le16, Ones.leWords_two,
    Ones.leWords_le16, Ones.leWords_le32, hdst]
  simp [Ones.words]
  omega

theorem sum_l4Message : (Ones.leWords p.l4Message).sum =
    halves p.m.src_addr + halves p.m.dst_addr + p.m.sport.toNat + p.m.dport.toNat + p.m.cksum.toNat +
      restSum p.rest := by
  unfold l4Message pseudoHeader
  rw [p.l4Bytes_length, List.append_assoc, List.append_assoc, Ones.leWords_le32, Ones.leWords_le32,
    List.cons_append, List.cons_append, Ones.leWords_two, List.cons_append, List.cons_append,
    Ones.leWords_two, List.nil_append, p.proto]
  unfold l4Bytes restSum halves
  rw [Ones.leWords_le16, Ones.leWords_le16]
  cases p.rest.l4 with
  | tcp h =>
    simp only [Ones.leWords_le32, Ones.leWords_le16, Ones.leWords_two, List.sum_cons]
    have h0 : (0 : UInt8).toNat = 0 := rfl
    omega
  | udp dgram_len =>
    simp only [Ones.leWords_le16, List.sum_cons]
    have h0 : (0 : UInt8).toNat = 0 := rfl
    omega

/-! ### What the NIC sends -/

theorem toNat_cksumOf (bs : List UInt8) :
    (cksumOf bs).toNat = Ones.checksum Ones.allOnes (Ones.leWords bs) := by
  have hle : Ones.checksum Ones.allOnes (Ones.leWords bs) ≤ Ones.allOnes := Ones.checksum_le
  unfold cksumOf Ones.allOnes at *
  rw [Nat.toUInt16_eq, UInt16.toNat_ofNat_of_lt' (by unfold UInt16.size; omega)]

/-- A message is valid with the checksum of the message in which the checksum is 0. -/
theorem valid_cksumOf (bs₀ : List UInt8) {bs : List UInt8}
    (hsum : (Ones.leWords bs).sum = (Ones.leWords bs₀).sum + (cksumOf bs₀).toNat) :
    Ones.Valid Ones.allOnes (Ones.beWords bs) := by
  rw [toNat_cksumOf] at hsum
  rw [Ones.valid_beWords]
  exact Ones.valid_checksum (by decide) (Ones.leWords_le bs₀) (Ones.leWords_le bs) hsum

/-- All ones do as well as a checksum of 0. -/
theorem valid_ones {bs bs₀ : List UInt8} (h0 : cksumOf bs₀ = 0)
    (hsum : (Ones.leWords bs).sum = (Ones.leWords bs₀).sum + Ones.allOnes) :
    Ones.Valid Ones.allOnes (Ones.beWords bs) := by
  have hzero : Ones.checksum Ones.allOnes (Ones.leWords bs₀) = 0 := by
    rw [← toNat_cksumOf, h0]
    rfl
  have hv := (Ones.checksum_eq_zero (Ones.leWords_le bs₀)).1 hzero
  have hM : 0 < Ones.allOnes := by decide
  rw [Ones.valid_beWords, hv.iff_modEq hM (Ones.leWords_le bs₀) (Ones.leWords_le bs) (by omega), hsum]
  simp [Nat.ModEq]

theorem nicIp_valid (h : p.m.PKT_TX_IP_CKSUM ∨ p.IpValid) : p.nicIp.IpValid := by
  unfold nicIp
  by_cases hasked : p.m.PKT_TX_IP_CKSUM
  · rw [if_pos hasked]
    apply valid_cksumOf (p.setHdrChecksum 0).ipBytes
    rw [sum_ipBytes, sum_ipBytes]
    simp only [setHdrChecksum]
    have h0 : (0 : UInt16).toNat = 0 := rfl
    omega
  · rw [if_neg hasked]
    exact h.resolve_left hasked

theorem nicL4_valid (h : p.L4Asked) : p.nicL4.L4Valid := by
  unfold nicL4 nicCksum
  rw [if_pos h]
  have h0 : (0 : UInt16).toNat = 0 := rfl
  have hones : (0xFFFF : UInt16).toNat = Ones.allOnes := rfl
  refine .inr ?_
  by_cases hzero : p.rest.l4.proto = L4_UDP ∧ cksumOf (p.setCksum 0).l4Message = 0
  · simp only [if_pos hzero]
    refine valid_ones hzero.2 ?_
    rw [sum_l4Message, sum_l4Message]
    simp only [setCksum]
    omega
  · simp only [if_neg hzero]
    apply valid_cksumOf (p.setCksum 0).l4Message
    rw [sum_l4Message, sum_l4Message]
    simp only [setCksum]
    omega

theorem nicL4_ipValid : p.nicL4.IpValid ↔ p.IpValid := by
  unfold nicL4
  split
  · exact Iff.rfl
  · exact Iff.rfl

theorem nicIp_l4Valid : p.nicIp.L4Valid ↔ p.L4Valid := by
  unfold nicIp
  split
  · exact Iff.rfl
  · exact Iff.rfl

theorem nicIp_l4Asked : p.nicIp.L4Asked ↔ p.L4Asked := by
  unfold nicIp
  split
  · exact Iff.rfl
  · exact Iff.rfl

/-- What the NIC sends has a valid IP header checksum where it is asked for one or there was one. -/
theorem nic_ipValid (h : p.m.PKT_TX_IP_CKSUM ∨ p.IpValid) : p.nic.IpValid :=
  p.nicIp.nicL4_ipValid.2 (p.nicIp_valid h)

theorem nic_l4Valid_iff : p.nic.L4Valid ↔ p.L4Asked ∨ p.L4Valid := by
  by_cases h : p.L4Asked
  · have hv := p.nicIp.nicL4_valid (p.nicIp_l4Asked.2 h)
    exact ⟨fun _ => .inl h, fun _ => hv⟩
  · have hsame : p.nic = p.nicIp := if_neg (mt p.nicIp_l4Asked.1 h)
    rw [hsame, nicIp_l4Valid]
    exact ⟨.inr, fun hor => hor.resolve_left h⟩

/-! ### What the tracker leaves -/

/-- The packet as `flowQoS_packet_modifyer` leaves it. -/
def modified (x : ConnContext) : L4Packet where
  m := rewrite p.m x
  rest := p.rest
  proto := (congrArg Packet.proto (rewrite_header p.m x)).trans p.proto

end L4Packet

/-- The checksums after a rewrite, and whether the NIC is asked for them. -/
theorem rewrite_cksums (m : Mbuf) (x : ConnContext) :
    (rewrite m x).type_of_service = m.type_of_service ∧
    (rewrite m x).hdr_checksum =
      (if x.entry.action.flags &&& (SIP ||| DIP ||| TTL_DECREASE) ≠ 0 then 0 else m.hdr_checksum) ∧
    (rewrite m x).PKT_TX_IP_CKSUM =
      (if x.entry.action.flags &&& (SIP ||| DIP ||| TTL_DECREASE) ≠ 0 then true else m.PKT_TX_IP_CKSUM) ∧
    (rewrite m x).PKT_TX_TCP_CKSUM =
      (if x.entry.action.flags &&& (SPORT ||| DPORT) ≠ 0 ∧ x.entry.match_.proto = L4_TCP then true
        else m.PKT_TX_TCP_CKSUM) ∧
    (rewrite m x).PKT_TX_UDP_CKSUM =
      (if x.entry.action.flags &&& (SPORT ||| DPORT) ≠ 0 ∧ x.entry.match_.proto = L4_UDP then true
        else m.PKT_TX_UDP_CKSUM) ∧
    (¬ x.entry.action.flags &&& (SPORT ||| DPORT) ≠ 0 → (rewrite m x).cksum = m.cksum) := by
  unfold rewrite
  refine ⟨?_, ?_, ?_, ?_, ?_, fun h => ?_⟩
  · simp only [apply_ite Mbuf.type_of_service, ite_self]
  · simp only [apply_ite Mbuf.hdr_checksum, ite_self]
  · simp only [apply_ite Mbuf.PKT_TX_IP_CKSUM, ite_self]
  · simp only [apply_ite Mbuf.PKT_TX_TCP_CKSUM, ite_self]
  · simp only [apply_ite Mbuf.PKT_TX_UDP_CKSUM, ite_self]
  · simp only [apply_ite Mbuf.cksum, ite_self, h, false_and, if_false]

theorem flags_or {flags a b : UInt64} : flags &&& (a ||| b) = 0 ↔ flags &&& a = 0 ∧ flags &&& b = 0 := by
  have hdistrib : flags &&& (a ||| b) = (flags &&& a) ||| (flags &&& b) :=
    UInt64.toBitVec_inj.1 (by simp [BitVec.and_or_distrib_left])
  rw [hdistrib, UInt64.or_eq_zero_iff]

namespace L4Packet

variable (p : L4Packet)

/-- The addresses that an action gives a packet. -/
def newSrc (action : FlowQoSAction) : UInt32 :=
  if action.flags &&& SIP ≠ 0 then action.src_ip else p.m.src_addr

def newDst (action : FlowQoSAction) : UInt32 :=
  if action.flags &&& DIP ≠ 0 then action.dst_ip else p.m.dst_addr

/-- The sum of the addresses keeps its remainder. -/
def SameAddresses (action : FlowQoSAction) : Prop :=
  (p.newSrc action).toNat + (p.newDst action).toNat ≡ p.m.src_addr.toNat + p.m.dst_addr.toNat [MOD 65535]

theorem halves_modEq (a : UInt32) : halves a ≡ a.toNat [MOD 65535] := by
  unfold halves Nat.ModEq
  omega

theorem restSum_pos (rest : PacketRest) : 0 < restSum rest := by
  have hproto : 0 < rest.l4.proto.toNat := by
    cases rest.l4 with
    | tcp h => exact (by decide : 0 < L4_TCP.toNat)
    | udp dgram_len => exact (by decide : 0 < L4_UDP.toNat)
  unfold restSum
  omega

/-- A rewrite that touches neither an address nor the time to live leaves the IP header alone. -/
theorem modified_ip (hip : p.IpValid) :
    (p.modified x).m.PKT_TX_IP_CKSUM ∨ (p.modified x).IpValid := by
  obtain ⟨htos, hcksum, hasked, -⟩ := rewrite_cksums p.m x
  by_cases htouched : x.entry.action.flags &&& (SIP ||| DIP ||| TTL_DECREASE) ≠ 0
  · rw [if_pos htouched] at hasked
    exact .inl hasked
  · rw [if_neg htouched] at hcksum
    obtain ⟨hsipdip, hnottl⟩ := flags_or.1 (not_ne_iff.1 htouched)
    obtain ⟨hnosip, hnodip⟩ := flags_or.1 hsipdip
    have hheader := rewrite_header p.m x
    have hsrc : (rewrite p.m x).src_addr = p.m.src_addr :=
      (congrArg Packet.src_ip hheader).trans (if_neg (not_not.2 hnosip))
    have hdst : (rewrite p.m x).dst_addr = p.m.dst_addr :=
      (congrArg Packet.dst_ip hheader).trans (if_neg (not_not.2 hnodip))
    have httl : (rewrite p.m x).time_to_live = p.m.time_to_live :=
      (congrArg Packet.ttl hheader).trans (if_neg (not_not.2 hnottl))
    have hproto : (rewrite p.m x).next_proto_id = p.m.next_proto_id := congrArg Packet.proto hheader
    have hbytes : (p.modified x).ipBytes = p.ipBytes := by
      unfold ipBytes modified
      simp only [htos, hcksum, hsrc, hdst, httl, hproto]
    refine .inr ?_
    unfold IpValid
    rw [hbytes]
    exact hip

/-- A rewrite that touches a port asks for the checksum of the TCP or UDP header. -/
theorem modified_l4Asked_iff (hproto : p.m.next_proto_id = x.entry.match_.proto) :
    (p.modified x).L4Asked ↔ x.entry.action.flags &&& (SPORT ||| DPORT) ≠ 0 ∨ p.L4Asked := by
  obtain ⟨-, -, -, htcp, hudp, -⟩ := rewrite_cksums p.m x
  rw [← hproto, p.proto] at htcp hudp
  unfold L4Asked modified
  cases hl4 : p.rest.l4 with
  | tcp h =>
    rw [hl4] at htcp
    simp only [htcp, L4Hdr.proto, and_true]
    by_cases hports : x.entry.action.flags &&& (SPORT ||| DPORT) ≠ 0
    · simp [hports]
    · simp [hports]
  | udp dgram_len =>
    rw [hl4] at hudp
    simp only [hudp, L4Hdr.proto, and_true]
    by_cases hports : x.entry.action.flags &&& (SPORT ||| DPORT) ≠ 0
    · simp [hports]
    · simp [hports]

/-- Where the rewrite touches no port, the old checksum of the TCP or UDP header goes with the new addresses
only if they add up to the same. -/
theorem modified_l4Valid_iff (hl4 : p.L4Valid)
    (hports : ¬ x.entry.action.flags &&& (SPORT ||| DPORT) ≠ 0) :
    (p.modified x).L4Valid ↔ p.NoCksum ∨ p.SameAddresses x.entry.action := by
  have hcksum : (p.modified x).m.cksum = p.m.cksum := (rewrite_cksums p.m x).2.2.2.2.2 hports
  have hno : (p.modified x).NoCksum ↔ p.NoCksum := by
    unfold NoCksum
    rw [hcksum]
    rfl
  by_cases hnone : p.NoCksum
  · exact ⟨fun _ => .inl hnone, fun _ => .inl (hno.2 hnone)⟩
  obtain ⟨hnosport, hnodport⟩ := flags_or.1 (not_ne_iff.1 hports)
  have hheader := rewrite_header p.m x
  have hsport : (p.modified x).m.sport = p.m.sport :=
    (congrArg Packet.src_port hheader).trans (if_neg (not_not.2 hnosport))
  have hdport : (p.modified x).m.dport = p.m.dport :=
    (congrArg Packet.dst_port hheader).trans (if_neg (not_not.2 hnodport))
  have hsrc : (p.modified x).m.src_addr = p.newSrc x.entry.action :=
    congrArg Packet.src_ip hheader
  have hdst : (p.modified x).m.dst_addr = p.newDst x.entry.action :=
    congrArg Packet.dst_ip hheader
  have hv := (Ones.valid_beWords _).1 (hl4.resolve_left hnone)
  have hpos := restSum_pos p.rest
  have hrest : (p.modified x).rest = p.rest := rfl
  have hsums : (Ones.leWords (p.modified x).l4Message).sum ≡ (Ones.leWords p.l4Message).sum [MOD 65535] ↔
      p.SameAddresses x.entry.action := by
    have hnew := (halves_modEq (p.modified x).m.src_addr).add (halves_modEq (p.modified x).m.dst_addr)
    have hold := (halves_modEq p.m.src_addr).add (halves_modEq p.m.dst_addr)
    unfold SameAddresses
    rw [sum_l4Message, sum_l4Message, hsport, hdport, hcksum, hrest, ← hsrc, ← hdst]
    unfold Nat.ModEq at *
    omega
  have hM : 0 < Ones.allOnes := by decide
  unfold L4Valid
  rw [hno, or_iff_right hnone, or_iff_right hnone, Ones.valid_beWords,
    hv.iff_modEq hM (Ones.leWords_le _) (Ones.leWords_le _) (by rw [sum_l4Message, hrest]; omega)]
  exact hsums

/-- The condition under which a rewrite leaves a valid TCP or UDP checksum. -/
def KeepsL4 (action : FlowQoSAction) : Prop :=
  action.flags &&& (SPORT ||| DPORT) ≠ 0 ∨ p.L4Asked ∨ p.NoCksum ∨ p.SameAddresses action

theorem modified_checksums (hproto : p.m.next_proto_id = x.entry.match_.proto) (hip : p.IpValid)
    (hl4 : p.L4Valid) :
    (p.modified x).nic.IpValid ∧ ((p.modified x).nic.L4Valid ↔ p.KeepsL4 x.entry.action) := by
  refine ⟨nic_ipValid _ (p.modified_ip hip), ?_⟩
  rw [nic_l4Valid_iff, p.modified_l4Asked_iff hproto]
  unfold KeepsL4
  by_cases hports : x.entry.action.flags &&& (SPORT ||| DPORT) ≠ 0
  · exact ⟨fun _ => .inl hports, fun _ => .inl (.inl hports)⟩
  · rw [p.modified_l4Valid_iff hl4 hports, or_assoc]

end L4Packet

/-- **Rewritten packets.** Where a valid TCP or UDP packet of a connection goes out, its IP header checksum is
valid, and the checksum of its TCP or UDP header is valid if and only if the action sets a port, or the NIC was
asked for that checksum already, or there is none, or the sum of the addresses keeps its remainder. -/
theorem rewritten_checksums_iff {p : L4Packet}
    (hproto : p.m.next_proto_id = (w.2.ctx c).entry.match_.proto) (hip : p.IpValid) (hl4 : p.L4Valid)
    (hrun : packetModifyer p.m w c env = .ok (m', w')) :
    ∃ p' : L4Packet, p'.m = m' ∧ p'.rest = p.rest ∧ p'.nic.IpValid ∧
      (p'.nic.L4Valid ↔ p.KeepsL4 (w.2.ctx c).entry.action) := by
  unfold packetModifyer at hrun
  obtain ⟨w₁, -, heq⟩ := map_eq_ok.1 hrun
  cases heq
  exact ⟨p.modified (w.2.ctx c), rfl, rfl, p.modified_checksums hproto hip hl4⟩

/-! ### The documented action -/

/-- The first packet of 192.168.200.5 to port 80 of 10.0.0.2. -/
def syn : L4Packet where
  m :=
    { port := 0
      src_addr := 0x05C8A8C0
      dst_addr := 0x0200000A
      next_proto_id := L4_TCP
      hdr_checksum := 0x20E7
      sport := 0x409C
      dport := 0x5000
      cksum := 0xA280 }
  rest :=
    { total_length := 0x2800
      packet_id := 1
      fragment_offset := 0
      l4 := .tcp
        { sent_seq := 0, recv_ack := 0, data_off := 0x50, tcp_flags := 2, rx_win := 0xFFFF, tcp_urp := 0 }
      payload := [] }
  proto := rfl

/-- A core with a connection of the packet, for which it has the action. -/
def acting (action : FlowQoSAction) : World ℕ :=
  let w := boot oneEntry [] 0
  (w.1, w.2.setCtx 0
    { entry :=
        { match_ := { src_ip := 0x05C8A8C0, dst_ip := 0x0200000A, proto := L4_TCP, src_port := 0x409C
                      dst_port := 0x5000 }
          action := action } })

/-- The packet goes to 10.0.0.3; with a port, or as in the documentation of `flowQoS_build_pipe`. -/
def toServer (flags : UInt64) : FlowQoSAction := { flags := flags, dst_ip := 0x0300000A, dst_port := 0x901F }

theorem rewritten_checksums_iff_port : ∃ (m' : Mbuf) (w' : World ℕ) (p' : L4Packet),
    packetModifyer syn.m (acting (toServer (DIP ||| DPORT))) 0 (offloads 0) = .ok (m', w') ∧
    p'.m = m' ∧ p'.rest = syn.rest ∧ p'.nic.IpValid ∧ p'.nic.L4Valid := by
  obtain ⟨m', w', hrun⟩ : ∃ m' w',
      packetModifyer syn.m (acting (toServer (DIP ||| DPORT))) 0 (offloads 0) = .ok (m', w') := ⟨_, _, rfl⟩
  obtain ⟨p', hm, hrest, hip, hl4⟩ :=
    rewritten_checksums_iff rfl (by decide +kernel) (by decide +kernel) hrun
  exact ⟨m', w', p', hrun, hm, hrest, hip, hl4.2 (.inl (by decide))⟩

/-- With the documented action the checksum of the TCP header is still that of the old address. -/
theorem documented_action_invalid : syn.IpValid ∧ syn.L4Valid ∧ ∃ (m' : Mbuf) (w' : World ℕ),
    packetModifyer syn.m (acting (toServer (DIP ||| DMAC ||| TTL_DECREASE ||| AGING))) 0 (offloads 0) =
      .ok (m', w') ∧
    ∀ p' : L4Packet, p'.m = m' → p'.rest = syn.rest → ¬ p'.nic.L4Valid := by
  have hbad : ¬ (syn.modified
      ((acting (toServer (DIP ||| DMAC ||| TTL_DECREASE ||| AGING))).2.ctx 0)).nic.L4Valid := by decide +kernel
  refine ⟨by decide +kernel, by decide +kernel, _, _, rfl, ?_⟩
  rintro ⟨m, rest, proto⟩ hm hrest
  cases hm
  cases hrest
  exact hbad

/-! ### Packets of a connection in the table -/

/-- A packet whose connection is in the table has the protocol of the connection, so this is what becomes of
its checksums. -/
theorem forward_checksums {P : Params σ ε} {A : Set CtxId} {e : FlowQoSEntry} {p : L4Packet} {v : Verdict}
    (h : TableInv P A w.2) (he : packetParser w.2.attr p.m = some e) (hc : findConnFromHash w.2 e = some c)
    (hip : p.IpValid) (hl4 : p.L4Valid) (hrun : forward p.m w c env = .ok (v, w')) :
    ∃ p' : L4Packet, p'.m = v.m ∧ p'.rest = p.rest ∧ p'.nic.IpValid ∧
      (p'.nic.L4Valid ↔ p.KeepsL4 (w.2.ctx c).entry.action) := by
  obtain ⟨halive, hmatch⟩ := h.table hc
  obtain ⟨⟨x, ⟨hxmatch, -, hxact⟩, hv⟩, -⟩ := forward_eq (h.made halive) hrun
  have hproto : p.m.next_proto_id = x.entry.match_.proto := by
    rw [hxmatch, hmatch]
    exact (sameTuple_parsed he).proto
  obtain ⟨hip', hl4'⟩ := p.modified_checksums hproto hip hl4
  rw [hxact] at hl4'
  exact ⟨p.modified x, hv.symm, rfl, hip', hl4'⟩

end FlowQoS.Conntrack
