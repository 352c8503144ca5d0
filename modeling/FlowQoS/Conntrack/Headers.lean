import FlowQoS.Conntrack.Defs
import FlowQoS.Lib.Layout

/-!
# Packets as bytes (`flowQoS_packet_parser`, `flowQoS_packet_modifyer`)

The two functions find the headers of a packet by the sizes of `rte_ether_hdr` and `rte_ipv4_hdr`: the ports
are read and written at byte 34, whatever the length of the IP header and the fragment the packet is. `view`
reads a packet that way, and the functions of `Conntrack.Defs` are those of its bytes (`view_modify`).

The grammar of IPv4 puts the ports behind an IP header of `4 * ihl` bytes, in the first fragment only. So
the functions are right about a packet exactly when it is no TCP or UDP packet, or has an IP header without
options, is no later fragment, and holds the TCP or UDP header (`parsesIpv4_iff`).
-/

namespace FlowQoS.Conntrack

open Lib Pipe

def l3Ipv4 : UInt32 := 0x10
/-- `sizeof(struct rte_ether_hdr)`. -/
def etherHdrSize : ℕ := 14
/-- `sizeof(struct rte_ipv4_hdr)`. -/
def ipv4HdrSize : ℕ := 20

/-- A packet as the driver hands it over: its first segment and what the NIC says about it. -/
structure RawMbuf where
  port : ℕ
  packet_type : UInt32
  rss : UInt32
  data_len : ℕ
  data : Bytes
  PKT_TX_IPV4 : Bool := false
  PKT_TX_IP_CKSUM : Bool := false
  PKT_TX_TCP_CKSUM : Bool := false
  PKT_TX_UDP_CKSUM : Bool := false

/-! ### The headers -/

/-- An Ethernet address. -/
def Codec.etherAddr : Codec EtherAddr := .network 6 BitVec.toNat (BitVec.ofNat 48) fun v => by
  rw [Nat.mod_eq_of_lt (show v.toNat < 256 ^ 6 from v.isLt), BitVec.ofNat_toNat, BitVec.setWidth_eq]

def etherDst : Place EtherAddr := ⟨Codec.etherAddr, 0⟩
def etherSrc : Place EtherAddr := ⟨Codec.etherAddr, 6⟩
def versionIhl : Place UInt8 := ⟨.u8, etherHdrSize⟩
def typeOfService : Place UInt8 := ⟨.u8, etherHdrSize + 1⟩
def totalLength : Place UInt16 := ⟨.u16, etherHdrSize + 2⟩
def fragmentOffset : Place UInt16 := ⟨.u16, etherHdrSize + 6⟩
def timeToLive : Place UInt8 := ⟨.u8, etherHdrSize + 8⟩
def nextProtoId : Place UInt8 := ⟨.u8, etherHdrSize + 9⟩
def hdrChecksum : Place UInt16 := ⟨.u16, etherHdrSize + 10⟩
def srcAddr : Place UInt32 := ⟨.u32, etherHdrSize + 12⟩
def dstAddr : Place UInt32 := ⟨.u32, etherHdrSize + 16⟩

/-- The fields of a TCP or UDP header that starts at `l4`. -/
def srcPort (l4 : ℕ) : Place UInt16 := ⟨.u16, l4⟩
def dstPort (l4 : ℕ) : Place UInt16 := ⟨.u16, l4 + 2⟩
def tcpCksum (l4 : ℕ) : Place UInt16 := ⟨.u16, l4 + 16⟩
def udpCksum (l4 : ℕ) : Place UInt16 := ⟨.u16, l4 + 6⟩

/-- Where the code takes the TCP or UDP header to start. -/
def l4Offset : ℕ := etherHdrSize + ipv4HdrSize

/-- The fields of a packet as the code reads them. -/
def RawMbuf.view (m : RawMbuf) : Mbuf where
  port := m.port
  ipv4 := m.packet_type &&& l3Ipv4 ≠ 0
  rss := m.rss
  s_addr := etherSrc.get m.data
  d_addr := etherDst.get m.data
  src_addr := srcAddr.get m.data
  dst_addr := dstAddr.get m.data
  next_proto_id := nextProtoId.get m.data
  type_of_service := typeOfService.get m.data
  time_to_live := timeToLive.get m.data
  hdr_checksum := hdrChecksum.get m.data
  sport := (srcPort l4Offset).get m.data
  dport := (dstPort l4Offset).get m.data
  cksum := if nextProtoId.get m.data = L4_UDP then (udpCksum l4Offset).get m.data
    else (tcpCksum l4Offset).get m.data
  PKT_TX_IPV4 := m.PKT_TX_IPV4
  PKT_TX_IP_CKSUM := m.PKT_TX_IP_CKSUM
  PKT_TX_TCP_CKSUM := m.PKT_TX_TCP_CKSUM
  PKT_TX_UDP_CKSUM := m.PKT_TX_UDP_CKSUM

/-- `flowQoS_packet_parser`. -/
def RawMbuf.parse (attr : ConnAttr) (m : RawMbuf) : Option FlowQoSEntry := packetParser attr m.view

/-! ### The writes of `flowQoS_packet_modifyer` -/

/-- Bytes that are written. -/
structure Write where
  off : ℕ
  bytes : List UInt8
  deriving DecidableEq

def placeWrite {α : Type} (f : Place α) (v : α) : Write := ⟨f.off, f.codec.enc v⟩

def onFlags (flags mask : UInt64) (w : Write) : List Write := if flags &&& mask ≠ 0 then [w] else []

def etherWrites (action : FlowQoSAction) : List Write :=
  onFlags action.flags SMAC (placeWrite etherSrc action.src_mac) ++
  onFlags action.flags DMAC (placeWrite etherDst action.dst_mac)

def ipWrites (action : FlowQoSAction) (time_to_live : UInt8) : List Write :=
  onFlags action.flags SIP (placeWrite srcAddr action.src_ip) ++
  onFlags action.flags DIP (placeWrite dstAddr action.dst_ip) ++
  onFlags action.flags TTL_DECREASE (placeWrite timeToLive (time_to_live - 1))

def portWrites (l4 : ℕ) (action : FlowQoSAction) : List Write :=
  onFlags action.flags SPORT (placeWrite (srcPort l4) action.src_port) ++
  onFlags action.flags DPORT (placeWrite (dstPort l4) action.dst_port)

def ipCksumWrites (action : FlowQoSAction) : List Write :=
  onFlags action.flags (SIP ||| DIP ||| TTL_DECREASE) (placeWrite hdrChecksum 0)

def l4CksumWrites (l4 : ℕ) (action : FlowQoSAction) (proto : UInt8) : List Write :=
  (if proto = L4_TCP then onFlags action.flags (SPORT ||| DPORT) (placeWrite (tcpCksum l4) 0) else []) ++
  (if proto = L4_UDP then onFlags action.flags (SPORT ||| DPORT) (placeWrite (udpCksum l4) 0) else [])

/-- The bytes that `flowQoS_packet_modifyer` writes, in its order. -/
def modifyWrites (l4 : ℕ) (time_to_live : UInt8) (x : ConnContext) : List Write :=
  etherWrites x.entry.action ++ ipWrites x.entry.action time_to_live ++ portWrites l4 x.entry.action ++
    ipCksumWrites x.entry.action ++ l4CksumWrites l4 x.entry.action x.entry.match_.proto

def applyWrites (data : Bytes) (ws : List Write) : Bytes :=
  ws.foldl (fun data w => data.write w.off w.bytes) data

/-- `flowQoS_packet_modifyer` on the packet. -/
def RawMbuf.modify (m : RawMbuf) (x : ConnContext) : RawMbuf :=
  let flags := x.entry.action.flags
  let ip_cksum := flags &&& (SIP ||| DIP ||| TTL_DECREASE) ≠ 0
  let l4_cksum := flags &&& (SPORT ||| DPORT) ≠ 0
  { m with
    data := applyWrites m.data (modifyWrites l4Offset (timeToLive.get m.data) x)
    PKT_TX_IPV4 := m.PKT_TX_IPV4 || ip_cksum
    PKT_TX_IP_CKSUM := m.PKT_TX_IP_CKSUM || ip_cksum
    PKT_TX_TCP_CKSUM := m.PKT_TX_TCP_CKSUM || decide (l4_cksum ∧ x.entry.match_.proto = L4_TCP)
    PKT_TX_UDP_CKSUM := m.PKT_TX_UDP_CKSUM || decide (l4_cksum ∧ x.entry.match_.proto = L4_UDP) }

/-! ### The functions on bytes are those on fields -/

section View

variable {α : Type} {data : Bytes} {ws ws' : List Write} {m : RawMbuf} {x : ConnContext}

theorem applyWrites_append : applyWrites data (ws ++ ws') = applyWrites (applyWrites data ws) ws' :=
  List.foldl_append

/-- A write under a condition: what the places hold afterwards. -/
structure Stepped (p : Prop) [Decidable p] (g : Place α) (v : α) (data data' : Bytes) : Prop where
  own : g.get data' = if p then v else g.get data
  other : ∀ {β : Type} (f : Place β), f.Apart g → f.get data' = f.get data

theorem stepped_of_eq {p : Prop} [Decidable p] {g : Place α} {v : α} {data' : Bytes}
    (h : data' = if p then g.put data v else data) : Stepped p g v data data' := by
  subst h
  by_cases hp : p
  · simp only [if_pos hp]
    exact ⟨by rw [if_pos hp, Place.get_put], fun f hf => Place.get_put_of_apart hf v⟩
  · simp only [if_neg hp]
    exact ⟨by rw [if_neg hp], fun _ _ => rfl⟩

theorem stepped_onFlags (g : Place α) (v : α) (flags mask : UInt64) (data : Bytes) :
    Stepped (flags &&& mask ≠ 0) g v data (applyWrites data (onFlags flags mask (placeWrite g v))) := by
  refine stepped_of_eq ?_
  unfold onFlags
  split_ifs
  · rfl
  · rfl

theorem stepped_cksum (g : Place α) (v : α) (flags mask : UInt64) (p : Prop) [Decidable p] (data : Bytes) :
    Stepped (flags &&& mask ≠ 0 ∧ p) g v data
      (applyWrites data (if p then onFlags flags mask (placeWrite g v) else [])) := by
  by_cases hp : p
  · simp only [hp, and_true, if_true]
    exact stepped_onFlags g v flags mask data
  · refine stepped_of_eq ?_
    simp only [hp, and_false, if_false]
    rfl

/-- The writes of the modifier, one after another. -/
theorem modify_steps (m : RawMbuf) (x : ConnContext) : ∃ d₁ d₂ d₃ d₄ d₅ d₆ d₇ d₈ d₉ : Bytes,
    Stepped (x.entry.action.flags &&& SMAC ≠ 0) etherSrc x.entry.action.src_mac m.data d₁ ∧
    Stepped (x.entry.action.flags &&& DMAC ≠ 0) etherDst x.entry.action.dst_mac d₁ d₂ ∧
    Stepped (x.entry.action.flags &&& SIP ≠ 0) srcAddr x.entry.action.src_ip d₂ d₃ ∧
    Stepped (x.entry.action.flags &&& DIP ≠ 0) dstAddr x.entry.action.dst_ip d₃ d₄ ∧
    Stepped (x.entry.action.flags &&& TTL_DECREASE ≠ 0) timeToLive (timeToLive.get m.data - 1) d₄ d₅ ∧
    Stepped (x.entry.action.flags &&& SPORT ≠ 0) (srcPort l4Offset) x.entry.action.src_port d₅ d₆ ∧
    Stepped (x.entry.action.flags &&& DPORT ≠ 0) (dstPort l4Offset) x.entry.action.dst_port d₆ d₇ ∧
    Stepped (x.entry.action.flags &&& (SIP ||| DIP ||| TTL_DECREASE) ≠ 0) hdrChecksum 0 d₇ d₈ ∧
    Stepped (x.entry.action.flags &&& (SPORT ||| DPORT) ≠ 0 ∧ x.entry.match_.proto = L4_TCP)
      (tcpCksum l4Offset) 0 d₈ d₉ ∧
    Stepped (x.entry.action.flags &&& (SPORT ||| DPORT) ≠ 0 ∧ x.entry.match_.proto = L4_UDP)
      (udpCksum l4Offset) 0 d₉ (m.modify x).data := by
  refine ⟨_, _, _, _, _, _, _, _, _, stepped_onFlags _ _ _ _ _, stepped_onFlags _ _ _ _ _,
    stepped_onFlags _ _ _ _ _, stepped_onFlags _ _ _ _ _, stepped_onFlags _ _ _ _ _,
    stepped_onFlags _ _ _ _ _, stepped_onFlags _ _ _ _ _, stepped_onFlags _ _ _ _ _,
    stepped_cksum _ _ _ _ _ _, ?_⟩
  simp only [RawMbuf.modify, modifyWrites, etherWrites, ipWrites, portWrites, ipCksumWrites, l4CksumWrites,
    applyWrites_append]
  exact stepped_cksum _ _ _ _ _ _

/-- The places of a packet after the modifier. -/
theorem modify_places (m : RawMbuf) (x : ConnContext) :
    etherSrc.get (m.modify x).data =
      (if x.entry.action.flags &&& SMAC ≠ 0 then x.entry.action.src_mac else etherSrc.get m.data) ∧
    etherDst.get (m.modify x).data =
      (if x.entry.action.flags &&& DMAC ≠ 0 then x.entry.action.dst_mac else etherDst.get m.data) ∧
    srcAddr.get (m.modify x).data =
      (if x.entry.action.flags &&& SIP ≠ 0 then x.entry.action.src_ip else srcAddr.get m.data) ∧
    dstAddr.get (m.modify x).data =
      (if x.entry.action.flags &&& DIP ≠ 0 then x.entry.action.dst_ip else dstAddr.get m.data) ∧
    nextProtoId.get (m.modify x).data = nextProtoId.get m.data ∧
    typeOfService.get (m.modify x).data = typeOfService.get m.data ∧
    timeToLive.get (m.modify x).data =
      (if x.entry.action.flags &&& TTL_DECREASE ≠ 0 then timeToLive.get m.data - 1
        else timeToLive.get m.data) ∧
    hdrChecksum.get (m.modify x).data =
      (if x.entry.action.flags &&& (SIP ||| DIP ||| TTL_DECREASE) ≠ 0 then 0 else hdrChecksum.get m.data) ∧
    (srcPort l4Offset).get (m.modify x).data =
      (if x.entry.action.flags &&& SPORT ≠ 0 then x.entry.action.src_port
        else (srcPort l4Offset).get m.data) ∧
    (dstPort l4Offset).get (m.modify x).data =
      (if x.entry.action.flags &&& DPORT ≠ 0 then x.entry.action.dst_port
        else (dstPort l4Offset).get m.data) ∧
    (tcpCksum l4Offset).get (m.modify x).data =
      (if x.entry.action.flags &&& (SPORT ||| DPORT) ≠ 0 ∧ x.entry.match_.proto = L4_TCP then 0
        else (tcpCksum l4Offset).get m.data) ∧
    (udpCksum l4Offset).get (m.modify x).data =
      (if x.entry.action.flags &&& (SPORT ||| DPORT) ≠ 0 ∧ x.entry.match_.proto = L4_UDP then 0
        else (udpCksum l4Offset).get m.data) := by
  obtain ⟨d₁, d₂, d₃, d₄, d₅, d₆, d₇, d₈, d₉, s₁, s₂, s₃, s₄, s₅, s₆, s₇, s₈, s₉, s₁₀⟩ := modify_steps m x
  -- a place is changed by the write to it and by no other one
  refine ⟨?_, ?_, ?_, ?_, ?_, ?_, ?_, ?_, ?_, ?_, ?_, ?_⟩ <;>
    simp (disch := decide) only [s₁₀.other, s₁₀.own, s₉.other, s₉.own, s₈.other, s₈.own, s₇.other, s₇.own,
      s₆.other, s₆.own, s₅.other, s₅.own, s₄.other, s₄.own, s₃.other, s₃.own, s₂.other, s₂.own, s₁.other,
      s₁.own]

/-- **The modifier.** On the fields of a packet of the protocol of the context, the writes are `rewrite`. -/
theorem view_modify (hproto : x.entry.match_.proto = nextProtoId.get m.data) :
    (m.modify x).view = rewrite m.view x := by
  obtain ⟨hsrcmac, hdstmac, hsrcip, hdstip, hnext, htos, httl, hhdr, hsport, hdport, htcp, hudp⟩ :=
    modify_places m x
  have hor : ∀ (b : Bool) (p : Prop) [Decidable p], (b || decide p) = if p then true else b := by
    intro b p _
    by_cases hp : p <;> simp [hp]
  unfold RawMbuf.view rewrite
  rw [Mbuf.mk.injEq]
  refine ⟨?_, ?_, ?_, ?_, ?_, ?_, ?_, ?_, ?_, ?_, ?_, ?_, ?_, ?_, ?_, ?_, ?_, ?_⟩
  · simp only [apply_ite Mbuf.port, ite_self]
    rfl
  · simp only [apply_ite Mbuf.ipv4, ite_self]
    rfl
  · simp only [apply_ite Mbuf.rss, ite_self]
    rfl
  · simp only [apply_ite Mbuf.s_addr, ite_self, hsrcmac]
  · simp only [apply_ite Mbuf.d_addr, ite_self, hdstmac]
  · simp only [apply_ite Mbuf.src_addr, ite_self, hsrcip]
  · simp only [apply_ite Mbuf.dst_addr, ite_self, hdstip]
  · simp only [apply_ite Mbuf.next_proto_id, ite_self, hnext]
  · simp only [apply_ite Mbuf.type_of_service, ite_self, htos]
  · simp only [apply_ite Mbuf.time_to_live, ite_self, httl]
  · simp only [apply_ite Mbuf.hdr_checksum, ite_self, hhdr]
  · simp only [apply_ite Mbuf.sport, ite_self, hsport]
  · simp only [apply_ite Mbuf.dport, ite_self, hdport]
  · simp only [apply_ite Mbuf.cksum, ite_self, hnext, htcp, hudp, hproto]
    by_cases hu : nextProtoId.get m.data = L4_UDP
    · simp [hu, show L4_UDP ≠ L4_TCP by decide]
    · simp [hu]
  · simp only [apply_ite Mbuf.PKT_TX_IPV4, ite_self, RawMbuf.modify, hor]
  · simp only [apply_ite Mbuf.PKT_TX_IP_CKSUM, ite_self, RawMbuf.modify, hor]
  · simp only [apply_ite Mbuf.PKT_TX_TCP_CKSUM, ite_self, RawMbuf.modify, hor]
  · simp only [apply_ite Mbuf.PKT_TX_UDP_CKSUM, ite_self, RawMbuf.modify, hor]

end View

/-! ### The grammar of IPv4 -/

def Codec.be16 : Codec UInt16 := .network 2 UInt16.toNat UInt16.ofNat ofNat_toNat_u16

namespace RawMbuf

variable (m : RawMbuf)

def version : ℕ := (versionIhl.get m.data).toNat / 16

/-- The length of the IP header, in words of four bytes. -/
def ihl : ℕ := (versionIhl.get m.data).toNat % 16

/-- The length of the IP packet. -/
def length : ℕ := (Place.get ⟨Codec.be16, totalLength.off⟩ m.data).toNat

/-- Where the fragment is in the packet, in words of eight bytes. -/
def fragment : ℕ := (Place.get ⟨Codec.be16, fragmentOffset.off⟩ m.data).toNat % 2 ^ 13

def proto : UInt8 := nextProtoId.get m.data

/-- Where the IP header ends. -/
def l4Start : ℕ := etherHdrSize + 4 * m.ihl

end RawMbuf

/-- The length of a TCP header without options, or of a UDP header. -/
def l4HdrSize (proto : UInt8) : ℕ := if proto = L4_TCP then 20 else 8

variable {m : RawMbuf} {attr : ConnAttr}

/-- An IPv4 packet or a fragment of one, classified as such by the NIC; it may be padded. -/
structure IsIpv4 (m : RawMbuf) : Prop where
  classified : m.packet_type &&& l3Ipv4 ≠ 0
  version : m.version = 4
  ihl : 5 ≤ m.ihl
  header : 4 * m.ihl ≤ m.length
  inside : etherHdrSize + m.length ≤ m.data_len

/-- The packet has a TCP or UDP header. -/
structure HasL4 (m : RawMbuf) : Prop where
  proto : m.proto = L4_TCP ∨ m.proto = L4_UDP
  first : m.fragment = 0
  inside : 4 * m.ihl + l4HdrSize m.proto ≤ m.length

/-- A write that keeps off the options and the payload of a later fragment. -/
def Write.KeepsOff (m : RawMbuf) (w : Write) : Prop :=
  ∀ a, w.off ≤ a → a < w.off + w.bytes.length →
    ¬ (l4Offset ≤ a ∧ a < m.l4Start) ∧ (m.fragment ≠ 0 → a < m.l4Start)

/-- The parser accepts a packet only with a TCP or UDP header, and then takes the ports from the place they
have in the grammar; for every context of the protocol, the modifier writes the ports and the checksum to
that place, and nothing where the header is not. -/
structure ParsesIpv4 (attr : ConnAttr) (m : RawMbuf) : Prop where
  parse : ∀ entry, m.parse attr = some entry → HasL4 m ∧
    entry.match_.src_port = (srcPort m.l4Start).get m.data ∧
    entry.match_.dst_port = (dstPort m.l4Start).get m.data
  modify : ∀ entry, m.parse attr = some entry → ∀ x : ConnContext,
    x.entry.match_.proto = entry.match_.proto →
    portWrites l4Offset x.entry.action = portWrites m.l4Start x.entry.action ∧
    l4CksumWrites l4Offset x.entry.action x.entry.match_.proto =
      l4CksumWrites m.l4Start x.entry.action x.entry.match_.proto ∧
    ∀ w ∈ modifyWrites l4Offset (timeToLive.get m.data) x, w.KeepsOff m

/-- What the parser accepts, and the ports it takes. -/
theorem parse_eq_some (h : m.packet_type &&& l3Ipv4 ≠ 0) :
    (m.proto = L4_TCP ∨ m.proto = L4_UDP → ∃ entry, m.parse attr = some entry) ∧
    ∀ entry, m.parse attr = some entry → (m.proto = L4_TCP ∨ m.proto = L4_UDP) ∧
      entry.match_.src_port = (srcPort l4Offset).get m.data ∧
      entry.match_.dst_port = (dstPort l4Offset).get m.data ∧ entry.match_.proto = m.proto := by
  have hipv4 : m.view.ipv4 = true := decide_eq_true h
  unfold RawMbuf.parse packetParser
  rw [if_pos hipv4]
  by_cases htcp : m.proto = L4_TCP
  · have htcp' : m.view.next_proto_id = L4_TCP := htcp
    rw [if_pos htcp']
    refine ⟨fun _ => ⟨_, rfl⟩, fun entry he => ?_⟩
    cases he
    exact ⟨.inl htcp, rfl, rfl, rfl⟩
  · have htcp' : ¬ m.view.next_proto_id = L4_TCP := htcp
    rw [if_neg htcp']
    by_cases hudp : m.proto = L4_UDP
    · have hudp' : m.view.next_proto_id = L4_UDP := hudp
      rw [if_pos hudp']
      refine ⟨fun _ => ⟨_, rfl⟩, fun entry he => ?_⟩
      cases he
      exact ⟨.inr hudp, rfl, rfl, rfl⟩
    · have hudp' : ¬ m.view.next_proto_id = L4_UDP := hudp
      rw [if_neg hudp']
      exact ⟨fun h => absurd h (not_or.2 ⟨htcp, hudp⟩), nofun⟩

theorem l4Start_eq_iff : m.l4Start = l4Offset ↔ m.ihl = 5 := by
  unfold RawMbuf.l4Start l4Offset etherHdrSize ipv4HdrSize
  omega

/-- The packet is not taken for TCP or UDP, or its header is where the code looks for it. -/
def PlainHeader (m : RawMbuf) : Prop :=
  m.proto = L4_TCP ∨ m.proto = L4_UDP →
    m.ihl = 5 ∧ m.fragment = 0 ∧ ipv4HdrSize + l4HdrSize m.proto ≤ m.length

theorem ParsesIpv4.plainHeader (h : ParsesIpv4 attr m) (hipv4 : m.packet_type &&& l3Ipv4 ≠ 0) :
    PlainHeader m := by
  intro hproto
  obtain ⟨entry, hentry⟩ := (parse_eq_some hipv4).1 hproto
  obtain ⟨hl4, -⟩ := h.parse entry hentry
  -- a context that sets the source port is enough to find the place
  have hwrites := (h.modify entry hentry
    { entry := { match_ := entry.match_, action := { flags := SPORT } } } rfl).1
  have hoff : l4Offset = m.l4Start := by
    have hsport : SPORT &&& SPORT ≠ 0 := by decide
    have hdport : ¬ SPORT &&& DPORT ≠ 0 := by decide
    simp only [portWrites, onFlags, if_pos hsport, if_neg hdport, List.append_nil, List.cons.injEq,
      and_true] at hwrites
    exact congrArg Write.off hwrites
  have hihl := l4Start_eq_iff.1 hoff.symm
  have hinside := hl4.inside
  rw [hihl] at hinside
  exact ⟨hihl, hl4.first, hinside⟩

theorem PlainHeader.parsesIpv4 (h : PlainHeader m) (hipv4 : m.packet_type &&& l3Ipv4 ≠ 0) :
    ParsesIpv4 attr m := by
  refine ⟨fun entry hentry => ?_, fun entry hentry x hx => ?_⟩
  · obtain ⟨hproto, hsrc, hdst, -⟩ := (parse_eq_some hipv4).2 entry hentry
    obtain ⟨hihl, hfirst, hinside⟩ := h hproto
    rw [l4Start_eq_iff.2 hihl]
    refine ⟨⟨hproto, hfirst, ?_⟩, hsrc, hdst⟩
    rw [hihl]
    exact hinside
  · obtain ⟨hproto, -⟩ := (parse_eq_some hipv4).2 entry hentry
    obtain ⟨hihl, hfirst, -⟩ := h hproto
    have hstart := l4Start_eq_iff.2 hihl
    rw [hstart]
    refine ⟨rfl, rfl, fun w _ a _ _ => ⟨?_, fun hlater => absurd hfirst hlater⟩⟩
    rw [hstart]
    omega

/-- **Offsets.** For every IPv4 packet and all settings: the parser and the modifier go by the grammar if and
only if the packet is neither TCP nor UDP, or has an IP header without options, is no later fragment, and
holds the header of its protocol. -/
theorem parsesIpv4_iff (attr : ConnAttr) (h : IsIpv4 m) : ParsesIpv4 attr m ↔ PlainHeader m :=
  ⟨fun hp => hp.plainHeader h.classified, fun hp => hp.parsesIpv4 h.classified⟩

/-- A UDP packet to port 53: the first byte of its IP header, its length, and the options. -/
def udpPacket (versionIhl length : UInt8) (options : List UInt8) : RawMbuf where
  port := 0
  packet_type := 0x211
  rss := 0
  data_len := 60
  data a := (List.replicate 12 0 ++ [0x08, 0, versionIhl, 0, 0, length, 0, 1, 0x40, 0, 64, 17, 0, 0,
    10, 0, 0, 1, 10, 0, 0, 2] ++ options ++ [0x30, 0x39, 0, 53, 0, 8, 0, 0]).getD a 0

theorem parsesIpv4_iff_plain : ParsesIpv4 {} (udpPacket 0x45 28 []) ↔ PlainHeader (udpPacket 0x45 28 []) :=
  parsesIpv4_iff {} ⟨by decide, by decide, by decide, by decide, by decide⟩

/-- A packet with the router alert option: it is taken for one from port 37892 to port 0. -/
theorem options_taken_for_ports :
    IsIpv4 (udpPacket 0x46 32 [0x94, 4, 0, 0]) ∧ ¬ ParsesIpv4 {} (udpPacket 0x46 32 [0x94, 4, 0, 0]) := by
  refine ⟨⟨by decide, by decide, by decide, by decide, by decide⟩, fun h => ?_⟩
  have hihl := (h.plainHeader (by decide) (by decide)).1
  exact absurd hihl (by decide)

end FlowQoS.Conntrack
