import FlowQoS.Pipe.Defs
import Mathlib.Algebra.Group.Nat.Defs

/-!
# What the hardware does with a packet

The adapters of `flowQoS_pipe.c` translate the pattern of a pipe and the values of an entry into the
driver's records: the pipe enables a field by setting it to all ones, and the entry gives its value.
`DocaPipe.Hits` and `DocaPipe.apply` are what the hardware is relied on for: it matches the fields the
pipe enables against the entry's values, sets the fields the pipe enables to the entry's values, and
adds the pipe's operand to the TTL.
-/

namespace FlowQoS.Pipe

/-! ### The driver's records -/

inductive DocaIpType where
  | DOCA_FLOW_ADDR_NONE
  | DOCA_FLOW_IP4_ADDR
  deriving DecidableEq

structure DocaIpAddr where
  type : DocaIpType := .DOCA_FLOW_ADDR_NONE
  ipv4_addr : UInt32 := 0
  deriving DecidableEq

def DOCA_PROTO_TCP : UInt8 := 6
def DOCA_PROTO_UDP : UInt8 := 17

@[ext]
structure DocaMatch where
  out_src_ip : DocaIpAddr := {}
  out_dst_ip : DocaIpAddr := {}
  out_l4_type : UInt8 := 0
  out_src_port : UInt16 := 0
  out_dst_port : UInt16 := 0
  deriving DecidableEq

inductive DocaActionType where
  | DOCA_FLOW_ACTION_AUTO
  | DOCA_FLOW_ACTION_ADD
  deriving DecidableEq

@[ext]
structure DocaActions where
  mod_src_mac : EtherAddr := 0
  mod_dst_mac : EtherAddr := 0
  mod_src_ip : DocaIpAddr := {}
  mod_dst_ip : DocaIpAddr := {}
  ttl : UInt8 := 0
  mod_src_port : UInt16 := 0
  mod_dst_port : UInt16 := 0
  deriving DecidableEq

/-- `doca_flow_monitor`; the flags are those for counting and for aging. -/
structure DocaMonitor where
  COUNT : Bool := false
  AGING : Bool := false
  aging : ℤ := 0
  deriving DecidableEq

/-- `doca_flow_action_meta`; of the descriptions only that of the TTL is used. -/
structure DocaActionMeta where
  actions : DocaActions := {}
  descs_ttl : DocaActionType := .DOCA_FLOW_ACTION_AUTO
  monitor : DocaMonitor := {}
  deriving DecidableEq

inductive DocaFwd where
  | DOCA_FLOW_FWD_DROP
  | DOCA_FLOW_FWD_PORT (port_id : ℕ)
  | DOCA_FLOW_FWD_RSS
  | DOCA_FLOW_FWD_PIPE (next_pipe : UInt64)
  deriving DecidableEq

/-! ### The adapters -/

/-- `match_adapter`. -/
def matchAdapter (flowQoS_match : FlowQoSMatch) (isEntry : ℤ) (d : DocaMatch) : DocaMatch :=
  let flags := flowQoS_match.flags
  let d :=
    if flags &&& SIP ≠ 0 then
      { d with out_src_ip :=
        ⟨.DOCA_FLOW_IP4_ADDR, if isEntry > 0 then flowQoS_match.src_ip else 0xffffffff⟩ }
    else d
  let d :=
    if flags &&& DIP ≠ 0 then
      { d with out_dst_ip :=
        ⟨.DOCA_FLOW_IP4_ADDR, if isEntry > 0 then flowQoS_match.dst_ip else 0xffffffff⟩ }
    else d
  let d := if flags &&& TCP ≠ 0 ∧ isEntry = 0 then { d with out_l4_type := DOCA_PROTO_TCP } else d
  let d := if flags &&& UDP ≠ 0 ∧ isEntry = 0 then { d with out_l4_type := DOCA_PROTO_UDP } else d
  let d :=
    if flags &&& SPORT ≠ 0 then
      { d with out_src_port := if isEntry > 0 then flowQoS_match.src_port else 0xffff }
    else d
  if flags &&& DPORT ≠ 0 then
    { d with out_dst_port := if isEntry > 0 then flowQoS_match.dst_port else 0xffff }
  else d

/-- `action_adapter`. -/
def actionAdapter (flowQoS_action : FlowQoSAction) (agingTime : ℤ) (d : DocaActionMeta) :
    DocaActionMeta :=
  let flags := flowQoS_action.flags
  let d :=
    if flags &&& SMAC ≠ 0 then
      { d with actions := { d.actions with
        mod_src_mac := if agingTime > 0 then flowQoS_action.src_mac else BitVec.allOnes 48 } }
    else d
  let d :=
    if flags &&& DMAC ≠ 0 then
      { d with actions := { d.actions with
        mod_dst_mac := if agingTime > 0 then flowQoS_action.dst_mac else BitVec.allOnes 48 } }
    else d
  let d :=
    if flags &&& SIP ≠ 0 then
      { d with actions := { d.actions with mod_src_ip :=
        ⟨.DOCA_FLOW_IP4_ADDR, if agingTime > 0 then flowQoS_action.src_ip else 0xffffffff⟩ } }
    else d
  let d :=
    if flags &&& DIP ≠ 0 then
      { d with actions := { d.actions with mod_dst_ip :=
        ⟨.DOCA_FLOW_IP4_ADDR, if agingTime > 0 then flowQoS_action.dst_ip else 0xffffffff⟩ } }
    else d
  let d :=
    if flags &&& TTL_DECREASE ≠ 0 ∧ agingTime = 0 then
      { d with descs_ttl := .DOCA_FLOW_ACTION_ADD, actions := { d.actions with ttl := 255 } }
    else d
  let d :=
    if flags &&& SPORT ≠ 0 then
      { d with actions := { d.actions with
        mod_src_port := if agingTime > 0 then flowQoS_action.src_port else 0xffff } }
    else d
  let d :=
    if flags &&& DPORT ≠ 0 then
      { d with actions := { d.actions with
        mod_dst_port := if agingTime > 0 then flowQoS_action.dst_port else 0xffff } }
    else d
  let d :=
    if flags &&& COUNTER ≠ 0 ∧ agingTime = 0 then { d with monitor := { d.monitor with COUNT := true } }
    else d
  if flags &&& AGING ≠ 0 then
    { d with monitor := { d.monitor with
      AGING := true
      aging := if agingTime ≠ 0 then agingTime else d.monitor.aging } }
  else d

/-- `fwd_adapter`. -/
def fwdAdapter (fwd : UInt64) (port_id : ℕ) : DocaFwd :=
  if fwd = DROP then .DOCA_FLOW_FWD_DROP
  else if fwd = PORT then .DOCA_FLOW_FWD_PORT (port_id ^^^ 1)
  else if fwd = RSS_TO_QUEUE then .DOCA_FLOW_FWD_RSS
  else .DOCA_FLOW_FWD_PIPE fwd

/-! ### Pipes and entries of the driver -/

/-- What `flowQoS_build_pipe` hands to `doca_flow_pipe_create`. -/
structure DocaPipe where
  port : ℕ
  match_ : DocaMatch
  action_meta : DocaActionMeta
  fwd : DocaFwd
  fwd_miss : DocaFwd
  deriving DecidableEq

/-- The driver's side of `flowQoS_build_pipe`. -/
def docaPipe (pipe : FlowQoSPipe) (matched unmatched : UInt64) : DocaPipe where
  port := pipe.port_id
  match_ := matchAdapter pipe.match_pattern 0 {}
  action_meta := actionAdapter pipe.action_pattern 0 {}
  fwd := fwdAdapter matched pipe.port_id
  fwd_miss := fwdAdapter unmatched pipe.port_id

/-- What `flowQoS_add_entry` hands to `doca_flow_pipe_add_entry`. -/
structure DocaEntry where
  match_ : DocaMatch
  action_meta : DocaActionMeta
  deriving DecidableEq

/-- The argument of `action_adapter` for an entry, an `int`. -/
def agingTime (expireTime : UInt64) : ℤ :=
  (if expireTime > 0 then (expireTime.toNat : ℤ) else 1).bmod (2 ^ 32)

/-- The driver's side of `flowQoS_add_entry`, for an entry that has taken over the flags of its pipe. -/
def docaEntry (entry : FlowQoSEntry) : DocaEntry where
  match_ := matchAdapter entry.match_ 1 {}
  action_meta := actionAdapter entry.action (agingTime entry.expireTime) {}

/-! ### The hardware -/

/-- The headers of a TCP or UDP packet, and the port it is received on. -/
structure Packet where
  port : ℕ
  src_mac : EtherAddr
  dst_mac : EtherAddr
  src_ip : UInt32
  dst_ip : UInt32
  proto : UInt8
  ttl : UInt8
  src_port : UInt16
  dst_port : UInt16
  deriving DecidableEq

/-- A header field is as the pipe and the entry want it: the pipe leaves the field out (0), leaves it to
the entry (all ones), or has a value of its own. -/
def FieldHits {α : Type} (zero ones pipe entry field : α) : Prop :=
  pipe = zero ∨ pipe = ones ∧ field = entry ∨ pipe ≠ ones ∧ field = pipe

/-- The same for an address. -/
def AddrHits (pipe entry : DocaIpAddr) (field : UInt32) : Prop :=
  pipe.type = .DOCA_FLOW_ADDR_NONE ∨ FieldHits 0 0xffffffff pipe.ipv4_addr entry.ipv4_addr field

/-- The packet hits the entry. -/
structure DocaPipe.Hits (pipe : DocaPipe) (entry : DocaEntry) (m : Packet) : Prop where
  port : m.port = pipe.port
  src_ip : AddrHits pipe.match_.out_src_ip entry.match_.out_src_ip m.src_ip
  dst_ip : AddrHits pipe.match_.out_dst_ip entry.match_.out_dst_ip m.dst_ip
  l4_type : FieldHits 0 0xff pipe.match_.out_l4_type entry.match_.out_l4_type m.proto
  src_port : FieldHits 0 0xffff pipe.match_.out_src_port entry.match_.out_src_port m.src_port
  dst_port : FieldHits 0 0xffff pipe.match_.out_dst_port entry.match_.out_dst_port m.dst_port

/-- A field that the pipe enables is set to the entry's value. -/
def setField {α : Type} [DecidableEq α] (ones pipe entry field : α) : α :=
  if pipe = ones then entry else field

def setAddr (pipe entry : DocaIpAddr) (field : UInt32) : UInt32 :=
  if pipe.type = .DOCA_FLOW_IP4_ADDR then setField 0xffffffff pipe.ipv4_addr entry.ipv4_addr field
  else field

/-- The packet after it has hit the entry. -/
def DocaPipe.apply (pipe : DocaPipe) (entry : DocaEntry) (m : Packet) : Packet :=
  let p := pipe.action_meta.actions
  let e := entry.action_meta.actions
  { m with
    src_mac := setField (BitVec.allOnes 48) p.mod_src_mac e.mod_src_mac m.src_mac
    dst_mac := setField (BitVec.allOnes 48) p.mod_dst_mac e.mod_dst_mac m.dst_mac
    src_ip := setAddr p.mod_src_ip e.mod_src_ip m.src_ip
    dst_ip := setAddr p.mod_dst_ip e.mod_dst_ip m.dst_ip
    ttl := if pipe.action_meta.descs_ttl = .DOCA_FLOW_ACTION_ADD then m.ttl + p.ttl else m.ttl
    src_port := setField 0xffff p.mod_src_port e.mod_src_port m.src_port
    dst_port := setField 0xffff p.mod_dst_port e.mod_dst_port m.dst_port }

/-! ### The adapters field by field -/

theorem matchAdapter_eq (x : FlowQoSMatch) (isEntry : ℤ) : matchAdapter x isEntry {} =
    { out_src_ip :=
        if x.flags &&& SIP ≠ 0 then
          ⟨.DOCA_FLOW_IP4_ADDR, if isEntry > 0 then x.src_ip else 0xffffffff⟩ else {}
      out_dst_ip :=
        if x.flags &&& DIP ≠ 0 then
          ⟨.DOCA_FLOW_IP4_ADDR, if isEntry > 0 then x.dst_ip else 0xffffffff⟩ else {}
      out_l4_type :=
        if x.flags &&& UDP ≠ 0 ∧ isEntry = 0 then DOCA_PROTO_UDP
        else if x.flags &&& TCP ≠ 0 ∧ isEntry = 0 then DOCA_PROTO_TCP else 0
      out_src_port :=
        if x.flags &&& SPORT ≠ 0 then if isEntry > 0 then x.src_port else 0xffff else 0
      out_dst_port :=
        if x.flags &&& DPORT ≠ 0 then if isEntry > 0 then x.dst_port else 0xffff else 0 } := by
  unfold matchAdapter
  apply DocaMatch.ext
  · simp only [apply_ite DocaMatch.out_src_ip, ite_self]
  · simp only [apply_ite DocaMatch.out_dst_ip, ite_self]
  · simp only [apply_ite DocaMatch.out_l4_type, ite_self]
  · simp only [apply_ite DocaMatch.out_src_port, ite_self]
  · simp only [apply_ite DocaMatch.out_dst_port, ite_self]

theorem actionAdapter_actions (x : FlowQoSAction) (t : ℤ) : (actionAdapter x t {}).actions =
    { mod_src_mac :=
        if x.flags &&& SMAC ≠ 0 then if t > 0 then x.src_mac else BitVec.allOnes 48 else 0
      mod_dst_mac :=
        if x.flags &&& DMAC ≠ 0 then if t > 0 then x.dst_mac else BitVec.allOnes 48 else 0
      mod_src_ip :=
        if x.flags &&& SIP ≠ 0 then
          ⟨.DOCA_FLOW_IP4_ADDR, if t > 0 then x.src_ip else 0xffffffff⟩ else {}
      mod_dst_ip :=
        if x.flags &&& DIP ≠ 0 then
          ⟨.DOCA_FLOW_IP4_ADDR, if t > 0 then x.dst_ip else 0xffffffff⟩ else {}
      ttl := if x.flags &&& TTL_DECREASE ≠ 0 ∧ t = 0 then 255 else 0
      mod_src_port := if x.flags &&& SPORT ≠ 0 then if t > 0 then x.src_port else 0xffff else 0
      mod_dst_port := if x.flags &&& DPORT ≠ 0 then if t > 0 then x.dst_port else 0xffff else 0 } := by
  unfold actionAdapter
  simp only [apply_ite DocaActionMeta.actions, ite_self]
  apply DocaActions.ext
  · simp only [apply_ite DocaActions.mod_src_mac, ite_self]
  · simp only [apply_ite DocaActions.mod_dst_mac, ite_self]
  · simp only [apply_ite DocaActions.mod_src_ip, ite_self]
  · simp only [apply_ite DocaActions.mod_dst_ip, ite_self]
  · simp only [apply_ite DocaActions.ttl, ite_self]
  · simp only [apply_ite DocaActions.mod_src_port, ite_self]
  · simp only [apply_ite DocaActions.mod_dst_port, ite_self]

theorem actionAdapter_ttl (x : FlowQoSAction) (t : ℤ) : (actionAdapter x t {}).descs_ttl =
    if x.flags &&& TTL_DECREASE ≠ 0 ∧ t = 0 then .DOCA_FLOW_ACTION_ADD else .DOCA_FLOW_ACTION_AUTO := by
  unfold actionAdapter
  simp only [apply_ite DocaActionMeta.descs_ttl, ite_self]

/-! ### Pipes and entries with the same flags -/

section Field

variable {α : Type} {p : Prop} [Decidable p] {zero ones value field : α}

/-- A field that both enable or both leave out. -/
theorem fieldHits_ite (h : ones ≠ zero) (entry : α) :
    FieldHits zero ones (if p then ones else zero) (if p then value else entry) field ↔
      (p → field = value) := by
  unfold FieldHits
  by_cases hp : p
  · simp [hp, h]
  · simp [hp]

theorem setField_ite [DecidableEq α] (h : ones ≠ zero) (entry : α) :
    setField ones (if p then ones else zero) (if p then value else entry) field =
      if p then value else field := by
  unfold setField
  by_cases hp : p
  · simp [hp]
  · simp [hp, h.symm]

end Field

section Addr

variable {p : Prop} [Decidable p] {value field : UInt32}

theorem addrHits_ite :
    AddrHits (if p then ⟨.DOCA_FLOW_IP4_ADDR, 0xffffffff⟩ else {})
      (if p then ⟨.DOCA_FLOW_IP4_ADDR, value⟩ else {}) field ↔ (p → field = value) := by
  unfold AddrHits FieldHits
  by_cases hp : p
  · simp [hp]
  · simp [hp]

theorem setAddr_ite :
    setAddr (if p then ⟨.DOCA_FLOW_IP4_ADDR, 0xffffffff⟩ else {})
      (if p then ⟨.DOCA_FLOW_IP4_ADDR, value⟩ else {}) field = if p then value else field := by
  unfold setAddr setField
  by_cases hp : p
  · simp [hp]
  · simp [hp]

end Addr

variable {pipe : FlowQoSPipe} {entry : FlowQoSEntry} {matched unmatched : UInt64} {m : Packet}

/-- **What a packet has to be to hit an entry**: the fields of the pipe's flags are the entry's, and the
protocol is that of the flags. -/
theorem hits_iff (hflags : entry.match_.flags = pipe.match_pattern.flags) :
    (docaPipe pipe matched unmatched).Hits (docaEntry entry) m ↔
      m.port = pipe.port_id ∧
      (entry.match_.flags &&& SIP ≠ 0 → m.src_ip = entry.match_.src_ip) ∧
      (entry.match_.flags &&& DIP ≠ 0 → m.dst_ip = entry.match_.dst_ip) ∧
      (entry.match_.flags &&& UDP ≠ 0 → m.proto = DOCA_PROTO_UDP) ∧
      (entry.match_.flags &&& UDP = 0 → entry.match_.flags &&& TCP ≠ 0 → m.proto = DOCA_PROTO_TCP) ∧
      (entry.match_.flags &&& SPORT ≠ 0 → m.src_port = entry.match_.src_port) ∧
      (entry.match_.flags &&& DPORT ≠ 0 → m.dst_port = entry.match_.dst_port) := by
  have hl4 : FieldHits 0 0xff (docaPipe pipe matched unmatched).match_.out_l4_type
      (docaEntry entry).match_.out_l4_type m.proto ↔
      (entry.match_.flags &&& UDP ≠ 0 → m.proto = DOCA_PROTO_UDP) ∧
      (entry.match_.flags &&& UDP = 0 → entry.match_.flags &&& TCP ≠ 0 → m.proto = DOCA_PROTO_TCP) := by
    simp only [docaPipe, docaEntry, matchAdapter_eq, ← hflags]
    by_cases hudp : entry.match_.flags &&& UDP ≠ 0
    · simp [hudp, FieldHits, DOCA_PROTO_UDP]
    · by_cases htcp : entry.match_.flags &&& TCP ≠ 0
      · rw [ne_eq, Decidable.not_not] at hudp
        simp [hudp, htcp, FieldHits, DOCA_PROTO_TCP]
      · simp [hudp, htcp, FieldHits]
  have hsrc : AddrHits (docaPipe pipe matched unmatched).match_.out_src_ip
      (docaEntry entry).match_.out_src_ip m.src_ip ↔
      (entry.match_.flags &&& SIP ≠ 0 → m.src_ip = entry.match_.src_ip) := by
    simp only [docaPipe, docaEntry, matchAdapter_eq, ← hflags]
    exact addrHits_ite
  have hdst : AddrHits (docaPipe pipe matched unmatched).match_.out_dst_ip
      (docaEntry entry).match_.out_dst_ip m.dst_ip ↔
      (entry.match_.flags &&& DIP ≠ 0 → m.dst_ip = entry.match_.dst_ip) := by
    simp only [docaPipe, docaEntry, matchAdapter_eq, ← hflags]
    exact addrHits_ite
  have hsport : FieldHits 0 0xffff (docaPipe pipe matched unmatched).match_.out_src_port
      (docaEntry entry).match_.out_src_port m.src_port ↔
      (entry.match_.flags &&& SPORT ≠ 0 → m.src_port = entry.match_.src_port) := by
    simp only [docaPipe, docaEntry, matchAdapter_eq, ← hflags]
    exact fieldHits_ite (by decide) _
  have hdport : FieldHits 0 0xffff (docaPipe pipe matched unmatched).match_.out_dst_port
      (docaEntry entry).match_.out_dst_port m.dst_port ↔
      (entry.match_.flags &&& DPORT ≠ 0 → m.dst_port = entry.match_.dst_port) := by
    simp only [docaPipe, docaEntry, matchAdapter_eq, ← hflags]
    exact fieldHits_ite (by decide) _
  rw [← hsrc, ← hdst, ← hsport, ← hdport, ← and_assoc (c := FieldHits _ _ _ _ _ ∧ _), ← hl4]
  constructor
  · rintro ⟨h1, h2, h3, h4, h5, h6⟩
    exact ⟨h1, h2, h3, h4, h5, h6⟩
  · rintro ⟨h1, h2, h3, h4, h5, h6⟩
    exact ⟨h1, h2, h3, h4, h5, h6⟩

/-- **What an entry does to a packet.** -/
theorem apply_eq (hflags : entry.action.flags = pipe.action_pattern.flags)
    (haging : 0 < agingTime entry.expireTime) :
    (docaPipe pipe matched unmatched).apply (docaEntry entry) m =
      { m with
        src_mac := if entry.action.flags &&& SMAC ≠ 0 then entry.action.src_mac else m.src_mac
        dst_mac := if entry.action.flags &&& DMAC ≠ 0 then entry.action.dst_mac else m.dst_mac
        src_ip := if entry.action.flags &&& SIP ≠ 0 then entry.action.src_ip else m.src_ip
        dst_ip := if entry.action.flags &&& DIP ≠ 0 then entry.action.dst_ip else m.dst_ip
        ttl := if entry.action.flags &&& TTL_DECREASE ≠ 0 then m.ttl - 1 else m.ttl
        src_port := if entry.action.flags &&& SPORT ≠ 0 then entry.action.src_port else m.src_port
        dst_port := if entry.action.flags &&& DPORT ≠ 0 then entry.action.dst_port else m.dst_port } := by
  have hzero : ¬ (0 : ℤ) > 0 := by omega
  unfold DocaPipe.apply
  simp only [docaPipe, docaEntry, actionAdapter_actions, actionAdapter_ttl, ← hflags, hzero, haging,
    if_true, if_false, and_true]
  rw [setField_ite (by decide), setField_ite (by decide), setField_ite (by decide),
    setField_ite (by decide), setAddr_ite, setAddr_ite]
  by_cases httl : entry.action.flags &&& TTL_DECREASE ≠ 0
  · simp only [if_pos httl, if_true, UInt8.sub_eq_add_neg]
    rfl
  · simp [httl]

end FlowQoS.Pipe
