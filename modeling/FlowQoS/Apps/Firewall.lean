import FlowQoS.Pipe.Adapter
import Mathlib.Data.List.Nodup

/-!
# The firewall (`flowQoS_firewall.c`)

Each of the two ports has two drop pipes, one for TCP and one for UDP, and a rule is an entry in one of
them. The rules are kept in a list, newest first, and are deleted by their position in it.

`Verdict` is what the firewall promises: an `INPUT` rule drops packets that come from the network, an
`OUTPUT` rule packets that come from the host. A pipe sees the packets that its port receives, and
`INPUT` rules go to the port of the host.

* `InStep`: the rules and the entries of the drop pipes stay in step;
* `run_verdict_iff`: a packet gets its verdict exactly when the rules of the two directions agree on it.
-/

namespace FlowQoS.Firewall

open Pipe

/-- The port connected with the host. -/
def PORT_TO_HOST : ℕ := 1
/-- The port connected with the network. -/
def PORT_TO_NET : ℕ := 0

/-- `INPUT` is from the network to the host, `OUTPUT` from the host to the network. -/
inductive TrafficDirection where
  | INPUT
  | OUTPUT
  deriving DecidableEq

structure FirewallRule where
  direction : TrafficDirection
  proto : UInt8
  sip : UInt32
  sport : UInt16
  entry : FlowQoSEntry
  deriving DecidableEq

/-- The pipes of the ports and the list of rules; the address of a hairpin pipe is what the drop pipes
of its port forward to. -/
structure FlowQoSFirewallAttr where
  tcp_drop_pipe : ℕ → FlowQoSPipe
  udp_drop_pipe : ℕ → FlowQoSPipe
  hairpin_pipe : ℕ → FlowQoSPipe
  hairpin_addr : ℕ → UInt64
  bucket : List FirewallRule

structure FirewallState where
  fw_attr : FlowQoSFirewallAttr
  hw : Hardware

/-- The pipes that `main` builds, and the hairpin entry of each port. -/
def boot (addr : ℕ → UInt64) (o : ℕ → Outcome) : FirewallState :=
  let hairpin (i : ℕ) := buildPipe i 0 0
  { fw_attr :=
      { tcp_drop_pipe := fun i => buildPipe i (SIP ||| TCP ||| SPORT) 0
        udp_drop_pipe := fun i => buildPipe i (SIP ||| UDP ||| SPORT) 0
        hairpin_pipe := hairpin
        hairpin_addr := addr
        bucket := [] }
    hw := (addEntry (hairpin 1) 0 {} (o 1) (addEntry (hairpin 0) 0 {} (o 0) {}).2.2).2.2 }

/-- `flowQoS_firewall_add_rule`; `alloc` says whether `malloc` returns a rule. -/
def flowQoSFirewallAddRule (direction : TrafficDirection) (proto : UInt8) (sip : UInt32)
    (sport : UInt16) (alloc : Bool) (o : Outcome) (s : FirewallState) : ℤ × FirewallState :=
  if alloc = false then (0, s)
  else
    let entry : FlowQoSEntry := { match_ := { src_ip := sip, src_port := sport } }
    let (ret, entry, hw) :=
      match direction with
      | .INPUT =>
        if proto = 6 then addEntry (s.fw_attr.tcp_drop_pipe PORT_TO_HOST) 0 entry o s.hw
        else addEntry (s.fw_attr.udp_drop_pipe PORT_TO_HOST) 0 entry o s.hw
      | .OUTPUT =>
        if proto = 6 then addEntry (s.fw_attr.tcp_drop_pipe PORT_TO_NET) 0 entry o s.hw
        else addEntry (s.fw_attr.udp_drop_pipe PORT_TO_NET) 0 entry o s.hw
    if ret ≠ 0 then
      let rule : FirewallRule :=
        { direction := direction, proto := proto, sip := sip, sport := sport, entry := entry }
      (ret, { fw_attr := { s.fw_attr with bucket := rule :: s.fw_attr.bucket }, hw := hw })
    else (ret, { s with hw := hw })

/-- The loop of `flowQoS_firewall_del_rule`; it has no result when nothing is deleted. -/
def delLoop (rule_id : ℤ) (ok : Bool) (hw : Hardware) :
    ℤ → List FirewallRule → Option (List FirewallRule × Hardware)
  | _, [] => none
  | idx, rule :: rules =>
    if idx = rule_id then
      match hw.rmEntry rule.entry.entry ok with
      | none => none
      | some hw => some (rules, hw)
    else (delLoop rule_id ok hw (idx + 1) rules).map fun r => (rule :: r.1, r.2)

/-- `flowQoS_firewall_del_rule`. -/
def flowQoSFirewallDelRule (rule_id : ℤ) (ok : Bool) (s : FirewallState) : FirewallState :=
  match delLoop rule_id ok s.hw 0 s.fw_attr.bucket with
  | none => s
  | some (rules, hw) => { fw_attr := { s.fw_attr with bucket := rules }, hw := hw }

/-- The protocols that are printed. -/
inductive PrintedProto where
  | TCP
  | UDP
  deriving DecidableEq

/-- The number of the protocol in a packet's header. -/
def PrintedProto.number : PrintedProto → UInt8
  | .TCP => DOCA_PROTO_TCP
  | .UDP => DOCA_PROTO_UDP

/-- A line of `flowQoS_firewall_print_rules`; a field that the pipe does not match stays empty. -/
structure PrintedRule where
  idx : ℕ
  direction : TrafficDirection
  proto : PrintedProto
  sip : Option UInt32
  sport : Option UInt16
  deriving DecidableEq

/-- One line; the address and the port are those of the entry. -/
def FirewallRule.printed (idx : ℕ) (rule : FirewallRule) : PrintedRule where
  idx := idx
  direction := rule.direction
  proto := if rule.proto = 6 then .TCP else .UDP
  sip := if rule.entry.match_.flags &&& SIP ≠ 0 then some rule.entry.match_.src_ip else none
  sport := if rule.entry.match_.flags &&& SPORT ≠ 0 then some rule.entry.match_.src_port else none

/-- `flowQoS_firewall_print_rules`. -/
def flowQoSFirewallPrintRules (s : FirewallState) : List PrintedRule :=
  s.fw_attr.bucket.mapIdx FirewallRule.printed

/-- A command, with what `malloc` and the driver answer. -/
inductive FirewallCall where
  | add (direction : TrafficDirection) (proto : UInt8) (sip : UInt32) (sport : UInt16) (alloc : Bool)
    (o : Outcome)
  | del (rule_id : ℤ) (ok : Bool)

def FirewallCall.run (s : FirewallState) : FirewallCall → FirewallState
  | .add direction proto sip sport alloc o =>
    (flowQoSFirewallAddRule direction proto sip sport alloc o s).2
  | .del rule_id ok => flowQoSFirewallDelRule rule_id ok s

/-- The state after the commands. -/
def runFirewall (addr : ℕ → UInt64) (o : ℕ → Outcome) (calls : List FirewallCall) : FirewallState :=
  calls.foldl FirewallCall.run (boot addr o)

/-! ### Verdicts -/

/-- The packet hits an entry of a drop pipe of the port it is received on. -/
def Dropped (s : FirewallState) (m : Packet) : Prop :=
  ∃ e ∈ s.hw.entries,
    (e.pipe = s.fw_attr.tcp_drop_pipe m.port ∨ e.pipe = s.fw_attr.udp_drop_pipe m.port) ∧
      (docaPipe e.pipe DROP (s.fw_attr.hairpin_addr m.port)).Hits
        (docaEntry { match_ := e.match_, action := e.action }) m

/-- A printed rule of this direction has the protocol, the source address and the source port of the
packet. -/
def Listed (s : FirewallState) (direction : TrafficDirection) (m : Packet) : Prop :=
  ∃ r ∈ flowQoSFirewallPrintRules s, r.direction = direction ∧ r.proto.number = m.proto ∧
    r.sip = some m.src_ip ∧ r.sport = some m.src_port

/-- What the two directions mean. -/
def Verdict (s : FirewallState) (m : Packet) : Prop :=
  (m.port = PORT_TO_NET → (Dropped s m ↔ Listed s .INPUT m)) ∧
    (m.port = PORT_TO_HOST → (Dropped s m ↔ Listed s .OUTPUT m))

/-! ### The rules and their entries -/

/-- The port whose drop pipes hold the rules of the direction. -/
def TrafficDirection.port : TrafficDirection → ℕ
  | .INPUT => PORT_TO_HOST
  | .OUTPUT => PORT_TO_NET

def l4Flags (proto : UInt8) : UInt64 := SIP ||| (if proto = 6 then TCP else UDP) ||| SPORT

/-- The pipe of a rule. -/
def rulePipe (direction : TrafficDirection) (proto : UInt8) : FlowQoSPipe :=
  buildPipe direction.port (l4Flags proto) 0

/-- What the entry of a rule matches. -/
def ruleMatch (proto : UInt8) (sip : UInt32) (sport : UInt16) : FlowQoSMatch :=
  { flags := l4Flags proto, src_ip := sip, src_port := sport }

/-- The entry belongs to the rule. -/
structure FirewallRule.Owns (r : FirewallRule) (e : HwEntry) : Prop where
  handle : r.entry.entry = some e.handle
  pipe : e.pipe = rulePipe r.direction r.proto
  match_ : e.match_ = ruleMatch r.proto r.sip r.sport
  action : e.action.flags = 0

/-- The rules and the entries of the drop pipes are in step. -/
structure InStep (s : FirewallState) : Prop where
  tcp : s.fw_attr.tcp_drop_pipe = fun i => buildPipe i (SIP ||| TCP ||| SPORT) 0
  udp : s.fw_attr.udp_drop_pipe = fun i => buildPipe i (SIP ||| UDP ||| SPORT) 0
  match_ : ∀ r ∈ s.fw_attr.bucket, r.entry.match_ = ruleMatch r.proto r.sip r.sport
  rules : ∀ r ∈ s.fw_attr.bucket, ∃ e ∈ s.hw.entries, r.Owns e
  entries : ∀ e ∈ s.hw.entries, e.pipe.match_pattern.flags = 0 ∨ ∃ r ∈ s.fw_attr.bucket, r.Owns e
  nodup : (s.fw_attr.bucket.map fun r => r.entry.entry).Nodup
  fresh : ∀ e ∈ s.hw.entries, e.handle < s.hw.next

variable {s : FirewallState} {m : Packet} {direction : TrafficDirection} {proto : UInt8}

theorem l4Flags_sip : l4Flags proto &&& SIP ≠ 0 := by
  unfold l4Flags
  split <;> decide

theorem l4Flags_dip : l4Flags proto &&& DIP = 0 := by
  unfold l4Flags
  split <;> decide

theorem l4Flags_sport : l4Flags proto &&& SPORT ≠ 0 := by
  unfold l4Flags
  split <;> decide

theorem l4Flags_dport : l4Flags proto &&& DPORT = 0 := by
  unfold l4Flags
  split <;> decide

theorem l4Flags_ne_zero : l4Flags proto ≠ 0 := by
  unfold l4Flags
  split <;> decide

/-- The pipes of a rule match its protocol. -/
theorem l4Flags_proto (x : UInt8) :
    ((l4Flags proto &&& UDP ≠ 0 → x = DOCA_PROTO_UDP) ∧
      (l4Flags proto &&& UDP = 0 → l4Flags proto &&& TCP ≠ 0 → x = DOCA_PROTO_TCP)) ↔
    (if proto = 6 then PrintedProto.TCP else .UDP).number = x := by
  unfold l4Flags
  by_cases h : proto = 6
  · have hudp : (SIP ||| TCP ||| SPORT) &&& UDP = 0 := by decide
    have htcp : (SIP ||| TCP ||| SPORT) &&& TCP ≠ 0 := by decide
    simp only [if_pos h, hudp, ne_eq, htcp, not_true_eq_false, not_false_eq_true, false_implies,
      true_implies, true_and, PrintedProto.number]
    exact eq_comm
  · have hudp : (SIP ||| UDP ||| SPORT) &&& UDP ≠ 0 := by decide
    simp only [if_neg h, ne_eq, hudp, not_false_eq_true, true_implies, false_implies, and_true,
      PrintedProto.number]
    exact eq_comm

/-- What the packets look like that hit the entry of a rule. -/
theorem FirewallRule.Owns.hits_iff {r : FirewallRule} {e : HwEntry} (h : r.Owns e) (fwd : UInt64) :
    (docaPipe e.pipe DROP fwd).Hits (docaEntry { match_ := e.match_, action := e.action }) m ↔
      m.port = r.direction.port ∧ m.src_ip = r.sip ∧
        (if r.proto = 6 then PrintedProto.TCP else .UDP).number = m.proto ∧ m.src_port = r.sport := by
  rw [h.pipe, h.match_, Pipe.hits_iff (by rfl)]
  simp only [ruleMatch, rulePipe, buildPipe, ne_eq, l4Flags_sip, l4Flags_dip, l4Flags_sport,
    l4Flags_dport, not_true_eq_false, not_false_eq_true, false_implies, true_implies, true_and, and_true]
  rw [← l4Flags_proto m.proto]
  constructor
  · rintro ⟨h1, h2, h3, h4, h5⟩
    exact ⟨h1, h2, ⟨h3, h4⟩, h5⟩
  · rintro ⟨h1, h2, ⟨h3, h4⟩, h5⟩
    exact ⟨h1, h2, h3, h4, h5⟩

/-- The rules that are printed. -/
theorem InStep.listed_iff (h : InStep s) : Listed s direction m ↔
    ∃ r ∈ s.fw_attr.bucket, r.direction = direction ∧
      (if r.proto = 6 then PrintedProto.TCP else .UDP).number = m.proto ∧ r.sip = m.src_ip ∧
        r.sport = m.src_port := by
  have hprinted : ∀ r ∈ s.fw_attr.bucket, ∀ idx, (r.printed idx).sip = some r.sip ∧
      (r.printed idx).sport = some r.sport := by
    intro r hr idx
    simp only [FirewallRule.printed, h.match_ r hr, ruleMatch]
    exact ⟨if_pos l4Flags_sip, if_pos l4Flags_sport⟩
  unfold Listed flowQoSFirewallPrintRules
  constructor
  · rintro ⟨p, hp, hdir, hproto, hsip, hsport⟩
    obtain ⟨i, hi, rfl⟩ := List.mem_mapIdx.1 hp
    have hr := List.getElem_mem hi
    obtain ⟨h1, h2⟩ := hprinted _ hr i
    rw [h1] at hsip
    rw [h2] at hsport
    exact ⟨_, hr, hdir, hproto, Option.some.inj hsip, Option.some.inj hsport⟩
  · rintro ⟨r, hr, hdir, hproto, hsip, hsport⟩
    obtain ⟨i, hi, rfl⟩ := List.getElem_of_mem hr
    obtain ⟨h1, h2⟩ := hprinted _ hr i
    exact ⟨_, List.mem_mapIdx.2 ⟨i, hi, rfl⟩, hdir, hproto, by rw [h1, hsip], by rw [h2, hsport]⟩

/-- **What is dropped**: the packets that a rule in a pipe of their port describes. -/
theorem InStep.dropped_iff (h : InStep s) : Dropped s m ↔
    ∃ r ∈ s.fw_attr.bucket, r.direction.port = m.port ∧
      (if r.proto = 6 then PrintedProto.TCP else .UDP).number = m.proto ∧ r.sip = m.src_ip ∧
        r.sport = m.src_port := by
  unfold Dropped
  constructor
  · rintro ⟨e, he, hpipe, hhits⟩
    rcases h.entries e he with h0 | ⟨r, hr, hown⟩
    · -- a hairpin entry is in no drop pipe
      have hne : ∀ proto, l4Flags proto ≠ 0 := fun proto => l4Flags_ne_zero
      rw [h.tcp, h.udp] at hpipe
      rcases hpipe with hp | hp
      · rw [hp] at h0
        exact absurd h0 (hne 6)
      · rw [hp] at h0
        exact absurd h0 (hne 17)
    · obtain ⟨h1, h2, h3, h4⟩ := (hown.hits_iff _).1 hhits
      exact ⟨r, hr, h1.symm, h3, h2.symm, h4.symm⟩
  · rintro ⟨r, hr, hport, hproto, hsip, hsport⟩
    obtain ⟨e, he, hown⟩ := h.rules r hr
    refine ⟨e, he, ?_, (hown.hits_iff _).2 ⟨hport.symm, hsip.symm, hproto, hsport.symm⟩⟩
    rw [h.tcp, h.udp, hown.pipe, rulePipe, hport]
    by_cases h6 : r.proto = 6
    · exact .inl (by simp [l4Flags, h6])
    · exact .inr (by simp [l4Flags, h6])

/-! ### The commands keep them in step -/

theorem inStep_boot (addr : ℕ → UInt64) (o : ℕ → Outcome) : InStep (boot addr o) := by
  have hone : ∀ (pipe : FlowQoSPipe) (o : Outcome) (hw : Hardware),
      pipe.match_pattern.flags = 0 → (∀ e ∈ hw.entries, e.pipe.match_pattern.flags = 0) →
      ∀ e ∈ (addEntry pipe 0 {} o hw).2.2.entries, e.pipe.match_pattern.flags = 0 := by
    intro pipe o hw hpipe hhw e he
    cases hok : o.ok with
    | true =>
      obtain ⟨x, -, -, hx, -, hxp, -⟩ := addEntry_ok pipe 0 {} hw hok
      rw [hx] at he
      rcases List.mem_append.1 he with he | he
      · exact hhw e he
      · rw [List.mem_singleton.1 he, hxp]
        exact hpipe
    | false =>
      rw [(addEntry_fail pipe 0 {} hw hok).2.1] at he
      exact hhw e he
  have hempty : ({} : Hardware).Fresh := fun e he => by cases he
  refine ⟨rfl, rfl, ?_, ?_, fun e he => .inl ?_, List.nodup_nil, 
    (hempty.addEntry _ _ _ _).addEntry _ _ _ _⟩
  · intro r hr
    cases hr
  · intro r hr
    cases hr
  · exact hone _ _ _ rfl (hone _ _ _ rfl (fun e he => by cases he)) e he

/-- The four cases of `flowQoS_firewall_add_rule` as one. -/
theorem InStep.addRule_eq (h : InStep s) (sip : UInt32) (sport : UInt16) (o : Outcome) :
    flowQoSFirewallAddRule direction proto sip sport true o s =
      let r := addEntry (rulePipe direction proto) 0
        { match_ := { src_ip := sip, src_port := sport } } o s.hw
      if r.1 ≠ 0 then
        (r.1, { fw_attr := { s.fw_attr with bucket :=
                  { direction := direction, proto := proto, sip := sip, sport := sport,
                    entry := r.2.1 } :: s.fw_attr.bucket }
                hw := r.2.2 })
      else (r.1, { s with hw := r.2.2 }) := by
  unfold flowQoSFirewallAddRule
  rw [if_neg (by decide), h.tcp, h.udp]
  cases direction with
  | INPUT =>
    by_cases h6 : proto = 6
    · simp only [if_pos h6, rulePipe, l4Flags]
      rfl
    · simp only [if_neg h6, rulePipe, l4Flags]
      rfl
  | OUTPUT =>
    by_cases h6 : proto = 6
    · simp only [if_pos h6, rulePipe, l4Flags]
      rfl
    · simp only [if_neg h6, rulePipe, l4Flags]
      rfl

theorem InStep.addRule (h : InStep s) (sip : UInt32) (sport : UInt16) (alloc : Bool) (o : Outcome) :
    InStep (flowQoSFirewallAddRule direction proto sip sport alloc o s).2 := by
  cases alloc with
  | false => exact h
  | true =>
    rw [h.addRule_eq]
    have hfresh : s.hw.Fresh := h.fresh
    let entry : FlowQoSEntry := { match_ := { src_ip := sip, src_port := sport } }
    cases hok : o.ok with
    | true =>
      obtain ⟨x, hret, hentry, hhw, hx, hpipe, hmatch, haction⟩ :=
        addEntry_ok (rulePipe direction proto) 0 entry s.hw hok
      have hone : (1 : ℤ) ≠ 0 := by decide
      simp only [entry] at hret hentry hhw
      simp only [hret, hhw, if_pos hone]
      obtain ⟨rule, hrule⟩ : ∃ rule : FirewallRule, rule = FirewallRule.mk direction proto sip sport
        (addEntry (rulePipe direction proto) 0 entry o s.hw).2.1 := ⟨_, rfl⟩
      have hown : rule.Owns x := by
        rw [hrule]
        exact ⟨hentry, hpipe, hmatch, haction⟩
      rw [← hrule]
      refine ⟨h.tcp, h.udp, ?_, ?_, ?_, ?_, ?_⟩
      · rintro r hr
        rcases List.mem_cons.1 hr with rfl | hr
        · rw [hrule]
          exact addEntry_match (rulePipe direction proto) 0 entry s.hw
        · exact h.match_ r hr
      · rintro r hr
        rcases List.mem_cons.1 hr with rfl | hr
        · exact ⟨x, by simp, hown⟩
        · obtain ⟨e, he, hr⟩ := h.rules r hr
          exact ⟨e, List.mem_append_left _ he, hr⟩
      · intro e he
        rcases List.mem_append.1 he with he | he
        · rcases h.entries e he with h0 | ⟨r, hr, hre⟩
          · exact .inl h0
          · exact .inr ⟨r, List.mem_cons_of_mem _ hr, hre⟩
        · rw [List.mem_singleton.1 he]
          exact .inr ⟨rule, List.mem_cons_self, hown⟩
      · refine List.nodup_cons.2 ⟨?_, h.nodup⟩
        intro hmem
        obtain ⟨r, hr, heq⟩ := List.mem_map.1 hmem
        obtain ⟨e, he, hre⟩ := h.rules r hr
        -- the handle of an older rule is in use, the new one is not
        have hlt := h.fresh e he
        have hhandle : some e.handle = some x.handle := by
          rw [← hre.handle, ← hown.handle]
          exact heq
        rw [Option.some.injEq, hx] at hhandle
        exact absurd hhandle (Nat.ne_of_lt hlt)
      · intro e he
        have hnext := hfresh.addEntry (rulePipe direction proto) 0 entry o
        rw [hhw] at hnext
        exact hnext e he
    | false =>
      obtain ⟨hret, hentries, hnext⟩ := addEntry_fail (rulePipe direction proto) 0 entry s.hw hok
      simp only [entry] at hret hentries
      simp only [hret, ne_eq, not_true_eq_false, if_false]
      refine ⟨h.tcp, h.udp, h.match_, ?_, ?_, h.nodup, hfresh.addEntry _ _ _ _⟩
      · simp only [hentries]
        exact h.rules
      · simp only [hentries]
        exact h.entries

/-- What the loop deletes: one rule, and the entry of its handle. -/
theorem delLoop_some {rule_id : ℤ} {ok : Bool} {hw hw' : Hardware} {rules' : List FirewallRule} :
    ∀ {idx : ℤ} {rules : List FirewallRule}, delLoop rule_id ok hw idx rules = some (rules', hw') →
      ∃ pre rule post, rules = pre ++ rule :: post ∧ rules' = pre ++ post ∧
        hw.rmEntry rule.entry.entry ok = some hw' := by
  intro idx rules
  induction rules generalizing idx rules' with
  | nil =>
    intro h
    cases h
  | cons rule rules ih =>
    intro h
    unfold delLoop at h
    by_cases hidx : idx = rule_id
    · rw [if_pos hidx] at h
      cases hrm : hw.rmEntry rule.entry.entry ok with
      | none =>
        rw [hrm] at h
        cases h
      | some hw₁ =>
        rw [hrm] at h
        cases h
        exact ⟨[], rule, rules, rfl, rfl, hrm⟩
    · rw [if_neg hidx] at h
      obtain ⟨⟨rules₁, hw₁⟩, hloop, heq⟩ := Option.map_eq_some_iff.1 h
      cases heq
      obtain ⟨pre, r, post, rfl, rfl, hrm⟩ := ih hloop
      exact ⟨rule :: pre, r, post, rfl, rfl, hrm⟩

theorem InStep.delRule (h : InStep s) (rule_id : ℤ) (ok : Bool) :
    InStep (flowQoSFirewallDelRule rule_id ok s) := by
  unfold flowQoSFirewallDelRule
  cases hloop : delLoop rule_id ok s.hw 0 s.fw_attr.bucket with
  | none => exact h
  | some r =>
    obtain ⟨rules, hw⟩ := r
    obtain ⟨pre, rule, post, hbucket, rfl, hrm⟩ := delLoop_some hloop
    obtain ⟨y, hy, -, rfl⟩ := rmEntry_some hrm
    have hsub : ∀ r, r ∈ pre ++ post → r ∈ s.fw_attr.bucket := by
      intro r hr
      rw [hbucket]
      exact (List.sublist_append_right [rule] post).append_left pre |>.subset hr
    have hnd := h.nodup
    rw [hbucket, List.map_append, List.map_cons, List.nodup_middle, List.nodup_cons,
      ← List.map_append] at hnd
    -- another rule does not have the handle that is removed
    have hother : ∀ r ∈ pre ++ post, ∀ e, r.Owns e → e.handle ≠ y := by
      rintro r hr e hown rfl
      refine hnd.1 (List.mem_map.2 ⟨r, hr, ?_⟩)
      rw [hown.handle, hy]
    refine ⟨h.tcp, h.udp, fun r hr => h.match_ r (hsub r hr), fun r hr => ?_, fun e he => ?_, hnd.2,
      fun e he => h.fresh e (List.mem_filter.1 he).1⟩
    · obtain ⟨e, he, hown⟩ := h.rules r (hsub r hr)
      exact ⟨e, List.mem_filter.2 ⟨he, by simpa using hother r hr e hown⟩, hown⟩
    · obtain ⟨he, hne⟩ := List.mem_filter.1 he
      rcases h.entries e he with h0 | ⟨r, hr, hown⟩
      · exact .inl h0
      · refine .inr ⟨r, ?_, hown⟩
        rw [hbucket] at hr
        rcases List.mem_append.1 hr with hr | hr
        · exact List.mem_append_left _ hr
        · rcases List.mem_cons.1 hr with rfl | hr
          · rw [hown.handle, Option.some.injEq] at hy
            exact absurd hy (by simpa using hne)
          · exact List.mem_append_right _ hr

/-- Every sequence of commands leaves the rules and the entries in step. -/
theorem inStep_run (addr : ℕ → UInt64) (o : ℕ → Outcome) (calls : List FirewallCall) :
    InStep (runFirewall addr o calls) := by
  have hrun : ∀ (calls : List FirewallCall) (s : FirewallState), InStep s →
      InStep (calls.foldl FirewallCall.run s) := by
    intro calls
    induction calls with
    | nil => exact fun s h => h
    | cons c calls ih =>
      intro s h
      rw [List.foldl_cons]
      apply ih
      cases c with
      | add direction proto sip sport alloc o => exact h.addRule sip sport alloc o
      | del rule_id ok => exact h.delRule rule_id ok
  exact hrun calls _ (inStep_boot addr o)

/-! ### The verdict -/

/-- The drop pipes of a port hold the rules of the other direction. -/
theorem InStep.dropped_iff_listed (h : InStep s) (hport : m.port = direction.port) :
    Dropped s m ↔ Listed s direction m := by
  rw [h.dropped_iff, h.listed_iff]
  constructor
  · rintro ⟨r, hr, hp, hrest⟩
    refine ⟨r, hr, ?_, hrest⟩
    rw [hport] at hp
    cases hd : r.direction <;> cases direction <;> simp_all [TrafficDirection.port, PORT_TO_HOST,
      PORT_TO_NET]
  · rintro ⟨r, hr, rfl, hrest⟩
    exact ⟨r, hr, hport.symm, hrest⟩

/-- **When a packet gets its verdict**: exactly when a rule of one direction describes it if and only
if a rule of the other does. -/
theorem run_verdict_iff (addr : ℕ → UInt64) (o : ℕ → Outcome) (calls : List FirewallCall) (m : Packet)
    (hport : m.port = PORT_TO_NET ∨ m.port = PORT_TO_HOST) :
    Verdict (runFirewall addr o calls) m ↔
      (Listed (runFirewall addr o calls) .INPUT m ↔ Listed (runFirewall addr o calls) .OUTPUT m) := by
  have h := inStep_run addr o calls
  unfold Verdict
  rcases hport with hp | hp
  · have hd : Dropped (runFirewall addr o calls) m ↔ Listed (runFirewall addr o calls) .OUTPUT m :=
      h.dropped_iff_listed hp
    have hne : m.port ≠ PORT_TO_HOST := by
      rw [hp]
      decide
    constructor
    · rintro ⟨hin, -⟩
      exact (hin hp).symm.trans hd
    · intro hiff
      exact ⟨fun _ => hd.trans hiff.symm, fun hh => absurd hh hne⟩
  · have hd : Dropped (runFirewall addr o calls) m ↔ Listed (runFirewall addr o calls) .INPUT m :=
      h.dropped_iff_listed hp
    have hne : m.port ≠ PORT_TO_NET := by
      rw [hp]
      decide
    constructor
    · rintro ⟨-, hout⟩
      exact hd.symm.trans (hout hp)
    · intro hiff
      exact ⟨fun hh => absurd hh hne, fun _ => hd.trans hiff⟩

/-- A TCP packet of 192.168.201.1, port 5001, that the port receives. -/
def tcpPacket (port : ℕ) : Packet where
  port := port
  src_mac := 0
  dst_mac := 0
  src_ip := 0x01c9a8c0
  dst_ip := 0
  proto := 6
  ttl := 64
  src_port := 0x8913
  dst_port := 80

/-- The command that adds a rule for the packet. -/
def addTcpRule (direction : TrafficDirection) : FirewallCall :=
  .add direction 6 0x01c9a8c0 0x8913 true ⟨true, 1⟩

/-- With a rule in each direction. -/
theorem run_verdict_iff_both :
    Verdict (runFirewall (fun _ => 0) (fun _ => ⟨true, 1⟩) [addTcpRule .INPUT, addTcpRule .OUTPUT])
      (tcpPacket PORT_TO_NET) := by
  refine (run_verdict_iff _ _ _ _ (.inl rfl)).2 ⟨fun _ => ?_, fun _ => ?_⟩
  · exact ⟨⟨0, .OUTPUT, .TCP, some 0x01c9a8c0, some 0x8913⟩, by decide, rfl, rfl, rfl, rfl⟩
  · exact ⟨⟨1, .INPUT, .TCP, some 0x01c9a8c0, some 0x8913⟩, by decide, rfl, rfl, rfl, rfl⟩

/-- With an `INPUT` rule alone, the packets it names pass when they come from the network, and are
dropped when they come from the host. -/
theorem input_rule_drops_output :
    ¬ Verdict (runFirewall (fun _ => 0) (fun _ => ⟨true, 1⟩) [addTcpRule .INPUT])
        (tcpPacket PORT_TO_NET) ∧
      ¬ Verdict (runFirewall (fun _ => 0) (fun _ => ⟨true, 1⟩) [addTcpRule .INPUT])
        (tcpPacket PORT_TO_HOST) := by
  have h := inStep_run (fun _ => 0) (fun _ => ⟨true, 1⟩) [addTcpRule .INPUT]
  have hrules : flowQoSFirewallPrintRules (runFirewall (fun _ => 0) (fun _ => ⟨true, 1⟩)
      [addTcpRule .INPUT]) = [⟨0, .INPUT, .TCP, some 0x01c9a8c0, some 0x8913⟩] := by
    decide +kernel
  have hin : ∀ port, Listed (runFirewall (fun _ => 0) (fun _ => ⟨true, 1⟩) [addTcpRule .INPUT])
      .INPUT (tcpPacket port) := by
    intro port
    refine ⟨⟨0, .INPUT, .TCP, some 0x01c9a8c0, some 0x8913⟩, ?_, rfl, rfl, rfl, rfl⟩
    rw [hrules]
    exact List.mem_singleton.2 rfl
  have hout : ∀ m, ¬ Listed (runFirewall (fun _ => 0) (fun _ => ⟨true, 1⟩) [addTcpRule .INPUT])
      .OUTPUT m := by
    rintro m ⟨r, hr, hdir, -⟩
    rw [hrules] at hr
    rw [List.mem_singleton.1 hr] at hdir
    cases hdir
  constructor
  · rintro ⟨hnet, -⟩
    have hdrop := (hnet rfl).2 (hin _)
    exact hout _ ((h.dropped_iff_listed rfl).1 hdrop)
  · rintro ⟨-, hhost⟩
    have hdrop := (h.dropped_iff_listed rfl).2 (hin PORT_TO_HOST)
    exact hout _ ((hhost rfl).1 hdrop)

end FlowQoS.Firewall
