import FlowQoS.Apps.LoadBalancingStats
import FlowQoS.Conntrack.Affinity
import FlowQoS.Pipe.Format

/-!
# The way back of the load balancer

`LB_load_params` gives every core the table of the virtual servers, and the hardware one entry for each of their
real servers, which turns the answers of the real server into answers of the virtual one. The two are built from
one list but know nothing of each other. Where no two virtual servers of a protocol share a real server
(`Apart`), every connection is undone: whatever the load balancer has made of a packet, the answer to it gets the
address and port that the client has asked for (`run_undone`).
-/

namespace FlowQoS.LoadBalancing

open Pipe Conntrack Lib

/-- An element of the array `services`. -/
abbrev VirtualServer := ServiceKey × Service

/-! ### Loading the parameters -/

/-- `load_params_to_st`, where the hash table takes every key. -/
def loadParamsToSt (services : List VirtualServer) : LbAttr where
  st := services.foldl (fun st s => Function.update st s.1 (some s.2)) fun _ => none
  cc := 0

def tcpMatchFlags : UInt64 := SIP ||| SPORT ||| TCP
def udpMatchFlags : UInt64 := SIP ||| SPORT ||| UDP
def downStreamFlags : UInt64 := SIP ||| SPORT ||| TTL_DECREASE ||| SMAC ||| DMAC

/-- `TCP_DownStreamPIPE` or `UDP_DownStreamPIPE`, as `LB_init` builds them. -/
def downStreamPipe (proto : UInt16) : FlowQoSPipe :=
  buildPipe LAN_PORT_ID (if proto = 6 then tcpMatchFlags else udpMatchFlags) downStreamFlags

/-- The entry for a real server; `localMac` is the MAC of the port to the WAN. -/
def downStreamEntry (localMac wanMac : EtherAddr) (s : VirtualServer) (j : ℕ) : FlowQoSEntry where
  match_ :=
    { flags := if s.1.proto = 6 then tcpMatchFlags else udpMatchFlags
      src_ip := s.2.rip j
      src_port := (s.2.rport j).toUInt16 }
  action :=
    { flags := downStreamFlags
      src_ip := s.1.dip
      src_port := s.1.dport
      src_mac := localMac
      dst_mac := wanMac }
  pipe := some (downStreamPipe s.1.proto)

/-- The loops of `LB_load_params` over the services and their real servers, where every entry is inserted. -/
def downStream (localMac wanMac : EtherAddr) (services : List VirtualServer) : List FlowQoSEntry :=
  services.flatMap fun s =>
    (List.range s.2.totalRealServers.toNat).map (downStreamEntry localMac wanMac s)

/-- Virtual servers of one protocol that have a real server in common have the same address and port. -/
def Apart (services : List VirtualServer) : Prop :=
  ∀ s ∈ services, ∀ s' ∈ services, (s.1.proto = 6 ↔ s'.1.proto = 6) →
    ∀ j < s.2.totalRealServers.toNat, ∀ j' < s'.2.totalRealServers.toNat, s.2.rip j = s'.2.rip j' →
      (s.2.rport j).toUInt16 = (s'.2.rport j').toUInt16 → s.1.dip = s'.1.dip ∧ s.1.dport = s'.1.dport

instance (services : List VirtualServer) : Decidable (Apart services) := by
  unfold Apart; infer_instance

/-! ### The table -/

/-- The part of a virtual server that does not change. -/
def SameServers (ser ser' : Service) : Prop :=
  ser'.totalRealServers = ser.totalRealServers ∧ ser'.rip = ser.rip ∧ ser'.rport = ser.rport

/-- The table has the virtual servers of the list. -/
def Listed (services : List VirtualServer) (attr : LbAttr) : Prop :=
  ∀ key ser, attr.st key = some ser → ∃ s ∈ services, s.1 = key ∧ SameServers s.2 ser

/-- The connection goes to a real server of its virtual server. -/
def Balanced (services : List VirtualServer) (l : Label) : Prop :=
  ∃ s ∈ services, s.1 = keyOf l.1 ∧ ∃ j < s.2.totalRealServers.toNat,
    l.2.dst_ip = s.2.rip j ∧ l.2.dst_port = (s.2.rport j).toUInt16

variable {services : List VirtualServer} {attr attr' : LbAttr} {env : LbEnv} {e e' : FlowQoSEntry} {ret : ℤ}

theorem listed_load (services : List VirtualServer) : Listed services (loadParamsToSt services) := by
  have key : ∀ (done rest : List VirtualServer) (st : ServiceKey → Option Service), Listed done ⟨st, 0⟩ →
      Listed (done ++ rest) ⟨rest.foldl (fun st s => Function.update st s.1 (some s.2)) st, 0⟩ := by
    intro done rest
    induction rest generalizing done with
    | nil =>
      intro st h
      rwa [List.append_nil]
    | cons s rest ih =>
      intro st h
      have hstep : Listed (done ++ [s]) ⟨Function.update st s.1 (some s.2), 0⟩ := by
        intro key ser hser
        change Function.update st s.1 (some s.2) key = some ser at hser
        rw [Function.update_apply] at hser
        split at hser
        · next hkey =>
          cases hser
          exact ⟨s, List.mem_append_right _ List.mem_cons_self, hkey.symm, rfl, rfl, rfl⟩
        · obtain ⟨s', hs', hrest⟩ := h key ser hser
          exact ⟨s', List.mem_append_left _ hs', hrest⟩
      have hrest := ih (done ++ [s]) (Function.update st s.1 (some s.2)) hstep
      rwa [List.append_assoc] at hrest
  exact key [] services (fun _ => none) fun key ser hser => by cases hser

/-- A virtual server whose counters have changed is still one of the list. -/
theorem Listed.update (h : Listed services attr) {key : ServiceKey} {ser ser' : Service}
    (hser : attr.st key = some ser) (hsame : SameServers ser ser') (cc : UInt64) :
    Listed services ⟨Function.update attr.st key (some ser'), cc⟩ := by
  intro key' ser₁ hser₁
  change Function.update attr.st key (some ser') key' = some ser₁ at hser₁
  rw [Function.update_apply] at hser₁
  split at hser₁
  · next hkey =>
    cases hser₁
    subst hkey
    obtain ⟨s, hs, hkey', hsame'⟩ := h _ ser hser
    exact ⟨s, hs, hkey', hsame.1.trans hsame'.1, hsame.2.1.trans hsame'.2.1, hsame.2.2.trans hsame'.2.2⟩
  · exact h key' ser₁ hser₁

/-- `newConn_handler` gives the connections that it accepts a real server of their virtual server. -/
theorem Listed.newConn (h : Listed services attr) (hrun : newConnHandler env e attr = .ok (ret, e', attr')) :
    Listed services attr' ∧ (0 ≤ ret → Balanced services (label e')) := by
  have hignore : ¬ 0 ≤ ignorePackets := by decide
  unfold newConnHandler at hrun
  split at hrun
  · cases hrun
  · split at hrun
    · simp only at hrun
      split at hrun
      · cases hrun
        exact ⟨h, fun h0 => absurd h0 hignore⟩
      · next ser hser =>
        split at hrun
        · cases hrun
        · next hpos =>
          split at hrun
          · cases hrun
            refine ⟨h.update hser ?_ _, fun _ => ?_⟩
            · exact ⟨rfl, rfl, rfl⟩
            obtain ⟨s, hs, hkey, htotal, hrip, hrport⟩ := h _ ser hser
            refine ⟨s, hs, hkey, (ser.totalConnections % ser.totalRealServers).toNat, ?_, ?_, ?_⟩
            · rw [← htotal, UInt32.toNat_mod]
              refine Nat.mod_lt _ (Nat.pos_of_ne_zero fun h0 => hpos ?_)
              exact UInt32.toNat_inj.1 h0
            · rw [← hrip]
              rfl
            · rw [← hrport]
              rfl
          · cases hrun
            refine ⟨h.update hser ?_ _, fun h0 => absurd h0 hignore⟩
            exact ⟨rfl, rfl, rfl⟩
    · cases hrun
      exact ⟨h, fun h0 => absurd h0 hignore⟩

theorem Listed.aging (h : Listed services attr) (hrun : agingConnHandler e attr = .ok attr') :
    Listed services attr' := by
  unfold agingConnHandler at hrun
  simp only at hrun
  split at hrun
  · cases hrun
    exact h
  · next ser hser =>
    cases hrun
    refine h.update hser ?_ _
    exact ⟨rfl, rfl, rfl⟩

/-- The connections that are held go to real servers. -/
structure BalancedInv (services : List VirtualServer) (a : Account LbAttr) : Prop where
  listed : Listed services a.app
  held : ∀ l ∈ a.held, Balanced services l

/-- **A call of a handler.** -/
theorem BalancedInv.dealing {n GAP : ℕ} {G : LbEnv → FlowQoSEntry → LbAttr → Prop} {conf : ConnAttr}
    {a a' : Account LbAttr} (h : BalancedInv services a) (hd : Dealing (balancing n GAP) G conf a a') :
    BalancedInv services a' := by
  cases hd with
  | refuse _ _ hf _ hr _ =>
    cases hf
    exact ⟨(h.listed.newConn hr).1, h.held⟩
  | accept _ _ hf _ hr hret =>
    cases hf
    obtain ⟨hlisted, hnew⟩ := h.listed.newConn hr
    refine ⟨hlisted, fun l hl => ?_⟩
    rcases Multiset.mem_cons.1 hl with rfl | hl
    · exact hnew hret
    · exact h.held l hl
  | @finish e app _ haging =>
    exact ⟨h.listed.aging (show agingConnHandler e a.app = .ok app from haging),
      fun l hl => h.held l (Multiset.mem_of_mem_erase hl)⟩

/-- The connections in use go to real servers, in every run. -/
theorem run_balanced (a : InitArgs) (GAP : ℕ) (services : List VirtualServer) {es : List (Event LbAttr LbEnv)}
    {w : World LbAttr} (hr : RunsWhile (balancing a.maxConntrack GAP) (Outside fun _ _ _ => True)
      (boot a lbPorts (loadParamsToSt services)) es w) {c : CtxId}
    (hc : Alive (balancing a.maxConntrack GAP) w.2 c) : Balanced services (label (w.2.ctx c).entry) := by
  obtain ⟨lost, hcalls, -⟩ := run_dealings (balancing a.maxConntrack GAP) (fun _ _ _ => True) rfl lbPorts
    (loadParamsToSt services) (.inl keepsAll_balancing) (attaches_boot a _ (by decide)) hr
  have hinv : BalancedInv services ⟨w.2.app, labels (balancing a.maxConntrack GAP) w.2 + lost⟩ := by
    refine Relation.ReflTransGen.head_induction_on (motive := fun b _ => BalancedInv services b →
      BalancedInv services _) hcalls (fun h => h) (fun hd _ ih h => ih (h.dealing hd)) ⟨listed_load services,
      fun l hl => absurd hl (Multiset.notMem_zero l)⟩
  refine hinv.held _ (Multiset.mem_add.2 (.inl ?_))
  unfold labels
  exact Multiset.mem_map_of_mem _ (mem_inUse.2 hc)

/-! ### The way back -/

section Return

variable {localMac wanMac : EtherAddr} {s : VirtualServer} {j : ℕ} {p : Packet} {matched unmatched : UInt64}

theorem mem_downStream : e ∈ downStream localMac wanMac services ↔
    ∃ s ∈ services, ∃ j < s.2.totalRealServers.toNat, downStreamEntry localMac wanMac s j = e := by
  unfold downStream
  simp only [List.mem_flatMap, List.mem_map, List.mem_range]

/-- **What hits an entry** of the way back is what its real server has sent. -/
theorem downStream_hits : (docaPipe (downStreamPipe s.1.proto) matched unmatched).Hits
      (docaEntry (downStreamEntry localMac wanMac s j)) p ↔
    p.port = LAN_PORT_ID ∧ p.src_ip = s.2.rip j ∧
      p.proto = (if s.1.proto = 6 then DOCA_PROTO_TCP else DOCA_PROTO_UDP) ∧
      p.src_port = (s.2.rport j).toUInt16 := by
  rw [hits_iff rfl]
  unfold downStreamEntry downStreamPipe buildPipe
  by_cases hproto : s.1.proto = 6
  · have hsip : tcpMatchFlags &&& SIP ≠ 0 := by decide
    have hdip : tcpMatchFlags &&& DIP = 0 := by decide
    have hudp : tcpMatchFlags &&& UDP = 0 := by decide
    have htcp : tcpMatchFlags &&& TCP ≠ 0 := by decide
    have hsport : tcpMatchFlags &&& SPORT ≠ 0 := by decide
    have hdport : tcpMatchFlags &&& DPORT = 0 := by decide
    simp [hproto, hsip, hdip, hudp, htcp, hsport, hdport]
  · have hsip : udpMatchFlags &&& SIP ≠ 0 := by decide
    have hdip : udpMatchFlags &&& DIP = 0 := by decide
    have hudp : udpMatchFlags &&& UDP ≠ 0 := by decide
    have hsport : udpMatchFlags &&& SPORT ≠ 0 := by decide
    have hdport : udpMatchFlags &&& DPORT = 0 := by decide
    simp [hproto, hsip, hdip, hudp, hsport, hdport]

/-- It becomes what the virtual server sends. -/
theorem downStream_apply : (docaPipe (downStreamPipe s.1.proto) matched unmatched).apply
      (docaEntry (downStreamEntry localMac wanMac s j)) p =
    { p with
      src_mac := localMac
      dst_mac := wanMac
      src_ip := s.1.dip
      ttl := p.ttl - 1
      src_port := s.1.dport } := by
  have hsmac : downStreamFlags &&& SMAC ≠ 0 := by decide
  have hdmac : downStreamFlags &&& DMAC ≠ 0 := by decide
  have hsip : downStreamFlags &&& SIP ≠ 0 := by decide
  have hdip : downStreamFlags &&& DIP = 0 := by decide
  have httl : downStreamFlags &&& TTL_DECREASE ≠ 0 := by decide
  have hsport : downStreamFlags &&& SPORT ≠ 0 := by decide
  have hdport : downStreamFlags &&& DPORT = 0 := by decide
  have hflags : (downStreamEntry localMac wanMac s j).action.flags =
      (downStreamPipe s.1.proto).action_pattern.flags := rfl
  have haging : 0 < agingTime (downStreamEntry localMac wanMac s j).expireTime := by
    show 0 < agingTime 0
    decide
  rw [apply_eq hflags haging, show (downStreamEntry localMac wanMac s j).action.flags = downStreamFlags from rfl,
    if_pos hsmac, if_pos hdmac, if_pos hsip, if_neg (not_not.2 hdip), if_pos httl, if_pos hsport,
    if_neg (not_not.2 hdport)]
  rfl

end Return

/-- The second packet is an answer to the first one. -/
structure AnswerTo (m : Mbuf) (p : Packet) : Prop where
  proto : p.proto = m.next_proto_id
  src_ip : p.src_ip = m.dst_addr
  src_port : p.src_port = m.dport
  dst_ip : p.dst_ip = m.src_addr
  dst_port : p.dst_port = m.sport

/-- **The answers of a real server** hit the way back, and all that they can hit makes them answers of the
virtual server. -/
theorem Balanced.answered (hapart : Apart services) {k : FlowQoSMatch} {m m' : Mbuf} {action : FlowQoSAction}
    (h : Balanced services (k, action)) (hl4 : k.proto = L4_TCP ∨ k.proto = L4_UDP) (htuple : SameTuple m k)
    (hproto : m'.next_proto_id = m.next_proto_id) (hsrc : m'.src_addr = m.src_addr ∧ m'.sport = m.sport)
    (hdst : m'.dst_addr = action.dst_ip ∧ m'.dport = action.dst_port) (localMac wanMac : EtherAddr)
    (rss : UInt64) {p : Packet} (hport : p.port = LAN_PORT_ID) (hp : AnswerTo m' p) :
    (∃ e ∈ downStream localMac wanMac services, ∃ pipe, e.pipe = some pipe ∧
      (docaPipe pipe PORT rss).Hits (docaEntry e) p) ∧
    ∀ e ∈ downStream localMac wanMac services, ∀ pipe, e.pipe = some pipe →
      (docaPipe pipe PORT rss).Hits (docaEntry e) p →
        (docaPipe pipe PORT rss).fwd = .DOCA_FLOW_FWD_PORT WAN_PORT_ID ∧
        AnswerTo m ((docaPipe pipe PORT rss).apply (docaEntry e) p) := by
  obtain ⟨s, hs, hkey, j, hj, hip, hdport⟩ := h
  change s.1 = keyOf k at hkey
  change action.dst_ip = s.2.rip j at hip
  change action.dst_port = (s.2.rport j).toUInt16 at hdport
  have hsproto : p.proto = if s.1.proto = 6 then DOCA_PROTO_TCP else DOCA_PROTO_UDP := by
    rw [hp.proto, hproto, htuple.proto, hkey]
    unfold keyOf
    rcases hl4 with htcp | hudp
    · rw [htcp]
      rfl
    · rw [hudp]
      rfl
  have hsip : p.src_ip = s.2.rip j := by rw [hp.src_ip, hdst.1, hip]
  have hsport : p.src_port = (s.2.rport j).toUInt16 := by rw [hp.src_port, hdst.2, hdport]
  refine ⟨⟨_, mem_downStream.2 ⟨s, hs, j, hj, rfl⟩, _, rfl,
    downStream_hits.2 ⟨hport, hsip, hsproto, hsport⟩⟩, fun e he pipe hpipe hhits => ?_⟩
  obtain ⟨s', hs', j', hj', rfl⟩ := mem_downStream.1 he
  cases hpipe
  obtain ⟨-, hsip', hsproto', hsport'⟩ := downStream_hits.1 hhits
  -- the entry is that of a virtual server of the same protocol
  have hsame : s.1.proto = 6 ↔ s'.1.proto = 6 := by
    rw [hsproto] at hsproto'
    by_cases hsix : s.1.proto = 6 <;> by_cases hsix' : s'.1.proto = 6
    · simp [hsix, hsix']
    · simp [hsix, hsix', DOCA_PROTO_TCP, DOCA_PROTO_UDP] at hsproto'
    · simp [hsix, hsix', DOCA_PROTO_TCP, DOCA_PROTO_UDP] at hsproto'
    · simp [hsix, hsix']
  obtain ⟨hdip, hport'⟩ := hapart s hs s' hs' hsame j hj j' hj' (hsip.symm.trans hsip') (hsport.symm.trans hsport')
  rw [downStream_apply]
  refine ⟨?_, ?_, ?_, ?_, ?_, ?_⟩
  · show fwdAdapter PORT LAN_PORT_ID = .DOCA_FLOW_FWD_PORT WAN_PORT_ID
    decide
  · exact hp.proto.trans hproto
  · show s'.1.dip = m.dst_addr
    rw [← hdip, hkey, htuple.dst_ip]
    rfl
  · show s'.1.dport = m.dport
    rw [← hport', hkey, htuple.dst_port]
    rfl
  · exact hp.dst_ip.trans hsrc.1
  · exact hp.dst_port.trans hsrc.2

/-- A packet of a connection is changed in its destination only. -/
theorem rewrite_balanced {x : ConnContext}
    (hflags : x.entry.action.flags = DPORT ||| DIP ||| SMAC ||| TTL_DECREASE ||| DMAC ||| AGING) (m : Mbuf) :
    (rewrite m x).next_proto_id = m.next_proto_id ∧
      ((rewrite m x).src_addr = m.src_addr ∧ (rewrite m x).sport = m.sport) ∧
      (rewrite m x).dst_addr = x.entry.action.dst_ip ∧ (rewrite m x).dport = x.entry.action.dst_port := by
  have hsip : ¬ x.entry.action.flags &&& SIP ≠ 0 := by
    rw [hflags]
    decide
  have hsport : ¬ x.entry.action.flags &&& SPORT ≠ 0 := by
    rw [hflags]
    decide
  have hdip : x.entry.action.flags &&& DIP ≠ 0 := by
    rw [hflags]
    decide
  have hdport : x.entry.action.flags &&& DPORT ≠ 0 := by
    rw [hflags]
    decide
  have hheader := rewrite_header m x
  rw [if_neg hsip, if_pos hdip, if_neg hsport, if_pos hdport] at hheader
  exact ⟨congrArg Packet.proto hheader, ⟨congrArg Packet.src_ip hheader, congrArg Packet.src_port hheader⟩,
    congrArg Packet.dst_ip hheader, congrArg Packet.dst_port hheader⟩

/-- **Every connection is undone.** In every run of the load balancer on a core, for a packet that is forwarded:
it leaves to a real server of the virtual server it has asked for, where the hardware sends the packets of the
connection, too. Whatever answers that real server gives it, the hardware hits an entry of the way back, and
the answer that leaves to the WAN is one to the packet as the client has sent it. -/
theorem run_undone (a : InitArgs) (GAP : ℕ) (services : List VirtualServer) (hapart : Apart services)
    {es : List (Event LbAttr LbEnv)} {w w' : World LbAttr}
    (hr : RunsWhile (balancing a.maxConntrack GAP) (Outside fun _ _ _ => True)
      (boot a lbPorts (loadParamsToSt services)) es w) {m : Mbuf} {x : PacketEnv LbEnv} {v : Verdict} {c : CtxId}
    (h : Processes (balancing a.maxConntrack GAP) w m x v w') (hv : v.ctx = some c)
    (localMac wanMac : EtherAddr) (rss : UInt64) :
    (v.action = LAN_PORT_ID ∧
      (∃ s ∈ services, s.1 = ⟨m.dport, m.next_proto_id.toUInt16, m.dst_addr⟩ ∧
        ∃ j < s.2.totalRealServers.toNat, v.m.dst_addr = s.2.rip j ∧ v.m.dport = (s.2.rport j).toUInt16) ∧
      ∀ y ∈ w'.2.hw.entries, y.user_data = some c →
        y.action.dst_ip = v.m.dst_addr ∧ y.action.dst_port = v.m.dport) ∧
    ∀ p : Packet, p.port = LAN_PORT_ID → AnswerTo v.m p →
      (∃ e ∈ downStream localMac wanMac services, ∃ pipe, e.pipe = some pipe ∧
        (docaPipe pipe PORT rss).Hits (docaEntry e) p) ∧
      ∀ e ∈ downStream localMac wanMac services, ∀ pipe, e.pipe = some pipe →
        (docaPipe pipe PORT rss).Hits (docaEntry e) p →
          (docaPipe pipe PORT rss).fwd = .DOCA_FLOW_FWD_PORT WAN_PORT_ID ∧
          AnswerTo m ((docaPipe pipe PORT rss).apply (docaEntry e) p) := by
  have hok : HandlerOk (balancing a.maxConntrack GAP) (boot a lbPorts (loadParamsToSt services)).2.attr :=
    .inl keepsAll_balancing
  have hout : Outside (fun _ _ _ => True) w (.packet m x) := fun _ _ _ => trivial
  have hr' := hr.append (.single ⟨hout, h.steps⟩)
  have hboot : WorldInv (balancing a.maxConntrack GAP) (boot a lbPorts (loadParamsToSt services)) :=
    worldInv_boot rfl lbPorts _ hok
  obtain ⟨hw, -⟩ := Runs.moves hboot (hr.mono fun _ _ _ hs => hs.2)
  obtain ⟨hw', hmoves⟩ := Runs.moves hboot (hr'.mono fun _ _ _ hs => hs.2)
  have hmirrors := run_mirrors rfl hok (attaches_boot a _ (by decide)) (hr'.mono fun _ _ _ hs => hs.2)
  obtain ⟨k, ⟨hen, e, hparse, rfl⟩, hk, hm, hact⟩ := h.rewrites hw hv
  obtain ⟨hc, hmatch⟩ := hw'.inv.table.table hk
  have hmatch' : (w'.2.ctx c).entry.match_ = e.match_ := hmatch
  have hbal := run_balanced a GAP services hr' hc
  change Balanced services ((w'.2.ctx c).entry.match_, (w'.2.ctx c).entry.action) at hbal
  rw [hmatch'] at hbal
  have htuple := sameTuple_parsed hparse
  have hl4 : e.match_.proto = L4_TCP ∨ e.match_.proto = L4_UDP :=
    (packetParser_l4 hparse).imp And.left And.left
  -- the port and the flags are those that the application has set up
  obtain ⟨hport, hflags⟩ : (w'.2.conns c).port = WAN_PORT_ID ∧
      (w'.2.ctx c).entry.action.flags = DPORT ||| DIP ||| SMAC ||| TTL_DECREASE ||| DMAC ||| AGING := by
    have hmade := hw'.inv.table.made hc
    have hsame : SameConfig (boot a lbPorts (loadParamsToSt services)).2.attr w'.2.attr :=
      Moves.sameConfig hmoves
    have hen' : w'.2.attr.PORT_CT_ENABLED (w'.2.conns c).port := hmade.enabled
    rw [hsame.PORT_CT_ENABLED] at hen'
    have hmem := boot_ports a lbPorts (loadParamsToSt services) hen'
    unfold lbPorts at hmem
    rw [List.mem_singleton, Prod.mk.injEq] at hmem
    refine ⟨hmem.1, ?_⟩
    have hfl : (w'.2.ctx c).entry.action.flags = w'.2.attr.ActionFlags (w'.2.conns c).port := hmade.flags
    rw [hfl, hsame.ActionFlags]
    exact hmem.2
  obtain ⟨hproto, hsrc, hdst⟩ := rewrite_balanced hflags m
  rw [← hm] at hproto hsrc hdst
  refine ⟨⟨?_, ?_, fun y hy hu => ?_⟩, fun p hp hans =>
    hbal.answered hapart hl4 htuple hproto hsrc hdst localMac wanMac rss hp hans⟩
  · rw [hact, hport]
    rfl
  · obtain ⟨s, hs, hkey, j, hj, hip, hdport⟩ := hbal
    refine ⟨s, hs, ?_, j, hj, hdst.1.trans hip, hdst.2.trans hdport⟩
    rw [hkey, htuple.dst_port, htuple.proto, htuple.dst_ip]
    rfl
  · obtain ⟨-, haction, -⟩ := hmirrors y hy c hu
    rw [haction]
    exact ⟨hdst.1.symm, hdst.2.symm⟩

/-! ### The services of the application -/

/-- An element of `services` as `LB_load_params` writes it: 192.168.201.2, behind it 192.168.200.102 and
192.168.200.103, with one port for all. -/
def virtualServer (proto port : UInt16) : VirtualServer :=
  (⟨beToCpu16 port, proto, beToCpu32 0xc0a8c902⟩,
    { totalRealServers := 2
      totalConnections := 0
      flowStats _ := 0
      rip r := if r = 0 then beToCpu32 0xc0a8c866 else if r = 1 then beToCpu32 0xc0a8c867 else 0
      rport r := if r < 2 then (beToCpu16 port).toUInt32 else 0 })

def threeServices : List VirtualServer := [virtualServer 6 80, virtualServer 17 5001, virtualServer 6 5001]

/-- The answer of the second real server to `webPacket 2`. -/
def webAnswer : Packet where
  port := LAN_PORT_ID
  src_mac := 4
  dst_mac := 3
  src_ip := beToCpu32 0xc0a8c867
  dst_ip := 1
  proto := L4_TCP
  ttl := 64
  src_port := beToCpu16 80
  dst_port := 2

/-- The second connection to the web server goes to the second real server, whose answer comes back as one of
the web server. -/
theorem run_undone_second : ∃ v : Verdict, v.action = LAN_PORT_ID ∧ AnswerTo v.m webAnswer ∧
    ∃ e ∈ downStream 1 2 threeServices, ∃ pipe, e.pipe = some pipe ∧
      (docaPipe pipe PORT 0).Hits (docaEntry e) webAnswer ∧
      AnswerTo (webPacket 2) ((docaPipe pipe PORT 0).apply (docaEntry e) webAnswer) := by
  have hapart : Apart threeServices := by decide +kernel
  obtain ⟨w, w', v, hr, h, hv, hans⟩ : ∃ w w' v,
      RunsWhile (balancing oneEntry.maxConntrack 1000) (Outside fun _ _ _ => True)
        (boot oneEntry lbPorts (loadParamsToSt threeServices)) [.packet (webPacket 1) (lends (some 0))] w ∧
      Processes (balancing oneEntry.maxConntrack 1000) w (webPacket 2) (lends (some 1)) v w' ∧
      v.ctx = some 1 ∧ AnswerTo v.m webAnswer :=
    ⟨_, _, _, .cons ⟨fun _ _ _ => trivial, by decide, rfl⟩ (.nil _), ⟨by decide +kernel, rfl⟩, rfl,
      by decide +kernel, by decide +kernel, by decide +kernel, by decide +kernel, by decide +kernel⟩
  obtain ⟨⟨hact, -⟩, hback⟩ := run_undone oneEntry 1000 threeServices hapart hr h hv 1 2 0
  obtain ⟨⟨e, he, pipe, hpipe, hhits⟩, hall⟩ := hback webAnswer rfl hans
  exact ⟨v, hact, hans, e, he, pipe, hpipe, hhits, (hall e he pipe hpipe hhits).2⟩

end FlowQoS.LoadBalancing
