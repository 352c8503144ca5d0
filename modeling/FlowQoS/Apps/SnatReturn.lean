import FlowQoS.Apps.SnatLease

/-!
# The way back of the packets

A packet from the WAN that is forwarded has to reach the LAN address and port of the live upstream
connection that its public port belongs to (`Returned`), whether a new downstream connection forwards it,
one of the table, or an entry of the hardware. The code does not look at what could get in the way, so
`Careful` says of each event what has to be so: the keys of a connection from the LAN are free and it gets
its context, no packet from the WAN has the key of an upstream connection, and an upstream connection ends
only together with those that answer it.

* `run_returns`: in a run of such events every packet is sent back to where it belongs;
* `stale_downstream`: an upstream connection ages before the one that answers it, and its port is given
  to another host.
-/

namespace FlowQoS.Snat

open Lib Pipe Conntrack Timer

variable {P : Params SnatAttr SnatEnv} {GAP : ℕ} {s s' : Core SnatAttr} {w w' : World SnatAttr}
  {sip : UInt32} {live : List SnatMatch} {u u' d c : CtxId} {m : Mbuf} {env : PacketEnv SnatEnv}
  {e e' : FlowQoSEntry} {attr attr' : ConnAttr}

/-- The live upstream connection to where the packet comes from that owns the public address and port the
packet is sent to. -/
structure Owner (s : Core SnatAttr) (m : Packet) (u : CtxId) : Prop where
  live : s.CT (s.ctx u).entry.match_ = some u
  port : (s.conns u).port = LAN_PORT
  remote : m.src_ip = (s.ctx u).entry.match_.dst_ip ∧ m.src_port = (s.ctx u).entry.match_.dst_port ∧
    m.proto = (s.ctx u).entry.match_.proto
  owns : ∃ i, s.app.snat_table (ctxKey s u) = some i ∧ i ∉ s.app.bucket ∧
    (s.app.entries i).sip = m.dst_ip ∧ (s.app.entries i).sport = m.dst_port

/-- The packet has become one to the LAN address and port of its owner. -/
def Returned (s : Core SnatAttr) (m m' : Packet) : Prop :=
  ∃ u, Owner s m u ∧ (∀ u', Owner s m u' → u' = u) ∧ m'.dst_ip = (s.ctx u).entry.match_.src_ip ∧
    m'.dst_port = (s.ctx u).entry.match_.src_port

/-- What the driver was given for an entry of the hardware: the match and the actions are those of the
entry, the expire time is its context's. -/
def hwDoca (s : Core SnatAttr) (e : HwEntry) (c : CtxId) : DocaEntry :=
  docaEntry { match_ := e.match_, action := e.action, expireTime := (s.ctx c).entry.expireTime }

/-- One event of the application's core, whose state is changed by its handlers only. -/
def SnatSteps (GAP : ℕ) (w : World SnatAttr) (event : Event SnatAttr SnatEnv) (w' : World SnatAttr) :
    Prop :=
  (∀ app, event ≠ .app app) ∧ Steps (snat GAP) w event w'

/-- The event does not get the directions of a connection apart. -/
def Careful (P : Params SnatAttr SnatEnv) (w : World SnatAttr) : Event SnatAttr SnatEnv → Prop
  | .packet m env =>
    (m.port = LAN_PORT → Room P w (.packet m env) ∧ ∀ e, packetParser w.2.attr m = some e →
      w.2.CT e.match_ = none → (SnatCall.newConn env.app e).KeysFree w.2.app) ∧
    (m.port = WAN_PORT → ∀ e, packetParser w.2.attr m = some e → ∀ u, Upstream P w.2 u →
      ctxKey w.2 u ≠ keyOf e.match_)
  | event => ∀ u d, Upstream P w.2 u → Downstream P w.2 d →
    Answers (w.2.ctx u).entry (w.2.ctx d).entry.match_ → Ending P w u event → Ending P w d event

/-- The tracker as `init_snat` configures it. -/
structure SnatConf (attr : ConnAttr) : Prop where
  ports : ∀ p, attr.PORT_CT_ENABLED p → (p, attr.ActionFlags p) ∈ snatPorts
  direct : attr.ENABLE_FLOWQOS = false

/-- What a run of careful events keeps. -/
structure ReturnInv (GAP : ℕ) (sip : UInt32) (w : World SnatAttr) : Prop where
  world : WorldInv (snat GAP) w
  conf : SnatConf w.2.attr
  leased : ∃ live, Leased (snat GAP) sip live w.2
  paired : Paired (snat GAP) w.2
  mirrors : Mirrors w.2

/-! ### The configuration -/

theorem SnatConf.congr (h : SnatConf attr) (hsame : SameConfig attr attr') : SnatConf attr' := by
  refine ⟨fun p hp => ?_, ?_⟩
  · rw [hsame.PORT_CT_ENABLED] at hp
    rw [hsame.ActionFlags]
    exact h.ports p hp
  · rw [hsame.ENABLE_FLOWQOS]
    exact h.direct

theorem SnatConf.cases (h : SnatConf attr) {p : ℕ} (hp : attr.PORT_CT_ENABLED p) :
    (p = LAN_PORT ∧ attr.ActionFlags p = SIP ||| SPORT ||| DMAC ||| AGING) ∨
      p = WAN_PORT ∧ attr.ActionFlags p = DIP ||| DPORT ||| DMAC ||| AGING := by
  have hin := h.ports p hp
  unfold snatPorts at hin
  simp only [List.mem_cons, Prod.mk.injEq, List.not_mem_nil, or_false] at hin
  exact hin

theorem SnatConf.attaches (h : SnatConf attr) : Attaches attr := by
  intro p hp
  rcases h.cases hp with ⟨-, hflags⟩ | ⟨-, hflags⟩
  · rw [hflags]
    decide
  · rw [hflags]
    decide

theorem wan_ne_lan : WAN_PORT ≠ LAN_PORT := by decide

/-! ### Packets -/

/-- **A packet of a new connection** keeps the leases and the pairs; a connection from the WAN that is
opened leads back to the owner of its public port. -/
theorem openConn_returns (h : ReturnInv GAP sip w) (hen : w.2.attr.PORT_CT_ENABLED m.port)
    (hparse : packetParser w.2.attr m = some e) (habs : w.2.CT e.match_ = none)
    (hc : Careful (snat GAP) w (.packet m env)) {r : Option CtxId}
    (hrun : openConn (snat GAP) m e env w = .ok (r, w')) :
    (∃ live, Leased (snat GAP) sip live w'.2) ∧ Paired (snat GAP) w'.2 ∧
      ∀ c, r = some c → Made w.2.attr m.port (w'.2.ctx c).entry ∧
        (m.port = WAN_PORT → ∃ u, Upstream (snat GAP) w.2 u ∧ Answers (w.2.ctx u).entry e.match_ ∧
          LeadsBack (w.2.ctx u).entry (w'.2.ctx c).entry.action) := by
  obtain ⟨mgr, s⟩ := w
  obtain ⟨live, hl⟩ := h.leased
  obtain ⟨hmade, -⟩ := made_parsed h.world.inv.table.conf hen hparse
  obtain ⟨pipe, hpipe, hport, -⟩ := hmade.pipe
  rcases openConn_cases hrun with ⟨hno, -⟩ | ⟨f, ret, e', app, hf, hr, hrest⟩
  · cases hno
  cases hf
  have hbranch := newConnHandler_port hpipe hr
  rw [hport] at hbranch
  have hask : Asked (snat GAP) s m e ret e' app := ⟨hen, hparse, habs, _, _, rfl, hr⟩
  rcases hrest with ⟨hneg, rfl, rfl⟩ | ⟨hret, hadd⟩
  · refine ⟨⟨live, ?_⟩, ?_, fun c hc => (by cases hc)⟩
    · rcases hbranch with ⟨hlan, hlan'⟩ | ⟨-, hwan'⟩
      · have hfree := (hc.1 hlan).2 e hparse habs
        rcases hl.pool.newConn hfree hlan' with ⟨-, hinv, -, htable⟩ | ⟨hwan, -⟩
        · exact hl.congr (List.Perm.refl _) rfl (fun _ => SameEntry.refl _) hinv htable
        · have hret : ret = WAN_PORT := hwan
          rw [hret] at hneg
          exact absurd hneg (by decide)
      · obtain ⟨rfl, -⟩ := newConnWan_cases hwan'
        exact hl
    · exact h.paired.congr rfl (fun _ => SameEntry.refl _) (fun ha => ha) fun _ _ hu _ _ _ => hu.alive
  · obtain ⟨hmade', hmatch⟩ := hask.made hret h.world.inv.table.conf h.world.ok.keeps
    have hpipe' : ∃ pipe, e'.pipe = some pipe ∧ pipe.port_id = m.port := by
      obtain ⟨pipe', hpipe', hport', -⟩ := hmade'.pipe
      exact ⟨pipe', hpipe', hport'⟩
    -- what the handler has made of a connection from the WAN
    have hback : m.port = WAN_PORT → app = s.app ∧ ∃ u, Upstream (snat GAP) s u ∧
        Answers (s.ctx u).entry e.match_ ∧ LeadsBack (s.ctx u).entry e'.action := by
      intro hwan
      have hwan' := (hbranch.resolve_left fun hc => wan_ne_lan (hwan.symm.trans hc.1)).2
      obtain ⟨rfl, hfound⟩ := newConnWan_cases hwan'
      obtain ⟨i, hi, -, hip, hdport⟩ := hfound hret
      refine ⟨rfl, ?_⟩
      rcases hl.translation hi with ⟨u, hu, heq⟩ | ⟨u, hu, hans, h1, h2⟩
      · exact absurd heq (hc.2 hwan e hparse u hu)
      · exact ⟨u, hu, hans, hip.trans h1, hdport.trans h2⟩
    rcases addConnToHash_cases hadd with ⟨rfl, pool, hperm, rfl, hlost⟩ | ⟨c, mgr', rfl, hcp, -, rfl⟩
    · -- a connection from the LAN gets its context
      have hwan : m.port = WAN_PORT := by
        rcases h.conf.cases hen with ⟨hlan, -⟩ | ⟨hwan, -⟩
        · exact absurd ((hc.1 hlan).1 ⟨hen, _, e, ret, e', app, hparse, habs, rfl, hr, hret⟩) hlost
        · exact hwan
      obtain ⟨rfl, -⟩ := hback hwan
      refine ⟨⟨live, hl.congr hperm rfl (fun _ => SameEntry.refl _) hl.pool rfl⟩, ?_,
        fun c hc => (by cases hc)⟩
      exact h.paired.congr rfl (fun _ => SameEntry.refl _) (fun ha => (alive_congr hperm).1 ha)
        fun _ _ hu _ _ _ => (alive_congr hperm).2 hu.alive
    · have ho : Opened (snat GAP) s ((s.accept m.port e.match_ app).insert c e' ⟨s.accepted, m.port⟩
          env.start_tsc) c m.port e' := h.world.inv.table.insert_opened hcp
      rw [← hmatch] at hback
      refine ⟨?_, ?_, fun c' hc' => ?_⟩
      · rcases hbranch with ⟨hlan, hlan'⟩ | ⟨hnot, hwan'⟩
        · have hfree := (hc.1 hlan).2 e hparse habs
          rcases hl.pool.newConn hfree hlan' with ⟨hneg, -⟩ | ⟨-, hinv, hnew, hold⟩
          · exact absurd hret (Int.not_le.2 hneg)
          · rw [← hmatch] at hinv hnew
            exact ⟨_, hl.openedLan ho hlan hinv hnew hold hpipe'⟩
        · obtain ⟨happ, -⟩ := newConnWan_cases hwan'
          exact ⟨live, hl.openedWan ho hnot happ hpipe'⟩
      · exact h.paired.opened ho fun hwan => (hback hwan).2
      · cases hc'
        refine ⟨hmade'.congr (SameConfig.refl _) ho.entry, fun hwan => ?_⟩
        obtain ⟨-, u, hu, hans, hlead⟩ := hback hwan
        rw [hmatch] at hans
        refine ⟨u, hu, hans, ?_⟩
        rw [ho.entry.2.2]
        exact hlead

/-- **Where a packet is returned to**: it answers an upstream connection and gets the address and port
that one comes from. -/
theorem ReturnInv.returned (h : ReturnInv GAP sip w) (hu : Upstream (snat GAP) w.2 u) {k : FlowQoSMatch}
    (hans : Answers (w.2.ctx u).entry k) (htuple : SameTuple m k) {m' : Packet}
    (hip : m'.dst_ip = (w.2.ctx u).entry.match_.src_ip)
    (hport : m'.dst_port = (w.2.ctx u).entry.match_.src_port) : Returned w.2 m.header m' := by
  obtain ⟨live, hl⟩ := h.leased
  -- the pool entry of an upstream connection has its public address and port
  have howns : ∀ {u i}, Upstream (snat GAP) w.2 u → w.2.app.snat_table (ctxKey w.2 u) = some i →
      i ∉ w.2.app.bucket ∧ (w.2.app.entries i).sip = (w.2.ctx u).entry.action.src_ip ∧
        (w.2.app.entries i).sport = (w.2.ctx u).entry.action.src_port := by
    intro u i hu hi
    obtain ⟨j, hj, hsip, hsport⟩ := hl.action hu
    rw [hi, Option.some.injEq] at hj
    subst hj
    obtain ⟨key, -, hown, -⟩ := hl.pool.keys hi
    obtain ⟨hsip', hsport'⟩ := hl.pool.addr i hown.lt
    exact ⟨hown.taken, hsip'.trans hsip.symm, hsport'.trans hsport.symm⟩
  refine ⟨u, ⟨h.world.inv.table.stored hu.alive, hu.port, ?_, ?_⟩, fun u' hu' => ?_, hip, hport⟩
  · exact ⟨htuple.src_ip.trans hans.src_ip, htuple.src_port.trans hans.src_port,
      htuple.proto.trans hans.proto⟩
  · obtain ⟨i, hi, -⟩ := hl.action hu
    obtain ⟨htaken, hsip, hsport⟩ := howns hu hi
    exact ⟨i, hi, htaken, hsip.trans (htuple.dst_ip.trans hans.dst_ip).symm,
      hsport.trans (htuple.dst_port.trans hans.dst_port).symm⟩
  · obtain ⟨i, hi, -, -, hsport⟩ := hu'.owns
    have hup : Upstream (snat GAP) w.2 u' := ⟨(h.world.inv.table.table hu'.live).1, hu'.port⟩
    refine hl.unique hup hu ?_
    rw [← (howns hup hi).2.2, hsport]
    exact htuple.dst_port.trans hans.dst_port

/-- What the software does to a packet of a downstream connection. -/
theorem rewrite_dst {x : ConnContext} (hflags : x.entry.action.flags = DIP ||| DPORT ||| DMAC ||| AGING) :
    (rewrite m x).header.dst_ip = x.entry.action.dst_ip ∧
      (rewrite m x).header.dst_port = x.entry.action.dst_port := by
  have hdip : x.entry.action.flags &&& DIP ≠ 0 := by
    rw [hflags]
    decide
  have hdport : x.entry.action.flags &&& DPORT ≠ 0 := by
    rw [hflags]
    decide
  rw [rewrite_header]
  exact ⟨if_pos hdip, if_pos hdport⟩

/-- What the hardware does to it. -/
theorem docaEntry_dst {x : FlowQoSEntry} {pipe : FlowQoSPipe}
    (hflags : x.action.flags = DIP ||| DPORT ||| DMAC ||| AGING)
    (hpipe : x.action.flags = pipe.action_pattern.flags) (haging : 0 < agingTime x.expireTime)
    (matched unmatched : UInt64) (m : Packet) :
    ((docaPipe pipe matched unmatched).apply (docaEntry x) m).dst_ip = x.action.dst_ip ∧
      ((docaPipe pipe matched unmatched).apply (docaEntry x) m).dst_port = x.action.dst_port := by
  have hdip : x.action.flags &&& DIP ≠ 0 := by
    rw [hflags]
    decide
  have hdport : x.action.flags &&& DPORT ≠ 0 := by
    rw [hflags]
    decide
  rw [apply_eq hpipe haging]
  exact ⟨if_pos hdip, if_pos hdport⟩

/-- **A packet** keeps the leases and the pairs, and one from the WAN that is forwarded is returned. -/
theorem packet_returns (h : ReturnInv GAP sip w) (hc : Careful (snat GAP) w (.packet m env)) {v : Verdict}
    (hrun : conntrackPacketProcessor (snat GAP) m env w = .ok (v, w')) :
    (∃ live, Leased (snat GAP) sip live w'.2) ∧ Paired (snat GAP) w'.2 ∧
      (m.port = WAN_PORT → 0 ≤ v.action → Returned w.2 m.header v.m.header) := by
  have hignore : ¬ 0 ≤ ignorePackets := by decide
  have hdrop : ¬ 0 ≤ dropPackets := by decide
  rcases packet_cases hrun with ⟨hact, -, rfl⟩ | ⟨e, hen, hparse, hrest⟩
  · exact ⟨h.leased, h.paired, fun _ hpos => absurd (hact ▸ hpos) hignore⟩
  have htuple := sameTuple_parsed hparse
  rcases hrest with ⟨c, hk, hfwd⟩ | ⟨habs, r, w₁, hopen, hrest⟩
  · obtain ⟨halive, hmatch⟩ : Alive (snat GAP) w.2 c ∧ (w.2.ctx c).entry.match_ = e.match_ :=
      h.world.inv.table.table hk
    have hmade : Made w.2.attr (w.2.conns c).port (w.2.ctx c).entry := h.world.inv.table.made halive
    have hquiet := forward_quiet hmade hfwd
    obtain ⟨live, hl⟩ := h.leased
    refine ⟨⟨live, hl.quiet hquiet⟩, h.paired.quiet hquiet, fun hwan _ => ?_⟩
    obtain ⟨⟨x, hx, hv⟩, -⟩ := forward_eq hmade hfwd
    rcases h.conf.cases hmade.enabled with ⟨hlan, -⟩ | ⟨hport, hflags⟩
    · -- a packet from the WAN does not have the key of an upstream connection
      refine absurd ?_ (hc.2 hwan e hparse c ⟨halive, hlan⟩)
      unfold ctxKey
      rw [hmatch]
    · obtain ⟨u, hu, hans, hlead⟩ := h.paired c ⟨halive, hport⟩
      rw [hmatch] at hans
      rw [hv]
      obtain ⟨hip, hdport⟩ := rewrite_dst (m := m) (x := x) (by
        rw [hx.2.2]
        exact hmade.flags.trans hflags)
      rw [hx.2.2] at hip hdport
      exact h.returned hu hans htuple (hip.trans hlead.dst_ip) (hdport.trans hlead.dst_port)
  · obtain ⟨hl, hp, hnew⟩ := openConn_returns h hen hparse habs hc hopen
    rcases hrest with ⟨rfl, hact, -, rfl⟩ | ⟨c, rfl, hfwd⟩
    · exact ⟨hl, hp, fun _ hpos => absurd (hact ▸ hpos) hdrop⟩
    · obtain ⟨hmade, hback⟩ := hnew c rfl
      have hquiet := forward_quiet hmade hfwd
      obtain ⟨live, hl⟩ := hl
      refine ⟨⟨live, hl.quiet hquiet⟩, hp.quiet hquiet, fun hwan _ => ?_⟩
      obtain ⟨⟨x, hx, hv⟩, -⟩ := forward_eq hmade hfwd
      obtain ⟨u, hu, hans, hlead⟩ := hback hwan
      have hflags : w.2.attr.ActionFlags m.port = DIP ||| DPORT ||| DMAC ||| AGING := by
        rcases h.conf.cases hen with ⟨hlan, -⟩ | ⟨-, hflags⟩
        · exact absurd (hwan.symm.trans hlan) wan_ne_lan
        · exact hflags
      rw [hv]
      obtain ⟨hip, hdport⟩ := rewrite_dst (m := m) (x := x) (by
        rw [hx.2.2]
        exact hmade.flags.trans hflags)
      rw [hx.2.2] at hip hdport
      exact h.returned hu hans htuple (hip.trans hlead.dst_ip) (hdport.trans hlead.dst_port)

/-! ### Runs -/

/-- Every connection has the application's expire time. -/
theorem createdOn_expireTime {p : ℕ} {x : FlowQoSEntry} (h : CreatedOn (snat GAP) attr p x) :
    x.expireTime = CONN_EXPIRE := by
  obtain ⟨s, m₀, e, e', ret, app, y, c, tsc, -, hask, hret, -, -, hx⟩ := h
  obtain ⟨f, env, hf, hr⟩ := hask.handler
  cases hf
  obtain ⟨-, -, -, -, -, hexp⟩ := newConnHandler_entry hr hret
  rw [hx]
  by_cases hflags : e'.action.flags = AGING
  · rw [fill_not_attached hflags]
    exact hexp
  · rw [fill_attached hflags]
    show (if e'.expireTime = 0 then 10 else e'.expireTime) = CONN_EXPIRE
    rw [hexp]
    rfl

/-- **A packet that hits an entry of the hardware** is returned. -/
theorem ReturnInv.hw_returns {a : InitArgs} {ports : List (ℕ × UInt64)} {app : SnatAttr}
    (h : ReturnInv GAP sip w) {x : HwEntry} {rss : UInt64} (hx : x ∈ w.2.hw.entries)
    (hc : x.user_data = some c) (halive : Alive (snat GAP) w.2 c)
    (hcr : CreatedOn (snat GAP) (boot a ports app).2.attr (w.2.conns c).port (w.2.ctx c).entry)
    (hwan : m.port = WAN_PORT) (hhits : (docaPipe x.pipe PORT rss).Hits (hwDoca w.2 x c) m.header) :
    Returned w.2 m.header ((docaPipe x.pipe PORT rss).apply (hwDoca w.2 x c) m.header) := by
  obtain ⟨hmatch, haction, hpipe⟩ := h.mirrors x hx c hc
  obtain ⟨hmade, hl4⟩ := hcr.made _ _ _ keepsAll_snat.keeps
  obtain ⟨pipe, hpipe', hport, hmflags, haflags⟩ := hmade.pipe
  rw [hpipe, Option.some.injEq] at hpipe'
  subst hpipe'
  rw [← hmatch] at hmflags hl4
  rw [← haction] at haflags
  have hmport : m.port = x.pipe.port_id := hhits.port
  have htuple : SameTuple m x.match_ := (hits_iff_sameTuple hmflags.symm hl4 hmport).1 hhits
  have hcport : (w.2.conns c).port = WAN_PORT := hport.symm.trans (hmport.symm.trans hwan)
  obtain ⟨u, hup, hans, hlead⟩ := h.paired c ⟨halive, hcport⟩
  rw [← hmatch] at hans
  rw [← haction] at hlead
  have hflags : x.action.flags = DIP ||| DPORT ||| DMAC ||| AGING := by
    rw [haction]
    have hctx := h.world.inv.table.made halive
    rcases h.conf.cases hctx.enabled with ⟨hlan, -⟩ | ⟨-, hwflags⟩
    · exact absurd (hcport.symm.trans hlan) wan_ne_lan
    · exact hctx.flags.trans hwflags
  have haging : 0 < agingTime (w.2.ctx c).entry.expireTime := by
    rw [createdOn_expireTime hcr]
    decide
  obtain ⟨hip, hdport⟩ := docaEntry_dst
    (x := { match_ := x.match_, action := x.action, expireTime := (w.2.ctx c).entry.expireTime })
    hflags haflags.symm haging PORT rss m.header
  exact h.returned hup hans htuple (hip.trans hlead.dst_ip) (hdport.trans hlead.dst_port)

/-- **A careful event** keeps the invariant. -/
theorem ReturnInv.step (h : ReturnInv GAP sip w) {event : Event SnatAttr SnatEnv}
    (hc : Careful (snat GAP) w event) (hs : SnatSteps GAP w event w') : ReturnInv GAP sip w' := by
  obtain ⟨happ, hs⟩ := hs
  have hT : w.1.timeout + 68719476735 < 2 ^ 64 := by
    have := hs.1
    omega
  obtain ⟨hmoves, hworld⟩ := hs.moves (L := ⟨True, True⟩) h.world (fun _ => trivial) fun _ _ => trivial
  have hmir : Mirrors w'.2 := by
    have hinv := Moves.inv (Q := fun v => Mirrors v.2 ∧ Attaches v.2.attr) (fun v v' hok hi hq hm =>
      ⟨mirrors_move hok hq.2 hi hq.1 hm, (attaches_congr hm.sameConfig).2 hq.2⟩) h.world.ok h.world.inv
      ⟨h.mirrors, h.conf.attaches⟩ hmoves
    exact hinv.2.1
  obtain ⟨live, hl⟩ := h.leased
  have hrun := hs.2
  suffices hcore : (∃ live, Leased (snat GAP) sip live w'.2) ∧ Paired (snat GAP) w'.2 from
    ⟨hworld, h.conf.congr (Moves.sameConfig hmoves), hcore.1, hcore.2, hmir⟩
  cases event with
  | packet m env =>
    obtain ⟨⟨v, w₁⟩, hp, rfl⟩ := map_eq_ok.1 hrun
    obtain ⟨hl', hp', -⟩ := packet_returns h hc hp
    exact ⟨hl', hp'⟩
  | tick rdtsc =>
    obtain ⟨⟨n, w₁⟩, htick, rfl⟩ := map_eq_ok.1 hrun
    obtain ⟨cs, hends, hcs⟩ := tick_ends h.world.inv h.world.mgr hT htick
    refine ⟨hl.ends hends, h.paired.ends hends fun u d hu hd hans hin => ?_⟩
    exact (hcs d).2 (hc u d hu hd hans ((hcs u).1 hin))
  | qos rdtsc outcome =>
    have hoff : ¬ (w.2.attr.ENABLE_FLOWQOS = true) := by
      rw [h.conf.direct]
      decide
    simp only [Conntrack.step, if_neg hoff] at hrun
    cases hrun
    exact ⟨⟨live, hl⟩, h.paired⟩
  | aging reports =>
    obtain ⟨s', haging, rfl⟩ := map_eq_ok.1 hrun
    obtain ⟨cs, hends, hcs⟩ := connAgingHandle_ends h.world.ok h.world.inv h.conf.attaches haging
    refine ⟨hl.ends hends, h.paired.ends hends fun u d hu hd hans hin => ?_⟩
    exact (hcs d).2 (hc u d hu hd hans ((hcs u).1 hin))
  | app app => exact absurd rfl (happ app)

theorem returnInv_init (GAP : ℕ) (tsc_hz rdtsc : UInt64) (sip : UInt32) (mem : ℕ → SnatPoolEntry) :
    ReturnInv GAP sip (initSnat tsc_hz rdtsc sip mem) := by
  have hnot : ∀ c, ¬ Alive (snat GAP) (initSnat tsc_hz rdtsc sip mem).2 c :=
    boot_not_alive rfl snatPorts (flowQoSSnatPoolInit sip mem)
  have happ : (initSnat tsc_hz rdtsc sip mem).2.app = flowQoSSnatPoolInit sip mem := boot_app _ _ _
  have hhw : (initSnat tsc_hz rdtsc sip mem).2.hw = {} := boot_hw _ _ _
  refine ⟨worldInv_boot rfl _ _ (.inl keepsAll_snat), ⟨fun p hp => boot_ports _ _ _ hp, rfl⟩,
    ⟨[], ?_, fun {key} => ?_, fun hu => absurd hu.alive (hnot _), fun hu => absurd hu.alive (hnot _),
      fun ha => absurd ha (hnot _)⟩, fun d hd => absurd hd.alive (hnot d), fun e he => ?_⟩
  · rw [happ]
    exact poolInv_init sip mem
  · constructor
    · intro hin
      cases hin
    · rintro ⟨u, hu, -⟩
      exact absurd hu.alive (hnot u)
  · rw [hhw] at he
    cases he

/-- **Every packet from the WAN is returned to where it belongs** in a run of careful events: one that the
software forwards, whether its connection is new or in the table, and one that hits an entry of the
hardware. -/
theorem run_returns (GAP : ℕ) (tsc_hz rdtsc : UInt64) (sip : UInt32) (mem : ℕ → SnatPoolEntry)
    {events : List (Event SnatAttr SnatEnv)}
    (hr : Trace (fun w event w' => Careful (snat GAP) w event ∧ SnatSteps GAP w event w')
      (initSnat tsc_hz rdtsc sip mem) events w) :
    (∀ {m env v w'}, m.port = WAN_PORT → Careful (snat GAP) w (.packet m env) →
      conntrackPacketProcessor (snat GAP) m env w = .ok (v, w') → 0 ≤ v.action →
      Returned w.2 m.header v.m.header) ∧
    ∀ e ∈ w.2.hw.entries, ∃ c, e.user_data = some c ∧ ∀ {m : Mbuf} {rss : UInt64}, m.port = WAN_PORT →
      (docaPipe e.pipe PORT rss).Hits (hwDoca w.2 e c) m.header →
      Returned w.2 m.header ((docaPipe e.pipe PORT rss).apply (hwDoca w.2 e c) m.header) := by
  have hinv : ReturnInv GAP sip w :=
    Trace.inv (fun _ _ _ h hs => h.step hs.1 hs.2) hr (returnInv_init GAP tsc_hz rdtsc sip mem)
  have hruns : Runs (snat GAP) (boot (initArgs tsc_hz rdtsc) snatPorts (flowQoSSnatPoolInit sip mem))
      events w := hr.mono fun _ _ _ hs => hs.2.2
  refine ⟨fun hwan hc hrun hpos => (packet_returns hinv hc hrun).2.2 hwan hpos, fun e he => ?_⟩
  obtain ⟨c, hu, halive, -⟩ := hinv.world.inv.hw.exact hinv.conf.attaches e he
  exact ⟨c, hu, fun hwan hhits =>
    hinv.hw_returns he hu halive (run_createdOn rfl (.inl keepsAll_snat) hruns halive) hwan hhits⟩

/-! ### A query and its answer -/

/-- The entries of the pool in memory that holds zeros, with their addresses and ports. -/
def freshEntries (sip : UInt32) (i : ℕ) : SnatPoolEntry := ⟨sip, 0, i.toUInt16, 0⟩

/-- An empty table, and a pool with these entries. -/
def freshPool (sip : UInt32) (bucket : List ℕ) : SnatAttr where
  snat_table := fun _ => none
  entries := freshEntries sip
  bucket := bucket

/-- The start of the application, with the first ports and the first contexts written out. -/
def freshWorld (tsc_hz rdtsc : UInt64) (sip : UInt32) : World SnatAttr :=
  let w := boot (initArgs tsc_hz rdtsc) snatPorts
    (freshPool sip (65535 :: 65534 :: (List.range 65534).reverse))
  (w.1, { w.2 with pool := 0 :: 1 :: 2 :: (List.range 131079).map fun i => 3 + i })

theorem poolInit_fresh (sip : UInt32) : flowQoSSnatPoolInit sip (freshEntries sip) =
    freshPool sip (List.range poolSize).reverse := by
  have key : ∀ n, (List.range n).foldl (poolInitStep sip) (freshPool sip []) =
      freshPool sip (List.range n).reverse := by
    intro n
    induction n with
    | zero => rfl
    | succ n ih =>
      have hself : { freshEntries sip n with sip := sip, sport := n.toUInt16 } = freshEntries sip n := rfl
      rw [List.range_succ, List.foldl_append, ih, List.foldl_cons, List.foldl_nil, List.reverse_append]
      unfold poolInitStep flowQoSSnatPoolPut freshPool
      simp only [hself, Function.update_eq_self]
      rfl
  exact key poolSize

theorem initSnat_fresh (tsc_hz rdtsc : UInt64) (sip : UInt32) :
    initSnat tsc_hz rdtsc sip (freshEntries sip) = freshWorld tsc_hz rdtsc sip := by
  have hbucket : (List.range poolSize).reverse = 65535 :: 65534 :: (List.range 65534).reverse :=
    range_reverse 65534
  have hpool : List.range MAX_CT_IN_POOL = 0 :: 1 :: 2 :: (List.range 131079).map fun i => 3 + i :=
    (List.range_add : List.range (3 + 131079) = _)
  have hset : ∀ {s : Core SnatAttr} {l : List CtxId}, s.pool = l → s = { s with pool := l } := by
    rintro s l rfl
    rfl
  unfold initSnat
  rw [poolInit_fresh, hbucket]
  exact Prod.ext rfl (hset ((boot_pool _ _ _).trans hpool))

theorem mem_contexts {c : ℕ} (hpos : 0 < c) (hlt : c < 131082) :
    c ∈ 1 :: 2 :: (List.range 131079).map fun i => 3 + i := by
  simp only [List.mem_cons, List.mem_map, List.mem_range]
  by_cases hthree : c < 3
  · omega
  · exact .inr (.inr ⟨c - 3, by omega, by omega⟩)

theorem freshPool_keysFree {env : SnatEnv} {bucket : List ℕ}
    (hne : e.match_.src_ip ≠ e.match_.dst_ip) :
    (SnatCall.newConn env e).KeysFree (freshPool sip bucket) := by
  intro mac i bucket' _ _
  exact ⟨rfl, fun _ => ⟨rfl, fun heq => hne (congrArg SnatMatch.sip heq)⟩⟩

theorem clock_fresh : (flowQoSTimerMgrInit (UInt64.toNat 0) : Mgr).timeout < 2 ^ 64 - 2 ^ 36 := by decide

/-- A packet with the key. -/
def packetOf (port : ℕ) (key : SnatMatch) : Mbuf where
  port := port
  src_addr := key.sip
  dst_addr := key.dip
  next_proto_id := key.proto
  sport := key.sport
  dport := key.dport

/-- A new connection gets the context, and the hardware takes its entry at once. -/
def envOf (c : CtxId) : PacketEnv SnatEnv where
  app := openEnv
  ctx := some c
  hash := true
  outcome := { entry := true, processed := 1 }
  start_tsc := 0
  tune_tsc := 1
  offload_tsc := 1
  flush_tsc := 1
  reset_tsc := 1

set_option maxRecDepth 4000 in
/-- The answer to a query is returned. -/
theorem run_returns_answer : ∃ w v w',
    conntrackPacketProcessor (snat 1000) (packetOf WAN_PORT nameAnswer) (envOf 1) w = .ok (v, w') ∧
      Returned w.2 (packetOf WAN_PORT nameAnswer).header v.m.header := by
  have hfree : ∀ e, packetParser (freshWorld 1000000 0 0x02c9a8c0).2.attr (packetOf LAN_PORT nameQuery) =
      some e → (freshWorld 1000000 0 0x02c9a8c0).2.CT e.match_ = none →
      (SnatCall.newConn openEnv e).KeysFree (freshWorld 1000000 0 0x02c9a8c0).2.app := by
    intro e he _
    cases he
    exact freshPool_keysFree (by decide)
  obtain ⟨w, hrun, hpool, hkey, ⟨e, hparse, hanswer⟩, v, w', hp, hact⟩ :
      ∃ w, Trace (fun w event w' => Careful (snat 1000) w event ∧ SnatSteps 1000 w event w')
          (initSnat 1000000 0 0x02c9a8c0 (freshEntries 0x02c9a8c0))
          [.packet (packetOf LAN_PORT nameQuery) (envOf 0)] w ∧
        w.2.pool = 1 :: 2 :: ((List.range 131079).map fun i => 3 + i) ∧ ctxKey w.2 0 = nameQuery ∧
        (∃ e, packetParser w.2.attr (packetOf WAN_PORT nameAnswer) = some e ∧
          keyOf e.match_ = nameAnswer) ∧
        ∃ v w', conntrackPacketProcessor (snat 1000) (packetOf WAN_PORT nameAnswer) (envOf 1) w =
          .ok (v, w') ∧ 0 ≤ v.action := by
    rw [initSnat_fresh]
    exact ⟨_, .cons ⟨⟨fun _ => ⟨fun _ => ⟨rfl, 0, List.mem_cons_self, rfl⟩, hfree⟩, fun h => (by cases h)⟩,
      fun app h => (by cases h), clock_fresh, rfl⟩ (.nil _), rfl, rfl, ⟨_, rfl, rfl⟩, _, _, rfl,
      by decide +kernel⟩
  refine ⟨w, v, w', hp, (run_returns 1000 1000000 0 0x02c9a8c0 (freshEntries 0x02c9a8c0) hrun).1 rfl
    ⟨fun h => (by cases h), fun _ e' he' u hu => ?_⟩ hp hact⟩
  rw [hparse, Option.some.injEq] at he'
  -- the query has the only context that is not in the pool
  have hzero : u = 0 := by
    obtain ⟨hlt, hout⟩ : u < 131082 ∧ u ∉ w.2.pool := hu.alive
    rw [hpool] at hout
    exact Nat.eq_zero_of_not_pos fun hpos => hout (mem_contexts hpos hlt)
  rw [← he', hanswer, hzero, hkey]
  decide

/-! ### A port that is given away while an answer is on its way -/

/-- Another host asks the same server. -/
def otherQuery : SnatMatch := { nameQuery with sip := 0x67c8a8c0, sport := 2000 }

/-- A query and its answer; the hardware reports the query's entry as aged, and another host asks. -/
def staleRun : List (Event SnatAttr SnatEnv) :=
  [.packet (packetOf LAN_PORT nameQuery) (envOf 0),
    .packet (packetOf WAN_PORT nameAnswer) (envOf 1),
    .aging fun i => if i = LAN_PORT then [(0, true)] else [],
    .packet (packetOf LAN_PORT otherQuery) (envOf 2)]

set_option maxRecDepth 4000 in
/-- The other host owns the port, and the next answer goes to the host that had it before. -/
theorem stale_run : ∃ w,
    Trace (SnatSteps 1000) (initSnat 1000000 0 0x02c9a8c0 (freshEntries 0x02c9a8c0)) staleRun w ∧
      Owner w.2 (packetOf WAN_PORT nameAnswer).header 2 ∧
      (w.2.ctx 2).entry.match_.src_ip = otherQuery.sip ∧
      ∃ v w', conntrackPacketProcessor (snat 1000) (packetOf WAN_PORT nameAnswer) (envOf 3) w =
        .ok (v, w') ∧ 0 ≤ v.action ∧ v.m.header.dst_ip = nameQuery.sip := by
  have htaken : 65535 ∉ 65534 :: (List.range 65534).reverse := by
    simp only [List.mem_cons, List.mem_reverse, List.mem_range]
    omega
  rw [initSnat_fresh]
  exact ⟨_, .cons ⟨fun app h => (by cases h), clock_fresh, rfl⟩
    (.cons ⟨fun app h => (by cases h), clock_fresh, rfl⟩
    (.cons ⟨fun app h => (by cases h), clock_fresh, rfl⟩
    (.cons ⟨fun app h => (by cases h), clock_fresh, rfl⟩ (.nil _)))),
    ⟨rfl, rfl, ⟨rfl, rfl, rfl⟩, 65535, rfl, htaken, rfl, rfl⟩, rfl, _, _, rfl, by decide +kernel, rfl⟩

/-- A packet from the WAN reaches a host whose port has been given to another one. -/
theorem stale_downstream : ∃ events w m env v w',
    Trace (SnatSteps 1000) (initSnat 1000000 0 0x02c9a8c0 (freshEntries 0x02c9a8c0)) events w ∧
      m.port = WAN_PORT ∧ conntrackPacketProcessor (snat 1000) m env w = .ok (v, w') ∧ 0 ≤ v.action ∧
      ¬ Returned w.2 m.header v.m.header := by
  obtain ⟨w, hrun, howner, hother, v, w', hp, hact, hip⟩ := stale_run
  refine ⟨_, w, _, _, v, w', hrun, rfl, hp, hact, ?_⟩
  rintro ⟨u, -, huniq, hu, -⟩
  rw [← huniq 2 howner, hip, hother] at hu
  exact absurd hu (by decide)

end FlowQoS.Snat
