import FlowQoS.Apps.SnatPool
import FlowQoS.Conntrack.FastPath

/-!
# Upstream and downstream connections

The tracker has two connections for what is one connection to the application: the upstream one, which a
packet from the LAN opens and which has the pool entry, and a downstream one for the packets that come
back, which has a copy of the LAN address and port. The contexts of the upstream connections are the live
connections of the pool (`Leased`), and every downstream one answers an upstream one (`Paired`).

The first is kept by every event in which a connection from the LAN finds its keys free and gets its
context. The second can be lost where an upstream connection ends: the pool entry goes back at once, and
the downstream connection stays as long as its own timer runs.
-/

namespace FlowQoS.Snat

open Lib Pipe Conntrack

variable {P : Params SnatAttr SnatEnv} {GAP : ℕ} {s s' : Core SnatAttr} {w w' : World SnatAttr}
  {sip : UInt32} {live : List SnatMatch} {u u' d c : CtxId} {cs : List CtxId} {m : Mbuf}
  {env : PacketEnv SnatEnv} {e e' : FlowQoSEntry} {ret : ℤ} {attr attr' : SnatAttr}

/-- The context of a connection that a packet from the LAN has opened. -/
structure Upstream (P : Params SnatAttr SnatEnv) (s : Core SnatAttr) (u : CtxId) : Prop where
  alive : Alive P s u
  port : (s.conns u).port = LAN_PORT

/-- The context of a connection that a packet from the WAN has opened. -/
structure Downstream (P : Params SnatAttr SnatEnv) (s : Core SnatAttr) (d : CtxId) : Prop where
  alive : Alive P s d
  port : (s.conns d).port = WAN_PORT

/-- The key of a context. -/
def ctxKey (s : Core SnatAttr) (c : CtxId) : SnatMatch := keyOf (s.ctx c).entry.match_

/-- A packet of the match comes from where the upstream connection goes to, for its public address and
port. -/
structure Answers (u : FlowQoSEntry) (k : FlowQoSMatch) : Prop where
  src_ip : k.src_ip = u.match_.dst_ip
  src_port : k.src_port = u.match_.dst_port
  proto : k.proto = u.match_.proto
  dst_ip : k.dst_ip = u.action.src_ip
  dst_port : k.dst_port = u.action.src_port

/-- The actions lead back to where the upstream connection comes from. -/
structure LeadsBack (u : FlowQoSEntry) (a : FlowQoSAction) : Prop where
  dst_ip : a.dst_ip = u.match_.src_ip
  dst_port : a.dst_port = u.match_.src_port

/-- The contexts of the upstream connections are the live connections of the pool, each with the public
address and the port of its pool entry. -/
structure Leased (P : Params SnatAttr SnatEnv) (sip : UInt32) (live : List SnatMatch)
    (s : Core SnatAttr) : Prop where
  pool : PoolInv sip s.app live
  mem : ∀ {key}, key ∈ live ↔ ∃ u, Upstream P s u ∧ ctxKey s u = key
  inj : ∀ {u u'}, Upstream P s u → Upstream P s u' → ctxKey s u = ctxKey s u' → u = u'
  action : ∀ {u}, Upstream P s u → ∃ i, s.app.snat_table (ctxKey s u) = some i ∧
    (s.ctx u).entry.action.src_ip = sip ∧ (s.ctx u).entry.action.src_port = i.toUInt16
  pipe : ∀ {c}, Alive P s c → ∃ pipe, (s.ctx c).entry.pipe = some pipe ∧
    pipe.port_id = (s.conns c).port

/-- Every downstream connection answers an upstream one, and leads back to where it comes from. -/
def Paired (P : Params SnatAttr SnatEnv) (s : Core SnatAttr) : Prop :=
  ∀ d, Downstream P s d → ∃ u, Upstream P s u ∧ Answers (s.ctx u).entry (s.ctx d).entry.match_ ∧
    LeadsBack (s.ctx u).entry (s.ctx d).entry.action

/-! ### The handlers -/

/-- What `newConn_handler` does to the entry of a connection it accepts. -/
theorem newConnHandler_entry {env : SnatEnv} (h : newConnHandler env e attr = .ok (ret, e', attr'))
    (hret : 0 ≤ ret) : e'.match_ = e.match_ ∧ e'.pipe = e.pipe ∧ e'.action.flags = e.action.flags ∧
      e'.entry = e.entry ∧ e'.cb = e.cb ∧ e'.expireTime = CONN_EXPIRE := by
  have hdrop : ¬ 0 ≤ dropPackets := by decide
  unfold newConnHandler at h
  split at h
  · cases h
  · split at h
    · rw [Except.ok.injEq] at h
      cases harp : flowQoSRouterGetArp (env.arp_tables WAN_PORT) (beToCpu32 e.match_.dst_ip) with
      | none =>
        rw [newConnLan_none (.inl harp), Prod.mk.injEq] at h
        exact absurd (h.1 ▸ hret) hdrop
      | some mac =>
        cases hbucket : attr.bucket with
        | nil =>
          rw [newConnLan_none (.inr hbucket), Prod.mk.injEq] at h
          exact absurd (h.1 ▸ hret) hdrop
        | cons i bucket =>
          have hlent := newConnLan_lent harp hbucket
          rw [h] at hlent
          cases hlent with
          | upstream => exact absurd hret hdrop
          | downstream => exact absurd hret hdrop
          | accepted => exact ⟨rfl, rfl, rfl, rfl, rfl, rfl⟩
    · rw [Except.ok.injEq] at h
      unfold newConnWan at h
      split at h
      · cases h
        exact absurd hret hdrop
      · simp only at h
        split at h
        · cases h
          exact absurd hret hdrop
        · cases h
          exact ⟨rfl, rfl, rfl, rfl, rfl, rfl⟩

theorem keepsAll_snat : KeepsAll (snat GAP) := by
  intro f x e a ret e' a' hf hr hret
  cases hf
  obtain ⟨h1, h2, h3, h4, h5, -⟩ := newConnHandler_entry hr hret
  exact ⟨h1, h2, h3, h4, h5⟩

/-- A packet from the WAN leaves the pool and the table alone. It is accepted where the table has its key,
and sent to the address and the port of the pool entry there. -/
theorem newConnWan_cases {env : SnatEnv} (h : newConnWan env e attr = (ret, e', attr')) :
    attr' = attr ∧ (0 ≤ ret → ∃ i, attr.snat_table (keyOf e.match_) = some i ∧ e'.match_ = e.match_ ∧
      e'.action.dst_ip = (attr.entries i).dip ∧ e'.action.dst_port = (attr.entries i).dport) := by
  have hdrop : ¬ 0 ≤ dropPackets := by decide
  unfold newConnWan at h
  split at h
  · cases h
    exact ⟨rfl, fun hret => absurd hret hdrop⟩
  · next i hi =>
    simp only at h
    split at h
    · cases h
      exact ⟨rfl, fun hret => absurd hret hdrop⟩
    · cases h
      exact ⟨rfl, fun _ => ⟨i, hi, rfl, rfl, rfl⟩⟩

/-- A call for the entry of a packet is one of the branch for its port. -/
theorem newConnHandler_port {env : SnatEnv} {pipe : FlowQoSPipe} (hpipe : e.pipe = some pipe)
    (h : newConnHandler env e attr = .ok (ret, e', attr')) :
    (pipe.port_id = LAN_PORT ∧ newConnLan env e attr = (ret, e', attr')) ∨
      pipe.port_id ≠ LAN_PORT ∧ newConnWan env e attr = (ret, e', attr') := by
  unfold newConnHandler at h
  rw [hpipe] at h
  simp only [Except.ok.injEq] at h
  split at h
  · next hport => exact .inl ⟨hport, h⟩
  · next hport => exact .inr ⟨hport, h⟩

/-! ### The table and the upstream connections -/

/-- **What the table says of a key**: it is that of an upstream connection, or a packet with it answers
one, and the pool entry leads back to where that one comes from. -/
theorem Leased.translation (h : Leased P sip live s) {k : FlowQoSMatch} {i : ℕ}
    (hk : s.app.snat_table (keyOf k) = some i) : (∃ u, Upstream P s u ∧ ctxKey s u = keyOf k) ∨
      ∃ u, Upstream P s u ∧ Answers (s.ctx u).entry k ∧
        (s.app.entries i).dip = (s.ctx u).entry.match_.src_ip ∧
        (s.app.entries i).dport = (s.ctx u).entry.match_.src_port := by
  obtain ⟨key, hkey, hown, hor⟩ := h.pool.keys hk
  obtain ⟨u, hu, rfl⟩ := h.mem.1 hkey
  rcases hor with heq | hrev
  · exact .inl ⟨u, hu, heq.symm⟩
  · right
    obtain ⟨j, hj, hsip, hsport⟩ := h.action hu
    rw [hown.up, Option.some.injEq] at hj
    subst hj
    obtain ⟨hsip', hsport'⟩ := h.pool.addr i hown.lt
    have hfield : ∀ {α : Type} (f : SnatMatch → α),
        f (keyOf k) = f (reverseKey (ctxKey s u) (s.app.entries i)) := fun f => congrArg f hrev
    refine ⟨u, hu, ⟨hfield SnatMatch.sip, hfield SnatMatch.sport, hfield SnatMatch.proto, ?_, ?_⟩,
      hown.dip, hown.dport⟩
    · rw [hsip, ← hsip']
      exact hfield SnatMatch.dip
    · rw [hsport, ← hsport']
      exact hfield SnatMatch.dport

/-- The upstream connection that a packet answers is the only one. -/
theorem Leased.unique (h : Leased P sip live s) (hu : Upstream P s u) (hu' : Upstream P s u')
    (hport : (s.ctx u).entry.action.src_port = (s.ctx u').entry.action.src_port) : u = u' := by
  obtain ⟨i, hi, -, hsport⟩ := h.action hu
  obtain ⟨j, hj, -, hsport'⟩ := h.action hu'
  obtain ⟨k, -, hown, -⟩ := h.pool.keys hi
  obtain ⟨k', -, hown', -⟩ := h.pool.keys hj
  rw [hsport, hsport'] at hport
  have hij := toUInt16_inj hown.lt hown'.lt hport
  subst hij
  exact h.inj hu hu' (h.pool.uniq _ (h.mem.2 ⟨u, hu, rfl⟩) _ (h.mem.2 ⟨u', hu', rfl⟩) i hi hj)

/-! ### Steps that end no connection and open none -/

theorem Leased.congr (h : Leased P sip live s) (hperm : s'.pool.Perm s.pool) (hconns : s'.conns = s.conns)
    (hentry : ∀ c, SameEntry (s.ctx c).entry (s'.ctx c).entry) (hpool : PoolInv sip s'.app live)
    (htable : s'.app.snat_table = s.app.snat_table) : Leased P sip live s' := by
  have hup : ∀ u, Upstream P s' u ↔ Upstream P s u := by
    intro u
    constructor
    · rintro ⟨ha, hp⟩
      exact ⟨(alive_congr hperm).1 ha, by rw [← hconns]; exact hp⟩
    · rintro ⟨ha, hp⟩
      exact ⟨(alive_congr hperm).2 ha, by rw [hconns]; exact hp⟩
  have hkey : ∀ u, ctxKey s' u = ctxKey s u := by
    intro u
    unfold ctxKey
    rw [(hentry u).1]
  refine ⟨hpool, fun {key} => ?_, fun {u u'} hu hu' heq => ?_, fun {u} hu => ?_, fun {c} hc => ?_⟩
  · rw [h.mem]
    simp only [hup, hkey]
  · rw [hkey, hkey] at heq
    exact h.inj ((hup u).1 hu) ((hup u').1 hu') heq
  · rw [htable, hkey, (hentry u).2.2]
    exact h.action ((hup u).1 hu)
  · rw [(hentry c).2.1, hconns]
    exact h.pipe ((alive_congr hperm).1 hc)

theorem Leased.quiet (h : Leased P sip live s) (hq : Quiet s s') : Leased P sip live s' :=
  h.congr (hq.pool ▸ List.Perm.refl _) hq.conns hq.entry (by rw [hq.app]; exact h.pool) (by rw [hq.app])

/-- The pairs after a step that keeps the entries, and the upstream connection of every downstream one that
is left. -/
theorem Paired.congr (h : Paired P s) (hconns : s'.conns = s.conns)
    (hentry : ∀ c, SameEntry (s.ctx c).entry (s'.ctx c).entry)
    (halive : ∀ {c}, Alive P s' c → Alive P s c)
    (hkeep : ∀ u d, Upstream P s u → Downstream P s d → Alive P s' d →
      Answers (s.ctx u).entry (s.ctx d).entry.match_ → Alive P s' u) : Paired P s' := by
  rintro d ⟨ha, hp⟩
  have hd : Downstream P s d := ⟨halive ha, by rw [← hconns]; exact hp⟩
  obtain ⟨u, hu, ⟨h1, h2, h3, h4, h5⟩, h6, h7⟩ := h d hd
  have hu' : Upstream P s' u := by
    refine ⟨hkeep u d hu hd ha ⟨h1, h2, h3, h4, h5⟩, ?_⟩
    rw [hconns]
    exact hu.port
  obtain ⟨hum, -, hua⟩ := hentry u
  obtain ⟨hdm, -, hda⟩ := hentry d
  refine ⟨u, hu', ?_, ?_⟩
  · rw [hdm]
    exact ⟨by rw [hum]; exact h1, by rw [hum]; exact h2, by rw [hum]; exact h3, by rw [hua]; exact h4,
      by rw [hua]; exact h5⟩
  · rw [hda]
    exact ⟨by rw [hum]; exact h6, by rw [hum]; exact h7⟩

theorem Paired.quiet (h : Paired P s) (hq : Quiet s s') : Paired P s' :=
  h.congr hq.conns hq.entry (fun ha => hq.alive.1 ha) fun _ _ hu _ _ _ => hq.alive.2 hu.alive

/-! ### Connections that are opened -/

theorem upstream_opened {p : ℕ} (h : Opened P s s' c p e') :
    Upstream P s' u ↔ Upstream P s u ∨ u = c ∧ p = LAN_PORT := by
  by_cases heq : u = c
  · rw [heq]
    constructor
    · rintro ⟨-, hp⟩
      exact .inr ⟨rfl, h.port.symm.trans hp⟩
    · rintro (⟨ha, -⟩ | ⟨-, hp⟩)
      · exact absurd ha h.free
      · exact ⟨h.alive.2 (.inr rfl), h.port.trans hp⟩
  · constructor
    · rintro ⟨ha, hp⟩
      rw [h.conns heq] at hp
      exact .inl ⟨(h.alive.1 ha).resolve_right heq, hp⟩
    · rintro (⟨ha, hp⟩ | ⟨hc, -⟩)
      · exact ⟨h.alive.2 (.inl ha), by rw [h.conns heq]; exact hp⟩
      · exact absurd hc heq

theorem upstream_ne {p : ℕ} (h : Opened P s s' c p e') (hu : Upstream P s u) : u ≠ c := by
  rintro rfl
  exact h.free hu.alive

theorem ctxKey_opened {p : ℕ} (h : Opened P s s' c p e') :
    ctxKey s' c = keyOf e'.match_ ∧ ∀ {u}, Upstream P s u → ctxKey s' u = ctxKey s u := by
  unfold ctxKey
  refine ⟨by rw [h.entry.1], fun {u} hu => ?_⟩
  rw [h.ctx (upstream_ne h hu)]

theorem pipes_opened {p : ℕ} (h : Opened P s s' c p e') (hl : Leased P sip live s)
    (hpipe : ∃ pipe, e'.pipe = some pipe ∧ pipe.port_id = p) {c' : CtxId} (ha : Alive P s' c') :
    ∃ pipe, (s'.ctx c').entry.pipe = some pipe ∧ pipe.port_id = (s'.conns c').port := by
  by_cases heq : c' = c
  · rw [heq, h.entry.2.1, h.port]
    exact hpipe
  · rw [h.ctx heq, h.conns heq]
    exact hl.pipe ((h.alive.1 ha).resolve_right heq)

/-- **An upstream connection that is opened** is a new live connection of the pool. -/
theorem Leased.openedLan {p : ℕ} (h : Leased P sip live s) (ho : Opened P s s' c p e') (hp : p = LAN_PORT)
    (hpool : PoolInv sip s'.app (keyOf e'.match_ :: live))
    (hnew : ∃ i, s'.app.snat_table (keyOf e'.match_) = some i ∧ e'.action.src_ip = sip ∧
      e'.action.src_port = i.toUInt16)
    (hold : ∀ k j, s.app.snat_table k = some j → s'.app.snat_table k = some j)
    (hpipe : ∃ pipe, e'.pipe = some pipe ∧ pipe.port_id = p) :
    Leased P sip (keyOf e'.match_ :: live) s' := by
  obtain ⟨hself, hkey⟩ := ctxKey_opened ho
  have hfresh : ∀ {u}, Upstream P s u → ctxKey s u ≠ keyOf e'.match_ := by
    intro u hu heq
    exact (List.nodup_cons.1 hpool.distinct).1 (h.mem.2 ⟨u, hu, heq⟩)
  refine ⟨hpool, fun {key} => ?_, fun {u u'} hu hu' heq => ?_, fun {u} hu => ?_, pipes_opened ho h hpipe⟩
  · rw [List.mem_cons, h.mem]
    constructor
    · rintro (rfl | ⟨u, hu, rfl⟩)
      · exact ⟨c, (upstream_opened ho).2 (.inr ⟨rfl, hp⟩), hself⟩
      · exact ⟨u, (upstream_opened ho).2 (.inl hu), hkey hu⟩
    · rintro ⟨u, hu, rfl⟩
      rcases (upstream_opened ho).1 hu with hu | ⟨rfl, -⟩
      · exact .inr ⟨u, hu, (hkey hu).symm⟩
      · exact .inl hself
  · rcases (upstream_opened ho).1 hu with hu | ⟨rfl, -⟩
    · rcases (upstream_opened ho).1 hu' with hu' | ⟨rfl, -⟩
      · rw [hkey hu, hkey hu'] at heq
        exact h.inj hu hu' heq
      · rw [hkey hu, hself] at heq
        exact absurd heq (hfresh hu)
    · rcases (upstream_opened ho).1 hu' with hu' | ⟨rfl, -⟩
      · rw [hkey hu', hself] at heq
        exact absurd heq.symm (hfresh hu')
      · rfl
  · rcases (upstream_opened ho).1 hu with hu | ⟨rfl, -⟩
    · obtain ⟨i, hi, haction⟩ := h.action hu
      refine ⟨i, ?_, ?_⟩
      · rw [hkey hu]
        exact hold _ _ hi
      · rw [ho.ctx (upstream_ne ho hu)]
        exact haction
    · rw [hself, ho.entry.2.2]
      exact hnew

/-- A downstream connection that is opened leaves the pool and the table alone. -/
theorem Leased.openedWan {p : ℕ} (h : Leased P sip live s) (ho : Opened P s s' c p e')
    (hp : p ≠ LAN_PORT) (happ : s'.app = s.app) (hpipe : ∃ pipe, e'.pipe = some pipe ∧ pipe.port_id = p) :
    Leased P sip live s' := by
  obtain ⟨-, hkey⟩ := ctxKey_opened ho
  have hup : ∀ {u}, Upstream P s' u ↔ Upstream P s u := by
    intro u
    rw [upstream_opened ho]
    exact ⟨fun hor => hor.resolve_right fun hc => hp hc.2, .inl⟩
  refine ⟨?_, fun {key} => ?_, fun {u u'} hu hu' heq => ?_, fun {u} hu => ?_, pipes_opened ho h hpipe⟩
  · rw [happ]
    exact h.pool
  · rw [h.mem]
    constructor
    · rintro ⟨u, hu, rfl⟩
      exact ⟨u, hup.2 hu, hkey hu⟩
    · rintro ⟨u, hu, rfl⟩
      exact ⟨u, hup.1 hu, (hkey (hup.1 hu)).symm⟩
  · rw [hkey (hup.1 hu), hkey (hup.1 hu')] at heq
    exact h.inj (hup.1 hu) (hup.1 hu') heq
  · rw [happ, hkey (hup.1 hu), ho.ctx (upstream_ne ho (hup.1 hu))]
    exact h.action (hup.1 hu)

/-- A connection that is opened, from the WAN only to answer an upstream one. -/
theorem Paired.opened {p : ℕ} (h : Paired P s) (ho : Opened P s s' c p e')
    (hnew : p = WAN_PORT → ∃ u, Upstream P s u ∧ Answers (s.ctx u).entry e'.match_ ∧
      LeadsBack (s.ctx u).entry e'.action) : Paired P s' := by
  rintro d ⟨ha, hp⟩
  by_cases heq : d = c
  · rw [heq] at hp ⊢
    obtain ⟨u, hu, hans, hback⟩ := hnew (ho.port.symm.trans hp)
    refine ⟨u, (upstream_opened ho).2 (.inl hu), ?_⟩
    rw [ho.ctx (upstream_ne ho hu), ho.entry.1, ho.entry.2.2]
    exact ⟨hans, hback⟩
  · rw [ho.conns heq] at hp
    obtain ⟨u, hu, hpair⟩ := h d ⟨(ho.alive.1 ha).resolve_right heq, hp⟩
    refine ⟨u, (upstream_opened ho).2 (.inl hu), ?_⟩
    rw [ho.ctx (upstream_ne ho hu), ho.ctx heq]
    exact hpair

/-! ### Connections that end -/

/-- **A connection that ends**: an upstream one gives its pool entry and its keys back. -/
theorem Leased.released (h : Leased (snat GAP) sip live s) (hc : Alive (snat GAP) s c)
    (hrel : Released (snat GAP) s s' c) : ∃ live', Leased (snat GAP) sip live' s' := by
  have happ : agingConnHandler (s.ctx c).entry s.app = .ok s'.app := hrel.app
  have hkey : ∀ u, ctxKey s' u = ctxKey s u := by
    intro u
    unfold ctxKey
    rw [hrel.ctx]
  have hup : ∀ u, Upstream (snat GAP) s' u ↔ Upstream (snat GAP) s u ∧ u ≠ c := by
    intro u
    constructor
    · rintro ⟨ha, hp⟩
      rw [hrel.conns] at hp
      exact ⟨⟨(hrel.alive.1 ha).1, hp⟩, (hrel.alive.1 ha).2⟩
    · rintro ⟨⟨ha, hp⟩, hne⟩
      exact ⟨hrel.alive.2 ⟨ha, hne⟩, by rw [hrel.conns]; exact hp⟩
  have hpipe : ∀ {c'}, Alive (snat GAP) s' c' → ∃ pipe, (s'.ctx c').entry.pipe = some pipe ∧
      pipe.port_id = (s'.conns c').port := by
    intro c' ha
    rw [hrel.ctx, hrel.conns]
    exact h.pipe (hrel.alive.1 ha).1
  obtain ⟨pipe, hcpipe, hport⟩ := h.pipe hc
  unfold agingConnHandler at happ
  rw [hcpipe] at happ
  simp only at happ
  by_cases hlan : pipe.port_id = LAN_PORT
  · have hcu : Upstream (snat GAP) s c := ⟨hc, hport ▸ hlan⟩
    have hlive : ctxKey s c ∈ live := h.mem.2 ⟨c, hcu, rfl⟩
    obtain ⟨i, hown⟩ := h.pool.own _ hlive
    have htable : s.app.snat_table (keyOf (s.ctx c).entry.match_) = some i := hown.up
    rw [if_pos hlan, htable] at happ
    simp only [Except.ok.injEq] at happ
    have hinv : PoolInv sip s'.app (live.erase (ctxKey s c)) := by
      rw [← happ]
      exact h.pool.release ⟨hown, rfl, rfl, rfl⟩ hlive
    refine ⟨_, hinv, fun {key} => ?_, fun {u u'} hu hu' heq => ?_, fun {u} hu => ?_, hpipe⟩
    · rw [h.pool.distinct.mem_erase_iff, h.mem]
      constructor
      · rintro ⟨hne, u, hu, rfl⟩
        exact ⟨u, (hup u).2 ⟨hu, fun heq => hne (by rw [heq])⟩, hkey u⟩
      · rintro ⟨u, hu, rfl⟩
        obtain ⟨hu, hne⟩ := (hup u).1 hu
        rw [hkey]
        exact ⟨fun heq => hne (h.inj hu hcu heq), u, hu, rfl⟩
    · rw [hkey, hkey] at heq
      exact h.inj ((hup u).1 hu).1 ((hup u').1 hu').1 heq
    · obtain ⟨hu, hne⟩ := (hup u).1 hu
      obtain ⟨j, hj, haction⟩ := h.action hu
      refine ⟨j, ?_, by rw [hrel.ctx]; exact haction⟩
      -- the keys of another connection are not those that are taken out
      have hkne : ctxKey s u ≠ ctxKey s c := fun heq => hne (h.inj hu hcu heq)
      have hrne : ctxKey s u ≠ reverseKey (ctxKey s c) (s.app.entries i) := by
        intro heq
        rw [heq, hown.down, Option.some.injEq] at hj
        subst hj
        refine hkne (h.pool.uniq _ (h.mem.2 ⟨u, hu, rfl⟩) _ hlive i ?_ hown.up)
        rw [heq]
        exact hown.down
      rw [hkey, ← happ]
      exact (Function.update_of_ne hrne _ _).trans ((Function.update_of_ne hkne _ _).trans hj)
  · rw [if_neg hlan, Except.ok.injEq] at happ
    -- a downstream connection is not one of the pool's
    have hne : ∀ {u}, Upstream (snat GAP) s u → u ≠ c := by
      rintro u hu rfl
      exact hlan (hport.trans hu.port)
    refine ⟨live, ?_, fun {key} => ?_, fun {u u'} hu hu' heq => ?_, fun {u} hu => ?_, hpipe⟩
    · rw [← happ]
      exact h.pool
    · rw [h.mem]
      constructor
      · rintro ⟨u, hu, rfl⟩
        exact ⟨u, (hup u).2 ⟨hu, hne hu⟩, hkey u⟩
      · rintro ⟨u, hu, rfl⟩
        exact ⟨u, ((hup u).1 hu).1, (hkey u).symm⟩
    · rw [hkey, hkey] at heq
      exact h.inj ((hup u).1 hu).1 ((hup u').1 hu').1 heq
    · rw [hkey, ← happ, hrel.ctx]
      exact h.action ((hup u).1 hu).1

theorem Leased.ends (h : Leased (snat GAP) sip live s) (he : Ends (snat GAP) s cs s') :
    ∃ live', Leased (snat GAP) sip live' s' := by
  induction he generalizing live with
  | nil hq => exact ⟨live, h.quiet hq⟩
  | cons hq ha hrel _ ih =>
    obtain ⟨live', h'⟩ := (h.quiet hq).released (hq.alive.2 ha) hrel
    exact ih h'

/-- The pairs after the end of connections, among them no upstream one without those that answer it. -/
theorem Paired.ends (h : Paired P s) (he : Ends P s cs s')
    (hno : ∀ u d, Upstream P s u → Downstream P s d → Answers (s.ctx u).entry (s.ctx d).entry.match_ →
      u ∈ cs → d ∈ cs) : Paired P s' := by
  obtain ⟨hconns, hentry, halive⟩ := he.spec
  refine h.congr hconns hentry (fun ha => ((halive _).1 ha).1) fun u d hu hd ha hans => ?_
  refine (halive u).2 ⟨hu.alive, fun hin => ?_⟩
  exact ((halive d).1 ha).2 (hno u d hu hd hans hin)

end FlowQoS.Snat
