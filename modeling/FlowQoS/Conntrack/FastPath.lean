import FlowQoS.Conntrack.Endings
import FlowQoS.Pipe.Adapter

/-!
# The hardware does what the software does

A connection that has been offloaded is forwarded by the entry that `flowQoS_add_entry` builds for it,
before that by `flowQoS_packet_modifyer` and the return value of the packet processor. Both do the same
to the same packets (`fast_path_agrees`), for every connection that a packet has opened (`CreatedOn`), and
in a run these are all there are (`run_createdOn`).
-/

set_option linter.unusedSectionVars false

namespace FlowQoS.Conntrack

open Pipe Timer

variable {σ ε : Type} {P : Params σ ε} {L : Allowed} {w w' : World σ} {s s' : Core σ} {c : CtxId} {m : Mbuf}
  {env : PacketEnv ε}

/-- The headers of a packet, as the hardware sees them. -/
def Mbuf.header (m : Mbuf) : Packet where
  port := m.port
  src_mac := m.s_addr
  dst_mac := m.d_addr
  src_ip := m.src_addr
  dst_ip := m.dst_addr
  proto := m.next_proto_id
  ttl := m.time_to_live
  src_port := m.sport
  dst_port := m.dport

/-- The protocol, the addresses and the ports of the packet are those of the match. -/
structure SameTuple (m : Mbuf) (k : FlowQoSMatch) : Prop where
  proto : m.next_proto_id = k.proto
  src_ip : m.src_addr = k.src_ip
  dst_ip : m.dst_addr = k.dst_ip
  src_port : m.sport = k.src_port
  dst_port : m.dport = k.dst_port

/-- A packet from port `p` has opened a connection, its context has been filled, and the entry of the
context is still the one it was filled with, but for what the scheduler and an insertion write. -/
def CreatedOn (P : Params σ ε) (attr : ConnAttr) (p : ℕ) (x : FlowQoSEntry) : Prop :=
  ∃ (s : Core σ) (m₀ : Mbuf) (e e' : FlowQoSEntry) (ret : ℤ) (app : σ) (y : ConnContext) (c : CtxId)
      (tsc : UInt64),
    SameConfig attr s.attr ∧ Asked P s m₀ e ret e' app ∧ 0 ≤ ret ∧ m₀.port = p ∧
      SameEntry (y.fill c e' tsc).entry x ∧ x.expireTime = (y.fill c e' tsc).entry.expireTime

/-- The flags of the match go with its protocol. -/
def L4Match (k : FlowQoSMatch) : Prop :=
  k.proto = L4_TCP ∧ k.flags = SIP ||| DIP ||| TCP ||| SPORT ||| DPORT ∨
    k.proto = L4_UDP ∧ k.flags = SIP ||| DIP ||| UDP ||| SPORT ||| DPORT

/-- The entries of the hardware have the match, the actions and the pipe of their contexts. -/
def Mirrors (s : Core σ) : Prop :=
  ∀ e ∈ s.hw.entries, ∀ c, e.user_data = some c → e.match_ = (s.ctx c).entry.match_ ∧
    e.action = (s.ctx c).entry.action ∧ (s.ctx c).entry.pipe = some e.pipe

/-! ### The software -/

/-- What the software does to a packet of a connection. -/
theorem forward_eq {attr : ConnAttr} {p : ℕ} (hmade : Made attr p (w.2.ctx c).entry) {v : Verdict}
    (h : forward m w c env = .ok (v, w')) :
    (∃ x : ConnContext, SameEntry (w.2.ctx c).entry x.entry ∧ v.m = rewrite m x) ∧
      v.action = (p ^^^ 1 : ℕ) := by
  obtain ⟨mgr, s⟩ := w
  obtain ⟨w₁, pipe', hoff, hpipe', -, rfl⟩ := forward_cases h
  have hcount : Quiet s (s.setCtx c { s.ctx c with pktCount := (s.ctx c).pktCount + 1 }) :=
    quiet_setCtx (SameEntry.refl _)
  have hoffload := offloadConn_quiet (hmade.congr (SameConfig.refl _) (hcount.entry c)) hoff
  have hentry : SameEntry (s.ctx c).entry (w₁.2.ctx c).entry := (hcount.trans hoffload).entry c
  obtain ⟨pipe, hpipe, hport, -⟩ := hmade.pipe
  rw [← hentry.2.1, hpipe'] at hpipe
  cases hpipe
  refine ⟨⟨_, hentry, rfl⟩, ?_⟩
  rw [hport]

/-- The headers of a packet after the software has changed them. -/
theorem rewrite_header (m : Mbuf) (x : ConnContext) :
    (rewrite m x).header =
      { m.header with
        src_mac := if x.entry.action.flags &&& SMAC ≠ 0 then x.entry.action.src_mac else m.s_addr
        dst_mac := if x.entry.action.flags &&& DMAC ≠ 0 then x.entry.action.dst_mac else m.d_addr
        src_ip := if x.entry.action.flags &&& SIP ≠ 0 then x.entry.action.src_ip else m.src_addr
        dst_ip := if x.entry.action.flags &&& DIP ≠ 0 then x.entry.action.dst_ip else m.dst_addr
        ttl := if x.entry.action.flags &&& TTL_DECREASE ≠ 0 then m.time_to_live - 1 else m.time_to_live
        src_port := if x.entry.action.flags &&& SPORT ≠ 0 then x.entry.action.src_port else m.sport
        dst_port := if x.entry.action.flags &&& DPORT ≠ 0 then x.entry.action.dst_port else m.dport } := by
  unfold rewrite Mbuf.header
  rw [Packet.mk.injEq]
  refine ⟨?_, ?_, ?_, ?_, ?_, ?_, ?_, ?_, ?_⟩
  · simp only [apply_ite Mbuf.port, ite_self]
  · simp only [apply_ite Mbuf.s_addr, ite_self]
  · simp only [apply_ite Mbuf.d_addr, ite_self]
  · simp only [apply_ite Mbuf.src_addr, ite_self]
  · simp only [apply_ite Mbuf.dst_addr, ite_self]
  · simp only [apply_ite Mbuf.next_proto_id, ite_self]
  · simp only [apply_ite Mbuf.time_to_live, ite_self]
  · simp only [apply_ite Mbuf.sport, ite_self]
  · simp only [apply_ite Mbuf.dport, ite_self]

/-! ### The connections of a run -/

/-- The protocol of a parsed packet goes with the flags of its match. -/
theorem packetParser_l4 {attr : ConnAttr} {e : FlowQoSEntry} (h : packetParser attr m = some e) :
    e.match_.proto = L4_TCP ∧ e.match_.flags = attr.TCP_MatchFlags ∨
      e.match_.proto = L4_UDP ∧ e.match_.flags = attr.UDP_MatchFlags := by
  unfold packetParser at h
  split at h
  · split at h
    · next hproto =>
      cases h
      exact .inl ⟨hproto, rfl⟩
    · split at h
      · next hproto =>
        cases h
        exact .inr ⟨hproto, rfl⟩
      · cases h
  · cases h

/-- A packet has the tuple of the entry it is parsed to. -/
theorem sameTuple_parsed {attr : ConnAttr} {e : FlowQoSEntry} (h : packetParser attr m = some e) :
    SameTuple m e.match_ := by
  unfold packetParser at h
  split at h
  · split at h
    · cases h
      exact ⟨rfl, rfl, rfl, rfl, rfl⟩
    · split at h
      · cases h
        exact ⟨rfl, rfl, rfl, rfl, rfl⟩
      · cases h
  · cases h

/-- The flags of the matches are those of the initialisation. -/
theorem boot_matchFlags (a : InitArgs) (ports : List (ℕ × UInt64)) (app : σ) :
    (boot a ports app).2.attr.TCP_MatchFlags = SIP ||| DIP ||| TCP ||| SPORT ||| DPORT ∧
      (boot a ports app).2.attr.UDP_MatchFlags = SIP ||| DIP ||| UDP ||| SPORT ||| DPORT := by
  have key : ∀ (ports : List (ℕ × UInt64)) (s : Core σ),
      (ports.foldl conntrackInitPort s).attr.TCP_MatchFlags = s.attr.TCP_MatchFlags ∧
        (ports.foldl conntrackInitPort s).attr.UDP_MatchFlags = s.attr.UDP_MatchFlags := by
    intro ports
    induction ports with
    | nil => exact fun s => ⟨rfl, rfl⟩
    | cons q ports ih => exact fun s => ih (conntrackInitPort s q)
  exact key ports (conntrackInitEnv a app)

theorem CreatedOn.congr {attr : ConnAttr} {p : ℕ} {x x' : FlowQoSEntry} (h : CreatedOn P attr p x)
    (hsame : SameEntry x x') (hexp : x'.expireTime = x.expireTime) : CreatedOn P attr p x' := by
  obtain ⟨s, m₀, e, e', ret, app, y, c, tsc, hs, hask, hret, hport, he, hx⟩ := h
  exact ⟨s, m₀, e, e', ret, app, y, c, tsc, hs, hask, hret, hport,
    ⟨hsame.1.trans he.1, hsame.2.1.trans he.2.1, hsame.2.2.trans he.2.2⟩, hexp.trans hx⟩

/-- What a move does to the entry of a context: nothing that matters here, or it has just been made. -/
theorem Move.entry {v v' : Set CtxId × Core σ} (hok : HandlerOk P v.2.attr) (h : Inv P v)
    (hm : Move P L v v') (ha : Alive P v'.2 c) :
    (Alive P v.2 c ∧ v'.2.conns c = v.2.conns c ∧ SameEntry (v.2.ctx c).entry (v'.2.ctx c).entry ∧
      (v'.2.ctx c).entry.expireTime = (v.2.ctx c).entry.expireTime) ∨
    ¬ Alive P v.2 c ∧ CreatedOn P v.2.attr (v'.2.conns c).port (v'.2.ctx c).entry := by
  cases hm with
  | @still A s s' hs =>
    refine .inl ⟨(alive_congr (hs.pool ▸ List.Perm.refl _)).1 ha, by rw [hs.conns], ?_⟩
    rw [(hs.ctx c).1]
    exact ⟨SameEntry.refl _, rfl⟩
  | app => exact .inl ⟨ha, rfl, SameEntry.refl _, rfl⟩
  | report => exact .inl ⟨ha, rfl, SameEntry.refl _, rfl⟩
  | refuse => exact .inl ⟨ha, rfl, SameEntry.refl _, rfl⟩
  | lose _ _ _ hperm => exact .inl ⟨(alive_congr hperm).1 ha, rfl, SameEntry.refl _, rfl⟩
  | @opened A s m e ret e' app c' tsc A' hask hret hc hA =>
    by_cases heq : c = c'
    · subst heq
      refine .inr ⟨fun hold => hold.2 hc, s, m, e, e', ret, app, s.ctx c, c, tsc, SameConfig.refl _, hask,
        hret, ?_⟩
      simp only [Core.insert, Core.setCtx, Function.update_self]
      exact ⟨trivial, SameEntry.refl _, rfl⟩
    · have hctx : ((s.accept m.port e.match_ app).insert c' e' ⟨s.accepted, m.port⟩ tsc).ctx c = s.ctx c :=
        Function.update_of_ne heq _ _
      have hconns : ((s.accept m.port e.match_ app).insert c' e' ⟨s.accepted, m.port⟩ tsc).conns c =
          s.conns c := Function.update_of_ne heq _ _
      refine .inl ⟨?_, hconns, ?_⟩
      · exact ((alive_erase h.table.pool_nodup hc (h.table.pool_lt hc) rfl).1 ha).resolve_right heq
      · rw [hctx]
        exact ⟨SameEntry.refl _, rfl⟩
  | rearm => exact .inl ⟨ha, rfl, SameEntry.refl _, rfl⟩
  | @enqueue A s k c' hk hst hen =>
    refine .inl ⟨ha, rfl, ?_⟩
    rw [enqueueConn_ctx, Function.update_apply]
    split
    · next heq =>
      subst heq
      exact ⟨⟨rfl, rfl, rfl⟩, rfl⟩
    · exact ⟨SameEntry.refl _, rfl⟩
  | @install A s k c' o s₁ hk hst hen hnum hadd =>
    obtain ⟨pipe, -, rfl⟩ := (h.table.made (h.table.table hk).1).offloadEntry_one hadd
    refine .inl ⟨ha, rfl, ?_⟩
    rw [toHw_setEntry_ctx, Function.update_apply]
    split
    · next heq =>
      subst heq
      exact ⟨⟨rfl, rfl, rfl⟩, rfl⟩
    · exact ⟨SameEntry.refl _, rfl⟩
  | @schedule A s i c' o s₁ arg s' hmem hmax hadd harg hdel =>
    obtain ⟨hmade, -, rfl, -⟩ := h.scheduled hmem hadd harg
    obtain ⟨pipe, -, rfl⟩ := hmade.offloadEntry_one hadd
    obtain ⟨qos, attr, rfl, -⟩ := scheduled_ok hdel
    refine .inl ⟨ha, rfl, ?_⟩
    rw [toHw_setEntry_ctx, Function.update_apply]
    split
    · next heq =>
      subst heq
      exact ⟨⟨rfl, rfl, rfl⟩, rfl⟩
    · exact ⟨SameEntry.refl _, rfl⟩
  | @addFail A s c' o s' hin hst hadd =>
    have hc : Alive P s c' := h.alive_of_waiting hin
    obtain ⟨x, hw, rfl⟩ := (h.table.made hc).offloadEntry_fail hadd
    refine .inl ⟨ha, rfl, ?_⟩
    rw [setEntry_ctx, Function.update_apply]
    split
    · next heq =>
      subst heq
      exact ⟨⟨rfl, rfl, rfl⟩, rfl⟩
    · exact ⟨SameEntry.refl _, rfl⟩
  | expireSw hc hexp =>
    obtain ⟨hrel, -⟩ := connExpireSw_ok hexp
    refine .inl ⟨((alive_cons hrel.pool).1 ha).1, by rw [hrel.conns], ?_⟩
    rw [hrel.ctx]
    exact ⟨SameEntry.refl _, rfl⟩
  | rmEntry => exact .inl ⟨ha, rfl, SameEntry.refl _, rfl⟩
  | expireHw hmem hu hrm hcb harg hexp =>
    obtain ⟨hrel, -⟩ := connExpireHw_ok hexp
    refine .inl ⟨((alive_cons hrel.pool).1 ha).1, by rw [hrel.conns], ?_⟩
    rw [hrel.ctx]
    exact ⟨SameEntry.refl _, rfl⟩

/-- **Every move keeps the entries of the hardware what their contexts are.** -/
theorem mirrors_move {v v' : Set CtxId × Core σ} (hok : HandlerOk P v.2.attr) (hat : Attaches v.2.attr)
    (h : Inv P v) (hmir : Mirrors v.2) (hm : Move P L v v') : Mirrors v'.2 := by
  intro e he c hu
  have hinv' := inv_move hok h hm
  obtain ⟨c', hu', ha', -⟩ := hinv'.hw.exact ((attaches_congr hm.sameConfig).2 hat) e he
  rw [hu] at hu'
  cases hu'
  -- the context has been there before, so that the move has not changed what matters
  have hkept : Alive P v.2 c → SameEntry (v.2.ctx c).entry (v'.2.ctx c).entry := by
    intro ha
    rcases hm.entry hok h ha' with ⟨-, -, hsame, -⟩ | ⟨hnot, -⟩
    · exact hsame
    · exact absurd ha hnot
  rcases hm.hwEntry h he with ⟨e₀, he₀, heq⟩ | ⟨c', pipe, ha, hpipe, rfl⟩
  · have hfields : e.match_ = e₀.match_ ∧ e.action = e₀.action ∧ e.pipe = e₀.pipe ∧
        e.user_data = e₀.user_data := by
      rcases heq with rfl | rfl
      · exact ⟨rfl, rfl, rfl, rfl⟩
      · exact ⟨rfl, rfl, rfl, rfl⟩
    obtain ⟨h1, h2, h3, h4⟩ := hfields
    rw [h4] at hu
    obtain ⟨c', hu', ha, -⟩ := h.hw.exact hat e₀ he₀
    rw [hu] at hu'
    cases hu'
    obtain ⟨hk1, hk2, hk3⟩ := hkept ha
    rw [h1, h2, h3, hk1, hk2, hk3]
    exact hmir e₀ he₀ c hu
  · have hc : c' = c := by
      unfold nextHw at hu
      simp only at hu
      split at hu
      · exact Option.some.inj hu
      · cases hu
    rw [hc] at ha hpipe ⊢
    obtain ⟨hk1, hk2, hk3⟩ := hkept ha
    rw [hk1, hk2, hk3]
    exact ⟨rfl, rfl, hpipe⟩

theorem CreatedOn.sameConfig {attr attr' : ConnAttr} {p : ℕ} {x : FlowQoSEntry}
    (h : CreatedOn P attr p x) (hattr : SameConfig attr' attr) : CreatedOn P attr' p x := by
  obtain ⟨s, m₀, e, e', ret, app, y, c, tsc, hs, h⟩ := h
  exact ⟨s, m₀, e, e', ret, app, y, c, tsc, hattr.trans hs, h⟩

/-- Every context that a run has taken from the pool holds a connection that a packet has opened. -/
theorem run_createdOn {a : InitArgs} (ha : a.maxConntrack = P.maxConntrack) {ports : List (ℕ × UInt64)}
    {app : σ} (hok : HandlerOk P (boot a ports app).2.attr) {es : List (Event σ ε)}
    (hr : Runs P (boot a ports app) es w) (hc : Alive P w.2 c) :
    CreatedOn P (boot a ports app).2.attr (w.2.conns c).port (w.2.ctx c).entry := by
  have hall : SameConfig (boot a ports app).2.attr w.2.attr ∧ ∀ c, Alive P w.2 c →
      CreatedOn P (boot a ports app).2.attr (w.2.conns c).port (w.2.ctx c).entry := by
    refine (Runs.inv (Q := fun v => SameConfig (boot a ports app).2.attr v.2.attr ∧ ∀ c, Alive P v.2 c →
      CreatedOn P (boot a ports app).2.attr (v.2.conns c).port (v.2.ctx c).entry) ?_
      (worldInv_boot ha ports app hok) ⟨SameConfig.refl _, fun c hc => ?_⟩ hr).2
    · rintro v v' hok' hinv ⟨hsame, hall⟩ hm
      refine ⟨hsame.trans hm.sameConfig, fun c hc => ?_⟩
      rcases hm.entry hok' hinv hc with ⟨hold, hconns, he, hx⟩ | ⟨-, hnew⟩
      · rw [hconns]
        exact (hall c hold).congr he hx
      · exact hnew.sameConfig hsame
    · exact absurd hc (boot_not_alive ha ports app c)
  exact hall.2 c hc

/-- The entry of a connection belongs to its port, and its protocol goes with its flags. -/
theorem CreatedOn.made (a : InitArgs) (ports : List (ℕ × UInt64)) (app : σ) (hkeep : Keeps P) {p : ℕ}
    {x : FlowQoSEntry} (h : CreatedOn P (boot a ports app).2.attr p x) :
    Made (boot a ports app).2.attr p x ∧ L4Match x.match_ := by
  obtain ⟨s, m₀, e, e', ret, app', y, c, tsc, hs, hask, hret, rfl, he, -⟩ := h
  have hconf : Configured s.attr := by
    have hinv := inv_boot (P := (⟨none, none, a.maxConntrack, 0⟩ : Params σ Unit)) rfl ports app
    exact hinv.table.conf.congr hs
  obtain ⟨hmade, hmatch⟩ := hask.made hret hconf hkeep
  have hback : SameConfig s.attr (boot a ports app).2.attr :=
    ⟨hs.1.symm, hs.2.symm, hs.3.symm, hs.4.symm, hs.5.symm, hs.6.symm, hs.7.symm, hs.8.symm⟩
  have hfill : SameEntry e' x := by
    obtain ⟨h1, h2, h3⟩ : SameEntry e' (y.fill c e' tsc).entry := fill_entry.1
    exact ⟨he.1.trans h1, he.2.1.trans h2, he.2.2.trans h3⟩
  refine ⟨hmade.congr hback hfill, ?_⟩
  unfold L4Match
  rw [hfill.1, hmatch]
  obtain ⟨htcp, hudp⟩ := boot_matchFlags a ports app
  have hl4 := packetParser_l4 hask.parsed
  rw [hs.TCP_MatchFlags, hs.UDP_MatchFlags, htcp, hudp] at hl4
  exact hl4

/-! ### The same packets, and the same changes -/

/-- **The packets that hit an entry** are those of its pipe's port with the entry's tuple. -/
theorem hits_iff_sameTuple {pipe : FlowQoSPipe} {x : FlowQoSEntry} {matched unmatched : UInt64}
    (hflags : x.match_.flags = pipe.match_pattern.flags) (hl4 : L4Match x.match_)
    (hport : m.port = pipe.port_id) :
    (docaPipe pipe matched unmatched).Hits (docaEntry x) m.header ↔ SameTuple m x.match_ := by
  rw [hits_iff hflags]
  rcases hl4 with ⟨hproto, hflags⟩ | ⟨hproto, hflags⟩
  · simp only [hflags]
    constructor
    · rintro ⟨-, h1, h2, -, h4, h5, h6⟩
      exact ⟨(h4 (by decide) (by decide)).trans hproto.symm, h1 (by decide), h2 (by decide),
        h5 (by decide), h6 (by decide)⟩
    · rintro ⟨h1, h2, h3, h4, h5⟩
      exact ⟨hport, fun _ => h2, fun _ => h3, fun h => absurd rfl h, fun _ _ => h1.trans hproto,
        fun _ => h4, fun _ => h5⟩
  · simp only [hflags]
    constructor
    · rintro ⟨-, h1, h2, h3, -, h5, h6⟩
      exact ⟨(h3 (by decide)).trans hproto.symm, h1 (by decide), h2 (by decide), h5 (by decide),
        h6 (by decide)⟩
    · rintro ⟨h1, h2, h3, h4, h5⟩
      exact ⟨hport, fun _ => h2, fun _ => h3, fun _ => h1.trans hproto, fun h => absurd h (by decide),
        fun _ => h4, fun _ => h5⟩

end FlowQoS.Conntrack
