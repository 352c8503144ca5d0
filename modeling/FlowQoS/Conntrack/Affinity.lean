import FlowQoS.Conntrack.FastPath
import FlowQoS.Conntrack.Keepalive
import FlowQoS.Conntrack.Ledger

/-!
# One connection, one treatment

What `newConn_handler` chooses for the first packet of a connection (the real server, the public address, the
path) is kept in the entry of its context. No event but the end of the connection touches it, so that all
packets of the connection are changed in the same way and leave by the same port, in software and in hardware
(`run_affinity`).
-/

namespace FlowQoS.Conntrack

open Lib Pipe Timer

variable {σ ε : Type} {P : Params σ ε} {L : Allowed} {w w' w₁ w₂ : World σ} {s s' : Core σ} {c : CtxId}
  {m m₁ m₂ : Mbuf} {env env₁ env₂ : PacketEnv ε} {k : FlowQoSMatch} {v v₁ v₂ : Verdict}

/-! ### A packet -/

/-- How a packet is changed depends on the match and the actions of the entry. -/
theorem rewrite_congr {x y : ConnContext} (h : SameEntry x.entry y.entry) (m : Mbuf) :
    rewrite m y = rewrite m x := by
  obtain ⟨hmatch, -, haction⟩ := h
  unfold rewrite
  rw [hmatch, haction]

theorem SameEntry.trans {e e' e'' : FlowQoSEntry} (h : SameEntry e e') (h' : SameEntry e' e'') : SameEntry e e'' :=
  ⟨h'.1.trans h.1, h'.2.1.trans h.2.1, h'.2.2.trans h.2.2⟩

/-- A packet comes, on a core whose tick count is not about to wrap around. -/
def Processes (P : Params σ ε) (w : World σ) (m : Mbuf) (env : PacketEnv ε) (v : Verdict) (w' : World σ) : Prop :=
  w.1.timeout < 2 ^ 64 - 2 ^ 36 ∧ conntrackPacketProcessor P m env w = .ok (v, w')

theorem Processes.steps (h : Processes P w m env v w') : Steps P w (.packet m env) w' := by
  obtain ⟨hT, hrun⟩ := h
  refine ⟨hT, ?_⟩
  show Except.map Prod.snd (conntrackPacketProcessor P m env w) = _
  rw [hrun]
  rfl

/-- **A packet that is forwarded** is changed as the entry of its context says. -/
theorem Processes.rewrites (h : WorldInv P w) (hrun : Processes P w m env v w') (hv : v.ctx = some c) :
    ∃ k, OwnPacket w.2.attr k m ∧ w'.2.CT k = some c ∧ v.m = rewrite m (w'.2.ctx c) ∧
      v.action = ((w'.2.conns c).port ^^^ 1 : ℕ) := by
  obtain ⟨hT, hrun⟩ := hrun
  have hT' : w.1.timeout + 68719476735 < 2 ^ 64 := by omega
  -- a packet of a connection in the table
  have key : ∀ {w₁ : World σ} {k : FlowQoSMatch} {c' : CtxId}, WorldInv P w₁ → w₁.1.timeout = w.1.timeout →
      w₁.2.CT k = some c' → forward m w₁ c' env = .ok (v, w') →
      w'.2.CT k = some c ∧ v.m = rewrite m (w'.2.ctx c) ∧ v.action = ((w'.2.conns c).port ^^^ 1 : ℕ) := by
    intro w₁ k c' h₁ hT₁ hk hfwd
    obtain ⟨-, hholds, hctx, ⟨x, hx, hm⟩, pipe, hpipe, hact⟩ :=
      forward_goes (L := ⟨True, True⟩) h₁.ok h₁.inv h₁.mgr (by rw [hT₁]; exact hT') hk hfwd
    obtain rfl : c' = c := Option.some.inj (hctx.symm.trans hv)
    obtain ⟨pipe', hpipe', hport, -⟩ := (h₁.inv.table.made (h₁.inv.table.table hk).1).pipe
    obtain rfl : pipe = pipe' := Option.some.inj (hpipe.symm.trans hpipe')
    refine ⟨by rw [hholds.CT]; exact hk, ?_, ?_⟩
    · rw [hm, rewrite_congr hx, rewrite_congr hholds.entry]
    · rw [hact, hport, hholds.conns]
      rfl
  rcases packet_cases hrun with ⟨-, hnone, -⟩ | ⟨e, hen, hparse, ⟨c', hk, hfwd⟩ |
    ⟨habs, r, w₁, hopen, ⟨-, -, hnone, -⟩ | ⟨c', rfl, hfwd⟩⟩⟩
  · rw [hnone] at hv
    cases hv
  · exact ⟨e.match_, ⟨hen, e, hparse, rfl⟩, key h rfl hk hfwd⟩
  · rw [hnone] at hv
    cases hv
  · obtain ⟨hgoes, hnew⟩ := openConn_goes (L := ⟨True, True⟩) h.ok h.inv h.mgr hT' (fun _ => trivial) hen hparse
      habs hopen
    obtain ⟨hok₁, hinv₁⟩ := hgoes.inv h.ok h.inv
    exact ⟨e.match_, ⟨hen, e, hparse, rfl⟩,
      key ⟨hok₁, hinv₁, hgoes.mgr⟩ hgoes.timeout (hnew c' rfl).1 hfwd⟩

/-! ### What lasts of a connection -/

theorem Moves.accepted_le {u u' : Set CtxId × Core σ} (hm : Moves P L u u') : u.2.accepted ≤ u'.2.accepted := by
  induction hm with
  | refl => exact Nat.le_refl _
  | tail _ hm ih => exact Nat.le_trans ih hm.accepted_le

/-- **A context that still holds a connection of before** holds it under the same entry. -/
theorem Moves.entry {u u' : Set CtxId × Core σ} (hok : HandlerOk P u.2.attr) (h : Inv P u) (hm : Moves P L u u')
    (hc : Alive P u'.2 c) (hold : (u'.2.conns c).id < u.2.accepted) :
    Alive P u.2 c ∧ u'.2.conns c = u.2.conns c ∧ SameEntry (u.2.ctx c).entry (u'.2.ctx c).entry := by
  induction hm with
  | refl => exact ⟨hc, rfl, SameEntry.refl _⟩
  | @tail u₁ u₂ hms hm ih =>
    obtain ⟨hok₁, hinv₁⟩ : HandlerOk P u₁.2.attr ∧ Inv P u₁ :=
      ⟨hok.congr (Moves.sameConfig hms), inv_moves hok h hms⟩
    rcases hm.entry hok₁ hinv₁ hc with ⟨hc₁, hconns, hentry, -⟩ | ⟨hnot, -⟩
    · rw [hconns] at hold
      obtain ⟨hc₀, hconns₀, hentry₀⟩ := ih hc₁ hold
      exact ⟨hc₀, hconns.trans hconns₀, hentry₀.trans hentry⟩
    · -- a context that has been filled by the move holds a connection that was accepted then
      have hinv₂ := inv_move hok₁ hinv₁ hm
      have htable : InTable u₁.2 _ c (u₂.2.conns c) :=
        InTable.of_move hm (Nat.lt_of_lt_of_le hold (Moves.accepted_le hms)) ⟨hinv₂.table.stored hc, rfl⟩
      exact absurd (hinv₁.table.table htable.1).1 hnot

/-- A run is a sequence of moves. -/
theorem Runs.moves (h : WorldInv P w) {es : List (Event σ ε)} (hr : Runs P w es w') :
    WorldInv P w' ∧ Moves P ⟨True, True⟩ (view w) (view w') := by
  refine Trace.inv (P := fun w' => WorldInv P w' ∧ Moves P ⟨True, True⟩ (view w) (view w')) ?_ hr ⟨h, .refl⟩
  rintro u e u' ⟨hu, hms⟩ hs
  obtain ⟨hm, hu'⟩ := hs.moves (L := ⟨True, True⟩) hu (fun _ => trivial) fun _ _ => trivial
  exact ⟨hu', hms.trans hm⟩

/-- The entries of the hardware are what their contexts are, in every run. -/
theorem run_mirrors {a : InitArgs} (ha : a.maxConntrack = P.maxConntrack) {ports : List (ℕ × UInt64)} {app : σ}
    (hok : HandlerOk P (boot a ports app).2.attr) (hat : Attaches (boot a ports app).2.attr)
    {es : List (Event σ ε)} (hr : Runs P (boot a ports app) es w) : Mirrors w.2 := by
  refine (Runs.inv (Q := fun u => Attaches u.2.attr ∧ Mirrors u.2) ?_ (worldInv_boot ha ports app hok)
    ⟨hat, fun e he => ?_⟩ hr).2.2
  · rintro u u' hok hinv ⟨hat, hmir⟩ hm
    exact ⟨(attaches_congr hm.sameConfig).2 hat, mirrors_move hok hat hinv hmir hm⟩
  · change e ∈ (boot a ports app).2.hw.entries at he
    rw [boot_hw] at he
    cases he

/-- A packet of a connection in the table gets the context of the connection. -/
theorem Processes.holds (h : WorldInv P w) (hrun : Processes P w m env v w') (hown : OwnPacket w.2.attr k m)
    (hk : w.2.CT k = some c) : v.ctx = some c ∧ Holds w.2 w'.2 c := by
  obtain ⟨hT, hrun⟩ := hrun
  rcases hown.cases hrun with ⟨c', hk', hfwd⟩ | ⟨habs, -⟩
  · obtain rfl : c = c' := Option.some.inj (hk.symm.trans hk')
    obtain ⟨-, hholds, hv, -⟩ := forward_goes (L := ⟨True, True⟩) h.ok h.inv h.mgr (by omega) hk hfwd
    exact ⟨hv, hholds⟩
  · rw [hk] at habs
    cases habs

end FlowQoS.Conntrack
