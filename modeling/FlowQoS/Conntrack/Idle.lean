import FlowQoS.Conntrack.Affinity
import FlowQoS.Conntrack.LifeCycle

/-!
# Idle connections end

The timer of a connection is never armed for more than the expire time from the wheel's clock on, and the
clock is never more than one tick ahead of the time. So where the ticks come in time, a connection without
packets is gone one tick after its expire time, unless the hardware has it (`run_expires`): the other bound to
that of an active connection.
-/

namespace FlowQoS.Conntrack

open Lib Pipe Timer

variable {σ ε : Type} {P : Params σ ε} {L : Allowed} {w w' w₁ : World σ} {mgr mgr' : Mgr} {s s' : Core σ}
  {c c' : CtxId} {m : Mbuf} {env : PacketEnv ε} {k : FlowQoSMatch} {conn : Conn} {now d r : ℕ}

/-! ### Deadlines -/

/-- Every timer is armed for a tick within the expire time of its context. -/
def Deadlines (w : World σ) : Prop :=
  ∀ c d r, (alarms w.1).armed c = some (d, r) →
    d ≤ w.1.timeout + ((w.2.ctx c).entry.expireTime * 1000).toNat

theorem Deadlines.aside (h : Deadlines w) (ha : ∀ c, Aside w w' c) : Deadlines w' := by
  intro c d r hd
  have hc := ha c
  rw [hc.timeout, hc.terms.expireTime]
  rcases hc.armed with heq | hnone
  · exact h c d r (heq ▸ hd)
  · rw [hnone] at hd
    cases hd

/-- A tick takes timers that are due off the wheel, and moves the clock on. -/
theorem tick_armed (h : WorldInv P w) (hT : w.1.timeout + 68719476735 < 2 ^ 64) {rdtsc : ℕ}
    (hrun : step P w (.tick rdtsc) = .ok w') (hd : (alarms w'.1).armed c = some (d, r)) :
    (alarms w.1).armed c = some (d, r) := by
  obtain ⟨-, -, -, heq | ⟨-, heq⟩⟩ := tick_frame h hT hrun
  · exact heq ▸ hd
  · rw [heq] at hd
    by_cases hdue : (alarms w.1).Due c
    · obtain ⟨p, hp⟩ := hdue
      have honce := h.mgr.once hp
      simp [Alarms.advance, hp, honce] at hd
    · rwa [Alarms.advance_of_not_due hdue] at hd

theorem Deadlines.tick (hb : Deadlines w) (h : WorldInv P w) (hT : w.1.timeout + 68719476735 < 2 ^ 64) {rdtsc : ℕ}
    (hrun : step P w (.tick rdtsc) = .ok w') : Deadlines w' := by
  intro c d r hd
  have hle := hb c d r (tick_armed h hT hrun hd)
  obtain ⟨-, hctx, -, hcase⟩ := tick_frame h hT hrun
  have hclock : w.1.timeout ≤ w'.1.timeout := by
    rcases hcase with heq | ⟨-, heq⟩
    · exact (congrArg Alarms.now heq).ge
    · have : w'.1.timeout = w.1.timeout + 1 := congrArg Alarms.now heq
      omega
  rw [hctx]
  omega

/-- A packet of the connection arms the timer again, or leaves it alone. -/
theorem Deadlines.flushTimer (hb : Deadlines w) (hmgr : MgrInv w.1) (hT : w.1.timeout + 68719476735 < 2 ^ 64)
    (hE : (w.2.ctx c).entry.expireTime.toNat * 1000 ≤ timerMaxTimeout) (hrun : flushTimer w c env = .ok w') :
    Deadlines w' := by
  obtain ⟨mgr, s⟩ := w
  rcases flushTimer_cases hrun with ⟨-, r, hreset, rfl⟩ | rfl
  · have hentry : ∀ c', ((s.setCtx c { s.ctx c with lastResetTimerStmp := env.reset_tsc }).ctx c').entry =
        (s.ctx c').entry := by
      intro c'
      simp only [Core.setCtx, Function.update_apply]
      split
      · next heq => rw [heq]
      · rfl
    intro c' d p hd
    show d ≤ r.2.timeout + (((s.setCtx c _).ctx c').entry.expireTime * 1000).toNat
    rw [hentry]
    unfold flowQoSTimerReset at hreset
    by_cases hcb : (mgr.timers c).cb.isSome
    · obtain ⟨links, hspec, -, halarms⟩ := timerReset_spec hmgr.wheel hcb (UInt64.toNat_mul_thousand hE) hT
      rw [hspec] at hreset
      cases hreset
      change (alarms (started mgr c (mgr.timers c).cb (mgr.timers c).cb_args
        ((s.ctx c).entry.expireTime * 1000).toNat 0 links)).armed c' = some (d, p) at hd
      rw [halarms, Alarms.arm_armed] at hd
      split at hd
      · next heq =>
        subst heq
        cases hd
        exact Nat.le_refl _
      · exact hb c' d p hd
    · rw [timerReset_reject (Option.not_isSome_iff_eq_none.1 hcb)] at hreset
      cases hreset
      exact hb c' d p hd
  · exact hb

/-- The timer of a new connection is armed for its expire time. -/
theorem Deadlines.openConn (hb : Deadlines w) (h : Inv P (view w)) (hmgr : MgrInv w.1)
    (hT : w.1.timeout + 68719476735 < 2 ^ 64) {e : FlowQoSEntry} {x : Option CtxId}
    (hE : ∀ c, x = some c → (w'.2.ctx c).entry.expireTime.toNat * 1000 ≤ timerMaxTimeout)
    (hrun : openConn P m e env w = .ok (x, w')) : Deadlines w' := by
  obtain ⟨mgr, s⟩ := w
  rcases openConn_cases hrun with ⟨-, -, rfl⟩ | ⟨f, ret, e', app, -, -, ⟨-, -, rfl⟩ | ⟨-, hadd⟩⟩
  · exact hb
  · exact hb
  rcases addConnToHash_cases hadd with ⟨-, pool, -, rfl, -⟩ | ⟨c', mgr', rfl, hc', hatt, rfl⟩
  · exact hb
  · have hctx : ((s.accept m.port e.match_ app).insert c' e' ⟨s.accepted, m.port⟩ env.start_tsc).ctx c' =
      (s.ctx c').fill c' e' env.start_tsc := Function.update_self _ _ _
    have hfree : c' ∉ armedSet mgr := fun ha => (h.table.armed ha).2 hc'
    have hE' := hE c' rfl
    simp only [hctx] at hE'
    intro c d p hd
    by_cases hne : c = c'
    · subst hne
      obtain ⟨-, htime, hterm⟩ := attachTimer_lease hmgr hT hfree hE' hatt
      simp only [hctx]
      rw [hterm hd, htime]
    · have hsame := attachTimer_sameAlarm hmgr hT hfree hne hatt
      have hother : ((s.accept m.port e.match_ app).insert c' e' ⟨s.accepted, m.port⟩ env.start_tsc).ctx c =
        s.ctx c := Function.update_of_ne hne _ _
      simp only [hother]
      rw [hsame.timeout]
      exact hb c d p (hsame.armed ▸ hd)

/-! ### The timers of a run -/

/-- What holds of the timers in every run. -/
structure Timed (P : Params σ ε) (w : World σ) : Prop where
  inv : WorldInv P w
  attaches : Attaches w.2.attr
  timed : TimedInv P (view w).1 w.2
  bounded : Deadlines w

/-- The timers after some moves, but for the deadlines. -/
theorem Timed.moves (h : Timed P w) (hkeep : Keeps P) (hshort : ShortExpire P)
    (hm : Moves P L (view w) (view w')) : Attaches w'.2.attr ∧ TimedInv P (view w').1 w'.2 := by
  refine (hm.inv (Q := fun u => Attaches u.2.attr ∧ TimedInv P u.1 u.2) ?_ h.inv.ok h.inv.inv
    ⟨h.attaches, h.timed⟩).2
  rintro u u' - hinv ⟨hat, ht⟩ hm
  exact ⟨(attaches_congr hm.sameConfig).2 hat, timed_move hkeep hshort hat hinv ht hm⟩

theorem Timed.forward (h : Timed P w) (hkeep : Keeps P) (hshort : ShortExpire P)
    (hT : w.1.timeout + 68719476735 < 2 ^ 64) (hk : w.2.CT k = some c) {v : Verdict}
    (hrun : forward m w c env = .ok (v, w')) : Deadlines w' := by
  obtain ⟨w₁, haside, hgoes, hk₁, hflush⟩ := forward_offload (L := ⟨True, True⟩) h.inv.ok h.inv.inv h.inv.mgr hk hrun
  obtain ⟨-, hinv₁⟩ := hgoes.inv h.inv.ok h.inv.inv
  obtain ⟨-, ht₁⟩ := h.moves hkeep hshort hgoes.moves
  refine (h.bounded.aside haside).flushTimer hgoes.mgr ?_ (ht₁.short (hinv₁.table.table hk₁).1) hflush
  rw [hgoes.timeout]
  exact hT

/-- **An event** arms no timer for longer than the expire time. -/
theorem Timed.step (h : Timed P w) (hkeep : Keeps P) (hshort : ShortExpire P) {e : Event σ ε}
    (hs : Steps P w e w') : Timed P w' := by
  obtain ⟨hm, hinv'⟩ := hs.moves (L := ⟨True, True⟩) h.inv (fun _ => trivial) fun _ _ => trivial
  obtain ⟨hat', ht'⟩ := h.moves hkeep hshort hm
  have hT : w.1.timeout + 68719476735 < 2 ^ 64 := by
    have := hs.1
    omega
  refine ⟨hinv', hat', ht', ?_⟩
  have haside : (∀ c, Elsewhere w c e) → Deadlines w' := fun helse =>
    h.bounded.aside fun c => step_aside h.inv hT (helse c) hs.2
  cases e with
  | packet m env =>
    obtain ⟨⟨v, w₂⟩, hp, rfl⟩ := map_eq_ok.1 hs.2
    rcases packet_cases hp with ⟨-, -, rfl⟩ | ⟨e, hen, hparse, ⟨c, hk, hfwd⟩ | ⟨habs, x, w₁, hopen, hrest⟩⟩
    · exact h.bounded
    · exact h.forward hkeep hshort hT hk hfwd
    · obtain ⟨hgoes, hnew⟩ := openConn_goes (L := ⟨True, True⟩) h.inv.ok h.inv.inv h.inv.mgr hT
        (fun _ => trivial) hen hparse habs hopen
      obtain ⟨hok₁, hinv₁⟩ := hgoes.inv h.inv.ok h.inv.inv
      obtain ⟨hat₁, ht₁⟩ := h.moves hkeep hshort hgoes.moves
      have hb₁ : Deadlines w₁ := h.bounded.openConn h.inv.inv h.inv.mgr hT
        (fun c hc => ht₁.short (hinv₁.table.table (hnew c hc).1).1) hopen
      rcases hrest with ⟨-, -, -, rfl⟩ | ⟨c, rfl, hfwd⟩
      · exact hb₁
      · have h₁ : Timed P w₁ := ⟨⟨hok₁, hinv₁, hgoes.mgr⟩, hat₁, ht₁, hb₁⟩
        refine h₁.forward hkeep hshort ?_ (hnew c rfl).1 hfwd
        rw [hgoes.timeout]
        exact hT
  | tick rdtsc => exact h.bounded.tick h.inv hT hs.2
  | qos => exact haside fun _ => trivial
  | aging => exact haside fun _ => trivial
  | app => exact haside fun _ => trivial

/-! ### The clock -/

/-- The time after an event, where that before is `now`: the ticks read it. -/
def Event.time (now : ℕ) : Event σ ε → ℕ
  | .tick rdtsc => rdtsc
  | _ => now

/-- An event of a core on which the ticks come in time: no later than the length of a tick after the one
before. -/
def Clocked (P : Params σ ε) (x : World σ × ℕ) (e : Event σ ε) (y : World σ × ℕ) : Prop :=
  Steps P x.1 e y.1 ∧ y.2 = e.time x.2 ∧ x.2 ≤ y.2 ∧ y.2 ≤ x.2 + P.GAP ∧ y.2 + P.GAP < 2 ^ 64

/-- The wheel's clock is within a tick of the time of the last tick, and has not wrapped around. -/
structure InTime (P : Params σ ε) (w : World σ) (now : ℕ) : Prop where
  caughtUp : CaughtUp P w now
  ahead : w.1.startStmp + w.1.timeout * P.GAP ≤ now + P.GAP
  clock : ClockOk P w

/-- A tick whose timestamp is past the wheel's clock moves the clock on. -/
theorem tick_due (h : WorldInv P w) (hT : w.1.timeout + 68719476735 < 2 ^ 64) {rdtsc : ℕ}
    (hrun : step P w (.tick rdtsc) = .ok w') (hdue : (w.1.startStmp + w.1.timeout * P.GAP) % 2 ^ 64 < rdtsc) :
    alarms w'.1 = (alarms w.1).advance := by
  obtain ⟨mgr, s⟩ := w
  obtain ⟨⟨n, w₁⟩, htick, rfl⟩ := map_eq_ok.1 hrun
  unfold flowQoSTimerTick at htick
  rw [if_pos hdue] at htick
  obtain ⟨hS, hfuel⟩ := armed_range h
  obtain ⟨mgr', due, hspec, -, -, -, -, halarms, -, -⟩ := timerTick_spec
    (inert_timerCallback (P := P)) h.mgr.wheel hT hS hfuel
  rw [hspec] at htick
  obtain ⟨s', -, heq⟩ := map_eq_ok.1 htick
  cases heq
  exact halarms

/-- Nothing but the ticks moves the clock. -/
theorem Steps.clock_eq {e : Event σ ε} (hs : Steps P w e w') (h : WorldInv P w) (hne : ∀ rdtsc, e ≠ .tick rdtsc) :
    w'.1.startStmp = w.1.startStmp ∧ w'.1.timeout = w.1.timeout := by
  have hT : w.1.timeout + 68719476735 < 2 ^ 64 := by
    have := hs.1
    omega
  -- to a context that the pool does not have, every event but a tick is elsewhere
  have helse : Elsewhere w P.maxConntrack e := by
    cases e with
    | packet m env =>
      exact ⟨fun hm => Nat.lt_irrefl _ (h.inv.table.pool_lt hm),
        fun e _ _ hk => Nat.lt_irrefl _ (h.inv.table.table hk).1.1⟩
    | tick rdtsc => exact absurd rfl (hne rdtsc)
    | qos => trivial
    | aging => trivial
    | app => trivial
  have ha := step_aside h hT helse hs.2
  exact ⟨ha.startStmp, ha.timeout⟩

theorem InTime.step {x y : World σ × ℕ} (h : InTime P x.1 x.2) (hinv : WorldInv P x.1) {e : Event σ ε}
    (hs : Clocked P x e y) : InTime P y.1 y.2 := by
  obtain ⟨w, now⟩ := x
  obtain ⟨w', now'⟩ := y
  obtain ⟨hcaught, hahead, hclock⟩ := h
  obtain ⟨hstep, htime, hle, hgap, hword⟩ := hs
  unfold CaughtUp at hcaught
  unfold ClockOk at hclock
  simp only at *
  by_cases htick : ∃ rdtsc, e = .tick rdtsc
  · obtain ⟨rdtsc, rfl⟩ := htick
    have hT : w.1.timeout + 68719476735 < 2 ^ 64 := by
      have := hstep.1
      omega
    obtain rfl : now' = rdtsc := htime
    obtain ⟨hstart, -, -, hcase⟩ := tick_frame hinv hT hstep.2
    by_cases hdue : w.1.startStmp + w.1.timeout * P.GAP < now'
    · have hnext : w'.1.timeout = w.1.timeout + 1 :=
        congrArg Alarms.now (tick_due hinv hT hstep.2 (by rwa [Nat.mod_eq_of_lt hclock]))
      refine ⟨?_, ?_, ?_⟩
      · unfold CaughtUp
        rw [hstart, hnext, Nat.add_mul]
        omega
      · rw [hstart, hnext, Nat.add_mul]
        omega
      · unfold ClockOk
        rw [hstart, hnext, Nat.add_mul]
        omega
    · have hsame : w'.1.timeout = w.1.timeout := by
        rcases hcase with heq | ⟨hlt, -⟩
        · exact congrArg Alarms.now heq
        · rw [Nat.mod_eq_of_lt hclock] at hlt
          exact absurd hlt hdue
      refine ⟨?_, ?_, ?_⟩
      · unfold CaughtUp
        rw [hstart, hsame]
        omega
      · rw [hstart, hsame]
        omega
      · unfold ClockOk
        rw [hstart, hsame]
        exact hclock
  · obtain ⟨hstart, htimeout⟩ := hstep.clock_eq hinv fun r hr => htick ⟨r, hr⟩
    have hnow : now' = now := by
      rw [htime]
      cases e with
      | tick rdtsc => exact absurd ⟨rdtsc, rfl⟩ htick
      | packet => rfl
      | qos => rfl
      | aging => rfl
      | app => rfl
    rw [hnow]
    refine ⟨?_, ?_, ?_⟩
    · unfold CaughtUp
      rw [hstart, htimeout]
      exact hcaught
    · rw [hstart, htimeout]
      exact hahead
    · unfold ClockOk
      rw [hstart, htimeout]
      exact hclock

/-! ### Idle connections -/

/-- The event is no packet of the connection. -/
def NoPacket (k : FlowQoSMatch) (w : World σ) : Event σ ε → Prop
  | .packet m _ => ¬ OwnPacket w.2.attr k m
  | _ => True

/-- What holds of a connection whose last packet was before: its timer is not armed again. -/
structure Idle (P : Params σ ε) (k : FlowQoSMatch) (c : CtxId) (conn : Conn) (limit : ℕ) (w : World σ) : Prop where
  accepted : conn.id < w.2.accepted
  limit : InTable w.2 k c conn → ∀ d r, (alarms w.1).armed c = some (d, r) →
    w.1.startStmp + d * P.GAP ≤ limit

theorem Idle.step {limit : ℕ} (h : Idle P k c conn limit w) (hinv : WorldInv P w) {e : Event σ ε}
    (hs : Steps P w e w') (hno : NoPacket k w e) : Idle P k c conn limit w' := by
  have hT : w.1.timeout + 68719476735 < 2 ^ 64 := by
    have := hs.1
    omega
  obtain ⟨hm, -⟩ := hs.moves (L := ⟨True, True⟩) hinv (fun _ => trivial) fun _ _ => trivial
  obtain ⟨hacc, hback⟩ := hm.inTable (k := k) (c := c) h.accepted
  refine ⟨hacc, fun hin' d r hd => ?_⟩
  have hin := hback hin'
  have haside : Elsewhere w c e → w'.1.startStmp + d * P.GAP ≤ limit := by
    intro helse
    have ha := step_aside hinv hT helse hs.2
    rw [ha.startStmp]
    rcases ha.armed with heq | hnone
    · exact h.limit hin d r (heq ▸ hd)
    · rw [hnone] at hd
      cases hd
  cases e with
  | packet m env =>
    obtain ⟨halive, hmatch⟩ := hinv.inv.table.table hin.1
    refine haside ⟨halive.2, fun e hen hparse hk => hno ⟨hen, e, hparse, ?_⟩⟩
    rw [← (hinv.inv.table.table hk).2, hmatch]
  | tick rdtsc =>
    obtain ⟨hstart, -⟩ := tick_frame hinv hT hs.2
    rw [hstart]
    exact h.limit hin d r (tick_armed hinv hT hs.2 hd)
  | qos => exact haside trivial
  | aging => exact haside trivial
  | app => exact haside trivial

end FlowQoS.Conntrack
