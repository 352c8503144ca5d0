import FlowQoS.Timer.Run

/-!
# Timers and the timestamp counter

`flowQoS_timer_tick` moves the wheel on by at most one tick a call, so the wheel's clock falls behind
the timestamp counter when the calls start late or are held up, and catches up one tick a call after
that. A deadline is counted from the wheel's clock, and a timer that is armed while the wheel is
behind is fired early by the ticks that catch up.

The calls of a core are listed with the timestamp at which each is made. `NeverEarly` says that no
call of `flowQoS_timer_tick` fires a timer before its timeout, less one tick, has passed on the
timestamp counter since the timer was armed.

* `RealTimeInv`: a deadline on the wheel lies no earlier than the one in real time;
* `run_never_early`: so it is in every run that arms its timers with a wheel at most one tick behind;
* `late_wheel_fires_early`: a timer armed with a wheel that is further behind.
-/

set_option linter.unusedSectionVars false

namespace FlowQoS.Timer

open Lib Links

/-- A call into the timer library by the core that owns the manager. -/
inductive TimerCall (τ κ α : Type*) where
  | add (t : τ) (cb : Option κ) (args : Option α) (timeout : ℕ)
  | reset (t : τ) (timeout : ℕ)
  | tick

variable {τ κ α ω : Type*} [DecidableEq τ]

/-- The callback, with a list of the timers it was called for. -/
def noted (call : Callback τ κ α ω) : Callback τ κ α (ω × List τ) := fun cb t s =>
  (call cb t (s.1, s.2.1)).map fun r => (r.1, r.2, s.2.2 ++ [t])

/-- A call at the timestamp `now`, with the timers it fired. -/
def TimerCall.run (call : Callback τ κ α ω) (fuel gap now : ℕ) :
    TimerCall τ κ α → FlowQoSTimerMgr τ κ α × ω → Except Fault (List τ × FlowQoSTimerMgr τ κ α × ω)
  | .add t cb args timeout, s =>
    (flowQoSTimerAdd s.1 t cb args timeout).map fun r => ([], r.2, s.2)
  | .reset t timeout, s => (flowQoSTimerReset s.1 t timeout).map fun r => ([], r.2, s.2)
  | .tick, s =>
    (flowQoSTimerTick (noted call) fuel gap now (s.1, s.2, [])).map fun r =>
      (r.2.2.2, r.2.1, r.2.2.1)

/-- The calls with their timestamps, and for each of them the timers it fired. -/
def runCalls (call : Callback τ κ α ω) (fuel gap : ℕ) :
    List (ℕ × TimerCall τ κ α) → FlowQoSTimerMgr τ κ α × ω →
      Except Fault (List (List τ) × FlowQoSTimerMgr τ κ α × ω)
  | [], s => .ok ([], s)
  | (now, c) :: calls, s =>
    match c.run call fuel gap now s with
    | .error e => .error e
    | .ok (l, s) => (runCalls call fuel gap calls s).map fun r => (l :: r.1, r.2)

/-! ### What the calls ask for -/

/-- The call arms `t` with this timeout, if it is a reset then only a timer that has been added
before. A call with a timeout the wheel cannot hold arms nothing. -/
def TimerCall.Arms (t : τ) (timeout : ℕ) : TimerCall τ κ α → Prop
  | .add u cb _ d => u = t ∧ d = timeout ∧ cb.isSome ∧ d ≤ timerMaxTimeout
  | .reset u d => u = t ∧ d = timeout ∧ d ≤ timerMaxTimeout
  | .tick => False

/-- `t` was last armed at the timestamp `c`. -/
def LastArmedAt (calls : List (ℕ × TimerCall τ κ α)) (t : τ) (c timeout : ℕ) : Prop :=
  ∃ pre call post, calls = pre ++ (c, call) :: post ∧ call.Arms t timeout ∧
    ∀ x ∈ post, ∀ d, ¬ x.2.Arms t d

/-- No tick at or before `c + (timeout - 1) * gap` fires a timer that was armed at `c`. -/
def NeverEarly (gap : ℕ) (calls : List (ℕ × TimerCall τ κ α)) (fired : List (List τ)) : Prop :=
  ∀ pre now post, calls = pre ++ (now, .tick) :: post → ∀ t c timeout, LastArmedAt pre t c timeout →
    0 < timeout → now ≤ c + (timeout - 1) * gap → t ∉ fired.getD pre.length []

/-- The wheel is at most one tick behind when the call arms a timer, a timer is added only when it is
not armed, and neither the clock nor the deadline of a tick runs out of its 64 bits. -/
def TimerCall.Punctual (gap now : ℕ) (mgr : FlowQoSTimerMgr τ κ α) : TimerCall τ κ α → Prop
  | .add t cb _ timeout => mgr.timeout < 2 ^ 64 - 2 ^ 36 ∧ (cb.isSome → timeout ≤ timerMaxTimeout →
      ¬ Armed mgr t ∧ (0 < timeout → now ≤ mgr.startStmp + (mgr.timeout + 1) * gap))
  | .reset t timeout => mgr.timeout < 2 ^ 64 - 2 ^ 36 ∧ ((mgr.timers t).cb.isSome →
      timeout ≤ timerMaxTimeout → 0 < timeout → now ≤ mgr.startStmp + (mgr.timeout + 1) * gap)
  | .tick => mgr.timeout < 2 ^ 64 - 2 ^ 36 ∧ mgr.startStmp + mgr.timeout * gap < 2 ^ 64

instance (gap now : ℕ) (mgr : FlowQoSTimerMgr τ κ α) :
    (c : TimerCall τ κ α) → Decidable (c.Punctual gap now mgr)
  | .add t cb _ timeout =>
    inferInstanceAs (Decidable (mgr.timeout < 2 ^ 64 - 2 ^ 36 ∧ (cb.isSome →
      timeout ≤ timerMaxTimeout → ¬ Armed mgr t ∧
        (0 < timeout → now ≤ mgr.startStmp + (mgr.timeout + 1) * gap))))
  | .reset t timeout =>
    inferInstanceAs (Decidable (mgr.timeout < 2 ^ 64 - 2 ^ 36 ∧ ((mgr.timers t).cb.isSome →
      timeout ≤ timerMaxTimeout → 0 < timeout → now ≤ mgr.startStmp + (mgr.timeout + 1) * gap)))
  | .tick =>
    inferInstanceAs (Decidable (mgr.timeout < 2 ^ 64 - 2 ^ 36 ∧
      mgr.startStmp + mgr.timeout * gap < 2 ^ 64))

/-- Each call is punctual in the state the ones before it lead to. -/
def Punctual (call : Callback τ κ α ω) (fuel gap : ℕ) :
    List (ℕ × TimerCall τ κ α) → FlowQoSTimerMgr τ κ α × ω → Prop
  | [], _ => True
  | (now, c) :: calls, s => c.Punctual gap now s.1 ∧
    match c.run call fuel gap now s with
    | .ok (_, s') => Punctual call fuel gap calls s'
    | .error _ => True

instance Punctual.decidable (call : Callback τ κ α ω) (fuel gap : ℕ) :
    (calls : List (ℕ × TimerCall τ κ α)) → (s : FlowQoSTimerMgr τ κ α × ω) →
      Decidable (Punctual call fuel gap calls s)
  | [], _ => isTrue trivial
  | (now, c) :: calls, s =>
    have : Decidable (match c.run call fuel gap now s with
        | .ok (_, s') => Punctual call fuel gap calls s'
        | .error _ => True) :=
      match c.run call fuel gap now s with
      | .ok (_, s') => Punctual.decidable call fuel gap calls s'
      | .error _ => isTrue trivial
    inferInstanceAs (Decidable (c.Punctual gap now s.1 ∧ _))

variable {calls : List (ℕ × TimerCall τ κ α)} {c : TimerCall τ κ α} {t u : τ}
  {gap now timeout stamp fuel : ℕ} {mgr mgr' : FlowQoSTimerMgr τ κ α}

/-- One more call: it arms the timer, or the timer is still armed from before. -/
theorem LastArmedAt.concat (h : LastArmedAt (calls ++ [(now, c)]) t stamp timeout) :
    (c.Arms t timeout ∧ stamp = now) ∨ ((∀ d, ¬ c.Arms t d) ∧ LastArmedAt calls t stamp timeout) := by
  obtain ⟨pre, o, post, heq, harms, hno⟩ := h
  rcases concat_cut heq with ⟨rfl, he, rfl⟩ | ⟨post, rfl, rfl⟩
  · cases he
    exact .inl ⟨harms, rfl⟩
  · exact .inr ⟨fun d => hno (now, c) (by simp) d, pre, o, post, rfl, harms,
      fun x hx => hno x (List.mem_append_left _ hx)⟩

/-! ### The invariant -/

/-- What holds after the calls. -/
structure RealTimeInv (gap : ℕ) (calls : List (ℕ × TimerCall τ κ α))
    (mgr : FlowQoSTimerMgr τ κ α) : Prop where
  wheel : WheelInv mgr
  few : ∃ S : Finset τ, S.card ≤ calls.length ∧ ∀ t, Armed mgr t → t ∈ S
  late : ∀ {t stamp timeout d p}, LastArmedAt calls t stamp timeout → 0 < timeout →
    (alarms mgr).armed t = some (d, p) → stamp + (timeout - 1) * gap ≤ mgr.startStmp + d * gap

theorem realTimeInv_init (gap rdtsc : ℕ) :
    RealTimeInv gap [] (flowQoSTimerMgrInit rdtsc : FlowQoSTimerMgr τ κ α) where
  wheel := ⟨_, wheelOk_init rdtsc⟩
  few := (runInv_init (ω := Unit) rdtsc ()).few
  late h := by
    obtain ⟨pre, o, post, h, -⟩ := h
    simp at h

/-- A call that arms no timer and brings no deadline forward. -/
theorem RealTimeInv.keep (h : RealTimeInv gap calls mgr) (hwheel : WheelInv mgr')
    (hstamp : mgr'.startStmp = mgr.startStmp)
    (harms : ∀ {u d}, c.Arms u d → (alarms mgr').armed u = none)
    (hlate : ∀ {u d p}, (alarms mgr').armed u = some (d, p) →
      ∃ d' p', (alarms mgr).armed u = some (d', p') ∧ d' ≤ d) :
    RealTimeInv gap (calls ++ [(now, c)]) mgr' := by
  obtain ⟨S, hcard, hS⟩ := h.few
  refine ⟨hwheel, ⟨S, ?_, fun u hu => ?_⟩, fun {u stamp timeout d p} hlast hpos hu => ?_⟩
  · rw [List.length_append]
    exact hcard.trans (Nat.le_add_right _ _)
  · obtain ⟨⟨d, p⟩, hdp⟩ := Option.isSome_iff_exists.1 (isSome_alarms_armed.2 hu)
    obtain ⟨d', p', hdp', -⟩ := hlate hdp
    exact hS u (isSome_alarms_armed.1 (by rw [hdp']; rfl))
  · rcases hlast.concat with ⟨ha, -⟩ | ⟨-, hlast⟩
    · rw [harms ha] at hu
      cases hu
    · obtain ⟨d', p', hdp', hle⟩ := hlate hu
      have hd := h.late hlast hpos hdp'
      have := Nat.mul_le_mul_right gap hle
      rw [hstamp]
      omega

/-- A call that arms `t`, with a wheel at most one tick behind. -/
theorem RealTimeInv.arm (h : RealTimeInv gap calls mgr) {p : ℕ} (hwheel : WheelInv mgr')
    (hstamp : mgr'.startStmp = mgr.startStmp)
    (harms : ∀ {u d}, c.Arms u d → u = t ∧ d = timeout) (hself : c.Arms t timeout)
    (halarms : alarms mgr' = (alarms mgr).arm t (mgr.timeout + timeout) p)
    (hnow : 0 < timeout → now ≤ mgr.startStmp + (mgr.timeout + 1) * gap) :
    RealTimeInv gap (calls ++ [(now, c)]) mgr' := by
  have harmed : ∀ u, (alarms mgr').armed u =
      if u = t then some (mgr.timeout + timeout, p) else (alarms mgr).armed u := by
    intro u
    rw [halarms, Alarms.arm_armed]
  obtain ⟨S, hcard, hS⟩ := h.few
  refine ⟨hwheel, ⟨insert t S, ?_, fun u hu => ?_⟩, fun {u stamp d' d p'} hlast hpos hu => ?_⟩
  · rw [List.length_append]
    exact (Finset.card_insert_le _ _).trans (Nat.add_le_add_right hcard 1)
  · by_cases hut : u = t
    · rw [hut]
      exact Finset.mem_insert_self _ _
    · refine Finset.mem_insert_of_mem (hS u ?_)
      rw [← isSome_alarms_armed, harmed u, if_neg hut] at hu
      exact isSome_alarms_armed.1 hu
  · rw [hstamp]
    by_cases hut : u = t
    · subst hut
      rw [harmed u, if_pos rfl] at hu
      cases hu
      rcases hlast.concat with ⟨ha, rfl⟩ | ⟨hno, -⟩
      · obtain ⟨-, rfl⟩ := harms ha
        -- the wheel's clock and the timeout make up the tick the wheel may lack
        have hsplit : (mgr.timeout + d') * gap = (mgr.timeout + 1) * gap + (d' - 1) * gap := by
          rw [← Nat.add_mul]
          congr 1
          omega
        have := hnow hpos
        omega
      · exact absurd hself (hno _)
    · rw [harmed u, if_neg hut] at hu
      rcases hlast.concat with ⟨ha, -⟩ | ⟨-, hlast⟩
      · exact absurd (harms ha).1 hut
      · exact h.late hlast hpos hu

/-- A timer whose fields hold no callback is on no bucket. -/
theorem WheelInv.not_armed_of_cb (h : WheelInv mgr) (hcb : (mgr.timers t).cb = none) :
    ¬ Armed mgr t := by
  obtain ⟨l, h⟩ := h
  intro harm
  obtain ⟨b, hb⟩ := h.armed_iff.1 harm
  have := h.cb hb
  rw [hcb] at this
  cases this

/-- A reset to a timeout the wheel cannot hold stops the timer. -/
theorem timerReset_stops (hcb : (mgr.timers t).cb.isSome) (ht : timerMaxTimeout < timeout) :
    timerReset mgr t timeout = .ok (0, timerStop mgr t) := by
  simp only [timerReset, Option.isNone_iff_eq_none, Option.isSome_iff_ne_none.1 hcb, if_false,
    timerStart_reject (.inr ht)]
  rfl

/-! ### One call -/

variable {call : Callback τ κ α ω} {s : FlowQoSTimerMgr τ κ α × ω}

theorem RealTimeInv.add (h : RealTimeInv gap calls s.1) {cb : Option κ} (args : Option α)
    (hp : (TimerCall.add t cb args timeout).Punctual gap now s.1) :
    ∃ s', (TimerCall.add t cb args timeout).run call fuel gap now s = .ok ([], s') ∧
      RealTimeInv gap (calls ++ [(now, .add t cb args timeout)]) s'.1 := by
  obtain ⟨hclock, hp⟩ := hp
  by_cases hrej : cb.isNone ∨ timerMaxTimeout < timeout
  · refine ⟨s, ?_, h.keep h.wheel rfl ?_ fun {u d p} hu => ⟨d, p, hu, le_rfl⟩⟩
    · simp only [TimerCall.run, flowQoSTimerAdd, timerStart_reject hrej]
      rfl
    · rintro u d ⟨-, -, hcb, hd⟩
      rcases hrej with hn | hlt
      · simp_all
      · omega
  · have hcb : cb.isSome := by
      cases cb with
      | none => exact absurd (.inl rfl) hrej
      | some cb => rfl
    have ht : timeout ≤ timerMaxTimeout := Nat.le_of_not_lt fun hlt => hrej (.inr hlt)
    obtain ⟨hfree, hnow⟩ := hp hcb ht
    obtain ⟨links, hstart, hwheel, halarms⟩ := timerStart_spec h.wheel args hfree hcb
      (show timeout ≤ 68719476735 from ht) (Nat.zero_le 68719476735) (by omega)
    refine ⟨(_, s.2), ?_, h.arm hwheel rfl ?_ ⟨rfl, rfl, hcb, ht⟩ halarms hnow⟩
    · simp only [TimerCall.run, flowQoSTimerAdd, hstart]
      rfl
    · rintro u d ⟨rfl, rfl, -⟩
      exact ⟨rfl, rfl⟩

theorem RealTimeInv.reset (h : RealTimeInv gap calls s.1)
    (hp : (TimerCall.reset t timeout : TimerCall τ κ α).Punctual gap now s.1) :
    ∃ s', (TimerCall.reset t timeout).run call fuel gap now s = .ok ([], s') ∧
      RealTimeInv gap (calls ++ [(now, .reset t timeout)]) s'.1 := by
  obtain ⟨hclock, hp⟩ := hp
  by_cases hcb : (s.1.timers t).cb.isSome
  · by_cases ht : timeout ≤ timerMaxTimeout
    · obtain ⟨links, hreset, hwheel, halarms⟩ := timerReset_spec h.wheel hcb
        (show timeout ≤ 68719476735 from ht) (by omega)
      refine ⟨(_, s.2), ?_, h.arm hwheel rfl ?_ ⟨rfl, rfl, ht⟩ halarms (hp hcb ht)⟩
      · simp only [TimerCall.run, flowQoSTimerReset, hreset]
        rfl
      · rintro u d ⟨rfl, rfl, -⟩
        exact ⟨rfl, rfl⟩
    · refine ⟨(timerStop s.1 t, s.2), ?_, h.keep (h.wheel.timerStop t) rfl ?_ fun {u d p} hu => ?_⟩
      · simp only [TimerCall.run, flowQoSTimerReset, timerReset_stops hcb (Nat.lt_of_not_le ht)]
        rfl
      · rintro u d ⟨rfl, rfl, hd⟩
        exact absurd hd ht
      · rw [h.wheel.alarms_timerStop, Alarms.disarm_armed] at hu
        by_cases hut : u = t
        · rw [if_pos hut] at hu
          cases hu
        · rw [if_neg hut] at hu
          exact ⟨d, p, hu, le_rfl⟩
  · have hnone : (s.1.timers t).cb = none := Option.not_isSome_iff_eq_none.1 hcb
    refine ⟨s, ?_, h.keep h.wheel rfl ?_ fun {u d p} hu => ⟨d, p, hu, le_rfl⟩⟩
    · simp only [TimerCall.run, flowQoSTimerReset, timerReset_reject hnone]
      rfl
    · rintro u d ⟨rfl, -⟩
      exact alarms_armed_of_not (h.wheel.not_armed_of_cb hnone)

/-- A tick moves no deadline forward. -/
theorem advance_armed_le {A : Alarms τ} {d p : ℕ} (h : A.advance.armed t = some (d, p)) :
    ∃ d' p', A.armed t = some (d', p') ∧ d' ≤ d := by
  simp only [Alarms.advance] at h
  cases ht : A.armed t with
  | none =>
    rw [ht] at h
    cases h
  | some dp =>
    obtain ⟨d', p'⟩ := dp
    refine ⟨d', p', rfl, ?_⟩
    rw [ht] at h
    simp only at h
    split at h
    · split at h
      · cases h
      · simp only [Option.some.injEq, Prod.mk.injEq] at h
        omega
    · simp only [Option.some.injEq, Prod.mk.injEq] at h
      omega

/-- **A tick** fires no timer early. -/
theorem RealTimeInv.tick (h : RealTimeInv gap calls s.1) (hcall : Quiet call)
    (hp : (TimerCall.tick : TimerCall τ κ α).Punctual gap now s.1) (hfuel : calls.length < fuel) :
    ∃ l s', TimerCall.tick.run call fuel gap now s = .ok (l, s') ∧
      RealTimeInv gap (calls ++ [(now, .tick)]) s'.1 ∧
      ∀ t ∈ l, ∀ stamp timeout, LastArmedAt calls t stamp timeout → 0 < timeout →
        stamp + (timeout - 1) * gap < now := by
  obtain ⟨m, w⟩ := s
  obtain ⟨hclock, hword⟩ := hp
  by_cases hdue : (m.startStmp + m.timeout * gap) % 2 ^ 64 < now
  · choose g hg using hcall
    have hinert : Inert (noted call) fun cb t m s => .ok (g cb t m s.1, s.2 ++ [t]) := by
      intro cb t m s
      simp only [noted, hg]
      rfl
    obtain ⟨S, hcard, hS⟩ := h.few
    obtain ⟨mgr', due, htick, -, hdue', hseen, hwheel, halarms, hstamp, -⟩ :=
      timerTick_spec hinert h.wheel (show m.timeout + 68719476735 < 2 ^ 64 by simp only at hclock; omega)
        hS (lt_of_le_of_lt hcard hfuel)
    obtain ⟨w', hw'⟩ := foldlM_recorded (g := g) (fun _ t => t) due w [] fun x hx => by
      rw [((hseen x hx).2.2 x.2).1]
      obtain ⟨p, hp⟩ := (hdue' x.2).1 (List.mem_map_of_mem hx)
      obtain ⟨l, hok⟩ := h.wheel
      obtain ⟨b, hb⟩ := hok.armed_iff.1 (isSome_alarms_armed.1 (by rw [hp]; rfl))
      exact hok.cb hb
    refine ⟨due.map Prod.snd, (mgr', w'), ?_, h.keep hwheel hstamp (fun ha => ha.elim) ?_, ?_⟩
    · simp only [TimerCall.run, flowQoSTimerTick, if_pos hdue, htick, hw']
      rfl
    · intro u d p hu
      rw [show alarms (mgr', w').1 = (alarms m).advance from halarms] at hu
      exact advance_armed_le hu
    · intro t ht stamp timeout hlast hpos
      obtain ⟨p, hp⟩ := (hdue' t).1 ht
      have hlate := h.late hlast hpos hp
      rw [alarms_now] at hlate
      rw [Nat.mod_eq_of_lt hword] at hdue
      exact lt_of_le_of_lt hlate hdue
  · refine ⟨[], (m, w), ?_, h.keep h.wheel rfl (fun ha => ha.elim)
      fun {u d p} hu => ⟨d, p, hu, le_rfl⟩, by simp⟩
    simp only [TimerCall.run, flowQoSTimerTick, if_neg hdue]
    rfl

/-- **One call** of a run succeeds, keeps the invariant and fires no timer early. -/
theorem RealTimeInv.step (h : RealTimeInv gap calls s.1) (hcall : Quiet call)
    (hp : c.Punctual gap now s.1) (hfuel : calls.length < fuel) :
    ∃ l s', c.run call fuel gap now s = .ok (l, s') ∧ RealTimeInv gap (calls ++ [(now, c)]) s'.1 ∧
      ∀ t ∈ l, ∀ stamp timeout, LastArmedAt calls t stamp timeout → 0 < timeout →
        stamp + (timeout - 1) * gap < now := by
  cases c with
  | add t cb args timeout =>
    obtain ⟨s', hrun, h'⟩ : ∃ s', (TimerCall.add t cb args timeout).run call fuel gap now s =
      .ok ([], s') ∧ _ := h.add args hp
    exact ⟨[], s', hrun, h', by simp⟩
  | reset t timeout =>
    obtain ⟨s', hrun, h'⟩ : ∃ s', (TimerCall.reset t timeout).run call fuel gap now s =
      .ok ([], s') ∧ _ := h.reset hp
    exact ⟨[], s', hrun, h', by simp⟩
  | tick => exact h.tick hcall hp hfuel

/-! ### Runs -/

/-- The calls after `pre`. -/
theorem RealTimeInv.run (hcall : Quiet call) : ∀ (calls pre : List (ℕ × TimerCall τ κ α))
    (s : FlowQoSTimerMgr τ κ α × ω), RealTimeInv gap pre s.1 → Punctual call fuel gap calls s →
    pre.length + calls.length < fuel →
    ∃ fired s', runCalls call fuel gap calls s = .ok (fired, s') ∧
      RealTimeInv gap (pre ++ calls) s'.1 ∧
      ∀ mid now post, calls = mid ++ (now, .tick) :: post → ∀ t stamp timeout,
        LastArmedAt (pre ++ mid) t stamp timeout → 0 < timeout →
        t ∈ fired.getD mid.length [] → stamp + (timeout - 1) * gap < now := by
  intro calls
  induction calls with
  | nil =>
    intro pre s h _ _
    refine ⟨[], s, rfl, by simpa using h, ?_⟩
    rintro mid now post heq
    simp at heq
  | cons x calls ih =>
    obtain ⟨now, c⟩ := x
    rintro pre s h ⟨hp, hrest⟩ hfuel
    rw [List.length_cons] at hfuel
    obtain ⟨l, s₁, hrun, h₁, hl⟩ := h.step hcall hp (show pre.length < fuel by omega)
    rw [hrun] at hrest
    obtain ⟨fired, s', hrun', h', hfired⟩ :=
      ih (pre ++ [(now, c)]) s₁ h₁ hrest (by rw [List.length_append]; simp; omega)
    refine ⟨l :: fired, s', ?_, by simpa using h', ?_⟩
    · simp only [runCalls, hrun, hrun']
      rfl
    · intro mid now' post heq t stamp timeout hlast hpos ht
      cases mid with
      | nil =>
        rw [List.nil_append, List.cons.injEq, Prod.mk.injEq] at heq
        obtain ⟨⟨rfl, -⟩, -⟩ := heq
        rw [List.append_nil] at hlast
        exact hl t ht stamp timeout hlast hpos
      | cons y mid =>
        rw [List.cons_append, List.cons.injEq] at heq
        obtain ⟨rfl, heq⟩ := heq
        exact hfired mid now' post heq t stamp timeout (by simpa using hlast) hpos ht

/-- **Timers are not early in real time**, whatever the timestamps, in a run whose calls are all
punctual. -/
theorem run_never_early (call : Callback τ κ α ω) (hcall : Quiet call) (rdtsc gap : ℕ) (w : ω)
    (calls : List (ℕ × TimerCall τ κ α)) (fuel : ℕ) (hfuel : calls.length < fuel)
    (hcalls : Punctual call fuel gap calls (flowQoSTimerMgrInit rdtsc, w)) :
    ∃ fired s', runCalls call fuel gap calls (flowQoSTimerMgrInit rdtsc, w) = .ok (fired, s') ∧
      NeverEarly gap calls fired := by
  obtain ⟨fired, s', hrun, -, hfired⟩ :=
    RealTimeInv.run hcall calls [] (flowQoSTimerMgrInit rdtsc, w) (realTimeInv_init gap rdtsc) hcalls
      (by simpa using hfuel)
  refine ⟨fired, s', hrun, ?_⟩
  intro pre now post heq t stamp timeout hlast hpos hnow ht
  have := hfired pre now post heq t stamp timeout hlast hpos ht
  omega

/-- A wheel that keeps up with the timestamps: the timer added at 5 is due at 30. -/
theorem run_never_early_on_time :
    ∃ fired s', runCalls (τ := ℕ) (κ := Unit) (α := Unit) (fun _ _ s => .ok s) 20 10
        [(5, .add 0 (some ()) none 3), (11, .tick), (12, .tick), (25, .tick), (31, .tick)]
        (flowQoSTimerMgrInit 0, ()) = .ok (fired, s') ∧
      NeverEarly (κ := Unit) (α := Unit) 10
        [(5, .add 0 (some ()) none 3), (11, .tick), (12, .tick), (25, .tick), (31, .tick)] fired :=
  run_never_early _ (fun _ _ _ w => ⟨w, rfl⟩) 0 10 () _ 20 (by decide) (by decide +kernel)

/-- The calls of a core that starts to tick half a second after its manager was initialised, on a
counter of 1 GHz: a timer of 5 ms is added, and the ticks begin. -/
def lateTicks : List (ℕ × TimerCall ℕ Unit Unit) :=
  (500000000, .add 0 (some ()) none 5) :: List.replicate 6 (500000000, .tick)

/-- The wheel lags half a second behind, six ticks in a row catch up, and the last of them fires the
timer at the very timestamp at which it was added. -/
theorem late_wheel_fires_early :
    (0 :: lateTicks.map Prod.fst).Pairwise (· ≤ ·) ∧ ∃ fired s',
      runCalls (fun _ _ s => .ok s) 20 1000000 lateTicks (flowQoSTimerMgrInit 0, ()) =
        .ok (fired, s') ∧ ¬ NeverEarly 1000000 lateTicks fired := by
  have hfired : (runCalls (fun _ _ s => .ok s) 20 1000000 lateTicks
      (flowQoSTimerMgrInit 0, ())).toOption.map Prod.fst = some [[], [], [], [], [], [], [0]] := by
    decide +kernel
  obtain ⟨⟨fired, s'⟩, hrun, hlast⟩ := Option.map_eq_some_iff.1 hfired
  have hzero : 0 ∈ fired.getD 6 [] := by
    rw [show fired = _ from hlast]
    decide
  refine ⟨by decide, fired, s', ?_, fun h => ?_⟩
  · cases hr : runCalls (fun _ _ s => .ok s) 20 1000000 lateTicks (flowQoSTimerMgrInit 0, ()) with
    | error e =>
      rw [hr] at hrun
      cases hrun
    | ok r =>
      rw [hr] at hrun
      exact congrArg Except.ok (Option.some.inj hrun)
  refine h (lateTicks.take 6) 500000000 [] rfl 0 500000000 5 ?_ (by decide) (by decide) hzero
  refine ⟨[], _, List.replicate 5 (500000000, .tick), rfl, ⟨rfl, rfl, rfl, by decide⟩, ?_⟩
  intro x hx d
  rw [(List.mem_replicate.1 hx).2]
  exact id

end FlowQoS.Timer
