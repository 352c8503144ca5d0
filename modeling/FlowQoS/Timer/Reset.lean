import FlowQoS.Timer.RealTime
import Mathlib.Logic.Relation

/-!
# What a reset leaves behind

`timer_reset` stops the timer and starts it again. `timer_start` refuses a timeout beyond the wheels,
and `timer_reset` does not look at what it returns: the timer is off, and the caller is told that all
went well. A deadline beyond the range of the clock is cut off at the end of it.

`Reachable` are the managers of all runs, also of those whose clock comes round and whose callbacks use
the timers: all that is needed of them is that their links are lists (`Reachable.linksOk`).

* `timerStart_eq`: `timer_start` on a timer that is off, whatever the clock;
* `timerReset_clean_iff`: a reset is clean exactly when the wheels hold the timeout and the clock the
  deadline.
-/

set_option linter.unusedSectionVars false

namespace FlowQoS.Timer

open Lib Links

variable {τ κ α ω : Type*} [DecidableEq τ] {mgr mgr' : FlowQoSTimerMgr τ κ α}
  {l : ℕ × ℕ → List τ} {t : τ} {cb : Option κ} {args : Option α} {timeout repeatTime fuel : ℕ} {r : ℤ}

/-! ### Reachable managers -/

/-- A call of the owner of the manager or of a callback. A timer that is started is off. -/
inductive ApiCall : FlowQoSTimerMgr τ κ α → FlowQoSTimerMgr τ κ α → Prop where
  | start {mgr mgr' : FlowQoSTimerMgr τ κ α} {t : τ} {cb : Option κ} {args : Option α}
      {timeout repeatTime : ℕ} {r : ℤ} (hoff : ¬ Armed mgr t)
      (h : timerStart mgr t cb args timeout repeatTime = .ok (r, mgr')) : ApiCall mgr mgr'
  | stop (mgr : FlowQoSTimerMgr τ κ α) (t : τ) : ApiCall mgr (timerStop mgr t)
  | again {mgr mgr' : FlowQoSTimerMgr τ κ α} {t : τ} {r : ℤ} (h : timerAgain mgr t = .ok (r, mgr')) :
      ApiCall mgr mgr'
  | reset {mgr mgr' : FlowQoSTimerMgr τ κ α} {t : τ} {timeout : ℕ} {r : ℤ}
      (h : timerReset mgr t timeout = .ok (r, mgr')) : ApiCall mgr mgr'

/-- All that the callbacks do to the manager is to call it. -/
def UsesApi (call : Callback τ κ α ω) : Prop :=
  ∀ cb t s s', call cb t s = .ok s' → Relation.ReflTransGen ApiCall s.1 s'.1

/-- The managers of all runs. -/
inductive Reachable : FlowQoSTimerMgr τ κ α → Prop where
  | init (rdtsc : ℕ) : Reachable (flowQoSTimerMgrInit rdtsc)
  | call {mgr mgr' : FlowQoSTimerMgr τ κ α} (hreach : Reachable mgr) (h : ApiCall mgr mgr') :
      Reachable mgr'
  | tick {ω : Type} {call : Callback τ κ α ω} {fuel n : ℕ} {s s' : FlowQoSTimerMgr τ κ α × ω}
      (hcall : UsesApi call) (hreach : Reachable s.1) (h : timerTick call fuel s = .ok (n, s')) :
      Reachable s'.1

/-- The links are lists, and the clock is a 64-bit number. -/
structure LinksOk (mgr : FlowQoSTimerMgr τ κ α) : Prop where
  holds : ∃ l, mgr.links.Holds l
  clock : mgr.timeout < 2 ^ 64

theorem LinksOk.not_mem (h : mgr.links.Holds l) (hoff : ¬ Armed mgr t) : ∀ b, t ∉ l b := by
  intro b hb
  exact hoff (h.linked_iff.2 ⟨b, hb⟩)

theorem LinksOk.timerStop (h : LinksOk mgr) (t : τ) : LinksOk (timerStop mgr t) := by
  obtain ⟨⟨l, hl⟩, hclock⟩ := h
  exact ⟨⟨_, hl.unlink t⟩, hclock⟩

theorem LinksOk.not_armed_timerStop (h : LinksOk mgr) : ¬ Armed (Timer.timerStop mgr t) t := by
  obtain ⟨l, hl⟩ := h.holds
  intro harm
  obtain ⟨b, hb⟩ := (hl.unlink t).linked_iff.1 harm
  exact (hl.nodup b).not_mem_erase hb

/-! ### Starting, whatever the clock -/

/-- The deadline that `timer_start` notes. -/
def clampedTimeout (clock timeout : ℕ) : ℕ :=
  if (clock + timeout) % 2 ^ 64 < timeout then 2 ^ 64 - 1 else (clock + timeout) % 2 ^ 64

theorem clampedTimeout_eq_iff {clock : ℕ} (hclock : clock < 2 ^ 64) (ht : timeout < 2 ^ 64) :
    clampedTimeout clock timeout = clock + timeout ↔ clock + timeout < 2 ^ 64 := by
  unfold clampedTimeout
  by_cases hlt : clock + timeout < 2 ^ 64
  · rw [Nat.mod_eq_of_lt hlt, if_neg (by omega)]
    exact ⟨fun _ => hlt, fun _ => rfl⟩
  · have hmod : (clock + timeout) % 2 ^ 64 = clock + timeout - 2 ^ 64 := by omega
    rw [hmod, if_pos (by omega)]
    omega

/-- A timer that is off goes to the end of its bucket. -/
theorem timerStart_eq (h : mgr.links.Holds l) (hoff : ¬ Armed mgr t) (hcb : cb.isSome) (args : Option α)
    (ht : timeout ≤ timerMaxTimeout) (repeatTime : ℕ) :
    ∃ mgr', timerStart mgr t cb args timeout repeatTime = .ok (0, mgr') ∧ mgr'.timeout = mgr.timeout ∧
      (mgr'.timers t).timeout = clampedTimeout mgr.timeout timeout ∧
      mgr'.links.Holds (Function.update l (startBucket mgr.timeout timeout)
        (l (startBucket mgr.timeout timeout) ++ [t])) := by
  obtain ⟨links, hlinks, hholds⟩ := h.append (LinksOk.not_mem h hoff) (startBucket mgr.timeout timeout)
  obtain ⟨cur, bidx, hslot, hb⟩ := wheelSlot_eq mgr.timeout (show timeout ≤ 68719476735 from ht)
  have hw : ¬ timerWheelCount ≤ (startBucket mgr.timeout timeout).1 := by
    unfold startBucket timerWheelCount
    split <;> simp
  have hcond : ¬ (cb.isNone ∨ timerMaxTimeout < timeout) := by
    rintro (hc | hc)
    · simp_all
    · omega
  refine ⟨{ mgr with
    timers := Function.update mgr.timers t ⟨cb, args, clampedTimeout mgr.timeout timeout, repeatTime⟩,
    links := links }, ?_, rfl, ?_, hholds⟩
  · simp only [timerStart, if_neg hcond, hslot, if_neg hw, timerBucketCount_eq, hb, Prod.mk.eta, hlinks,
      clampedTimeout]
  · simp only [Function.update_self]

/-- Whatever `timer_start` does to a timer that is off, the links stay lists. -/
theorem LinksOk.timerStart (h : LinksOk mgr) (hoff : ¬ Armed mgr t)
    (hs : timerStart mgr t cb args timeout repeatTime = .ok (r, mgr')) :
    LinksOk mgr' ∧ mgr'.timeout = mgr.timeout := by
  by_cases hrej : cb.isNone ∨ timerMaxTimeout < timeout
  · rw [timerStart_reject hrej] at hs
    cases hs
    exact ⟨h, rfl⟩
  · rw [not_or] at hrej
    have hcb : cb.isSome := by simpa [Option.isSome_iff_ne_none] using hrej.1
    obtain ⟨l, hl⟩ := h.holds
    obtain ⟨m, hstart, hclock, -, hlinks⟩ :=
      timerStart_eq hl hoff hcb args (Nat.le_of_not_lt hrej.2) repeatTime
    rw [hstart] at hs
    cases hs
    exact ⟨⟨⟨_, hlinks⟩, hclock ▸ h.clock⟩, hclock⟩

/-! ### The other calls, and the tick -/

/-- Stopping a timer and starting it again. -/
theorem LinksOk.restart (h : LinksOk mgr)
    (hs : Timer.timerStart (Timer.timerStop mgr t) t cb args timeout repeatTime = .ok (r, mgr')) :
    LinksOk mgr' ∧ mgr'.timeout = mgr.timeout :=
  (h.timerStop t).timerStart h.not_armed_timerStop hs

theorem LinksOk.timerAgain (h : LinksOk mgr) (hs : timerAgain mgr t = .ok (r, mgr')) :
    LinksOk mgr' ∧ mgr'.timeout = mgr.timeout := by
  simp only [Timer.timerAgain] at hs
  split_ifs at hs with hcb hrepeat
  · cases hs
    exact ⟨h, rfl⟩
  · cases hstart : Timer.timerStart (Timer.timerStop mgr t) t (mgr.timers t).cb (mgr.timers t).cb_args
        (mgr.timers t).repeatTime (mgr.timers t).repeatTime with
    | error e =>
      rw [hstart] at hs
      cases hs
    | ok x =>
      rw [hstart] at hs
      cases hs
      exact h.restart hstart
  · cases hs
    exact ⟨h, rfl⟩

theorem LinksOk.timerReset (h : LinksOk mgr) (hs : timerReset mgr t timeout = .ok (r, mgr')) :
    LinksOk mgr' ∧ mgr'.timeout = mgr.timeout := by
  simp only [Timer.timerReset] at hs
  split_ifs at hs with hcb
  · cases hs
    exact ⟨h, rfl⟩
  · cases hstart : Timer.timerStart (Timer.timerStop mgr t) t (mgr.timers t).cb (mgr.timers t).cb_args
        timeout 0 with
    | error e =>
      rw [hstart] at hs
      cases hs
    | ok x =>
      rw [hstart] at hs
      cases hs
      exact h.restart hstart

theorem ApiCall.linksOk (hcall : ApiCall mgr mgr') (h : LinksOk mgr) :
    LinksOk mgr' ∧ mgr'.timeout = mgr.timeout := by
  cases hcall with
  | start hoff hs => exact h.timerStart hoff hs
  | stop t => exact ⟨h.timerStop _, rfl⟩
  | again hs => exact h.timerAgain hs
  | reset hs => exact h.timerReset hs

theorem linksOk_of_calls (hcalls : Relation.ReflTransGen ApiCall mgr mgr') (h : LinksOk mgr) :
    LinksOk mgr' := by
  induction hcalls with
  | refl => exact h
  | tail _ hcall ih => exact (hcall.linksOk ih).1

/-- Each timer that is cascaded is stopped and started again. -/
theorem LinksOk.cascadeLoop (b : ℕ × ℕ) : ∀ (fuel : ℕ) (timer : Option (Node (ℕ × ℕ) τ))
    (mgr : FlowQoSTimerMgr τ κ α), LinksOk mgr → cascadeLoop b fuel timer mgr = .ok mgr' → LinksOk mgr' := by
  intro fuel
  induction fuel with
  | zero =>
    intro timer mgr _ hs
    cases hs
  | succ fuel ih =>
    intro timer mgr h hs
    unfold Timer.cascadeLoop at hs
    split_ifs at hs with hend
    · cases hs
      exact h
    · rcases timer with _ | b' | t
      · cases hs
      · cases hs
      · simp only at hs
        split_ifs at hs with hassert
        cases hstart : Timer.timerStart (Timer.timerStop mgr t) t (mgr.timers t).cb (mgr.timers t).cb_args
            ((mgr.timers t).timeout - mgr.timeout) (mgr.timers t).repeatTime with
        | error e =>
          rw [hstart] at hs
          cases hs
        | ok x =>
          rw [hstart] at hs
          exact ih _ _ (h.restart hstart).1 hs

theorem LinksOk.cascadeWheels : ∀ (k widx : ℕ) (mgr : FlowQoSTimerMgr τ κ α), LinksOk mgr →
    cascadeWheels fuel k widx mgr = .ok mgr' → LinksOk mgr' := by
  intro k
  induction k with
  | zero =>
    intro widx mgr h hs
    cases hs
    exact h
  | succ k ih =>
    intro widx mgr h hs
    unfold Timer.cascadeWheels timerCascade at hs
    cases hloop : Timer.cascadeLoop (widx, timerWheelCurIndex mgr.timeout widx) fuel
        (mgr.links.next (.head (widx, timerWheelCurIndex mgr.timeout widx))) mgr with
    | error e =>
      rw [hloop] at hs
      cases hs
    | ok m =>
      have hm := h.cascadeLoop _ _ _ _ hloop
      rw [hloop] at hs
      simp only [Except.map] at hs
      split_ifs at hs with hzero
      · exact ih _ _ hm hs
      · cases hs
        exact hm

/-- Whatever the walk comes to, all it does is to stop timers, start them again and call. -/
theorem LinksOk.fireLoop {call : Callback τ κ α ω} (hcall : UsesApi call) (b : ℕ × ℕ) :
    ∀ (fuel : ℕ) (timer : Option (Node (ℕ × ℕ) τ)) (res n : ℕ) (s s' : FlowQoSTimerMgr τ κ α × ω),
    LinksOk s.1 → fireLoop call b fuel timer res s = .ok (n, s') → LinksOk s'.1 := by
  intro fuel
  induction fuel with
  | zero =>
    intro timer res n s s' _ hs
    cases hs
  | succ fuel ih =>
    intro timer res n s s' h hs
    unfold Timer.fireLoop at hs
    split_ifs at hs with hend
    · cases hs
      exact h
    · rcases timer with _ | b' | t
      · cases hs
      · cases hs
      · simp only at hs
        cases hagain : Timer.timerAgain (Timer.timerStop s.1 t) t with
        | error e =>
          rw [hagain] at hs
          cases hs
        | ok x =>
          have hx := ((h.timerStop t).timerAgain hagain).1
          simp only [hagain] at hs
          cases hcb : (x.2.timers t).cb with
          | none =>
            simp only [hcb] at hs
            cases hs
          | some cb =>
            simp only [hcb] at hs
            cases hrun : call cb t (x.2, s.2) with
            | error e =>
              simp only [hrun] at hs
              cases hs
            | ok s₁ =>
              simp only [hrun] at hs
              exact ih _ _ _ _ _ (linksOk_of_calls (hcall _ _ _ _ hrun) hx) hs

theorem LinksOk.timerTick {call : Callback τ κ α ω} (hcall : UsesApi call) {n : ℕ}
    {s s' : FlowQoSTimerMgr τ κ α × ω} (h : LinksOk s.1) (hs : timerTick call fuel s = .ok (n, s')) :
    LinksOk s'.1 := by
  unfold Timer.timerTick at hs
  simp only at hs
  cases hcas : (if s.1.timeout % timerBucketCount = 0 then
      Timer.cascadeWheels fuel (timerWheelCount - 1) 1 s.1 else .ok s.1) with
  | error e =>
    simp only [hcas] at hs
    cases hs
  | ok m =>
    have hm : LinksOk m := by
      split_ifs at hcas with hzero
      · exact h.cascadeWheels _ _ _ hcas
      · cases hcas
        exact h
    simp only [hcas] at hs
    cases hfire : Timer.fireLoop call (0, s.1.timeout % timerBucketCount) fuel
        (m.links.next (.head (0, s.1.timeout % timerBucketCount))) 0 (m, s.2) with
    | error e =>
      simp only [hfire] at hs
      cases hs
    | ok x =>
      simp only [hfire] at hs
      cases hs
      exact ⟨(hm.fireLoop hcall _ _ _ _ _ _ _ hfire).holds, Nat.mod_lt _ (by decide)⟩

/-- **The links of a reachable manager are lists.** -/
theorem Reachable.linksOk (h : Reachable mgr) : LinksOk mgr := by
  induction h with
  | init rdtsc => exact ⟨⟨_, holds_empty⟩, Nat.two_pow_pos 64⟩
  | call _ hcall ih => exact (hcall.linksOk ih).1
  | tick hcall _ hs ih => exact ih.timerTick hcall hs

/-! ### A reset -/

/-- The timer is on one bucket, once, and has the deadline. -/
def ArmedOnce (mgr : FlowQoSTimerMgr τ κ α) (t : τ) (deadline : ℕ) : Prop :=
  (mgr.timers t).timeout = deadline ∧
    ∃ l, mgr.links.Holds l ∧ ∃ b, (l b).count t = 1 ∧ ∀ b', b' ≠ b → t ∉ l b'

/-- The call returns 0 and the timer is armed, or it returns something else and nothing has changed. -/
def ResetsCleanly (mgr : FlowQoSTimerMgr τ κ α) (t : τ) (timeout : ℕ)
    (result : Except Fault (ℤ × FlowQoSTimerMgr τ κ α)) : Prop :=
  ∃ r mgr', result = .ok (r, mgr') ∧
    ((r = 0 ∧ ArmedOnce mgr' t (mgr.timeout + timeout)) ∨ (r ≠ 0 ∧ mgr' = mgr))

theorem ArmedOnce.armed {deadline : ℕ} (h : ArmedOnce mgr t deadline) : Armed mgr t := by
  obtain ⟨-, l, hl, b, hcount, -⟩ := h
  exact hl.linked_iff.2 ⟨b, List.count_pos_iff.1 (hcount ▸ Nat.one_pos)⟩

/-- A timer that has just been put at the end of a bucket. -/
theorem armedOnce_of_append {b : ℕ × ℕ} (hl : mgr.links.Holds (Function.update l b (l b ++ [t]))) :
    ArmedOnce mgr t (mgr.timers t).timeout := by
  have ht : t ∈ Function.update l b (l b ++ [t]) b := by
    rw [Function.update_self]
    exact List.mem_append_right _ (List.mem_singleton.2 rfl)
  refine ⟨rfl, _, hl, b, List.count_eq_one_of_mem (hl.nodup b) ht, fun b' hb ht' => hb ?_⟩
  exact hl.disj ht' ht

/-- With a timeout that the wheels hold, the timer is armed for the deadline that is noted. -/
theorem LinksOk.timerReset_of_le (h : LinksOk mgr) (hcb : (mgr.timers t).cb.isSome)
    (ht : timeout ≤ timerMaxTimeout) :
    ∃ mgr', Timer.timerReset mgr t timeout = .ok (0, mgr') ∧
      ArmedOnce mgr' t (clampedTimeout mgr.timeout timeout) := by
  obtain ⟨l, hl⟩ := h.holds
  obtain ⟨m, hstart, -, hdeadline, hlinks⟩ := timerStart_eq (hl.unlink t) h.not_armed_timerStop hcb
    (mgr.timers t).cb_args ht 0
  refine ⟨m, ?_, ?_⟩
  · simp only [Timer.timerReset, Option.isNone_iff_eq_none, Option.isSome_iff_ne_none.1 hcb, if_false]
    rw [hstart]
    rfl
  · have harmed := armedOnce_of_append hlinks
    rw [hdeadline] at harmed
    exact harmed

theorem LinksOk.resetsCleanly_iff (h : LinksOk mgr) (hcb : (mgr.timers t).cb.isSome) :
    ResetsCleanly mgr t timeout (Timer.timerReset mgr t timeout) ↔
      timeout ≤ timerMaxTimeout ∧ mgr.timeout + timeout < 2 ^ 64 := by
  by_cases ht : timeout ≤ timerMaxTimeout
  · have ht64 : timeout < 2 ^ 64 := lt_of_le_of_lt ht (by decide)
    obtain ⟨m, hreset, hdeadline, hlist⟩ := h.timerReset_of_le hcb ht
    rw [← clampedTimeout_eq_iff h.clock ht64]
    constructor
    · rintro ⟨r, mgr', hr, hclean⟩
      rw [hreset] at hr
      cases hr
      rcases hclean with ⟨-, harmed⟩ | ⟨hne, -⟩
      · exact ⟨ht, hdeadline.symm.trans harmed.1⟩
      · exact absurd rfl hne
    · rintro ⟨-, heq⟩
      exact ⟨0, m, hreset, .inl ⟨rfl, hdeadline.trans heq, hlist⟩⟩
  · refine ⟨?_, fun hc => absurd hc.1 ht⟩
    -- the timer has been stopped, and its start has been refused
    rintro ⟨r, mgr', hr, hclean⟩
    rw [timerReset_stops hcb (Nat.lt_of_not_le ht)] at hr
    cases hr
    rcases hclean with ⟨-, harmed⟩ | ⟨hne, -⟩
    · exact absurd harmed.armed h.not_armed_timerStop
    · exact absurd rfl hne

/-- **A clean reset.** For every reachable manager and every timer with a callback, armed or not:
`timer_reset` and `flowQoS_timer_reset` return 0 with the timer armed once for the clock and the timeout,
or return something else with nothing changed, exactly when the timeout is one that the wheels hold and
the deadline is a 64-bit number. -/
theorem timerReset_clean_iff (h : Reachable mgr) (hcb : (mgr.timers t).cb.isSome) (timeout : ℕ) :
    (ResetsCleanly mgr t timeout (timerReset mgr t timeout) ↔
      timeout ≤ timerMaxTimeout ∧ mgr.timeout + timeout < 2 ^ 64) ∧
    (ResetsCleanly mgr t timeout (flowQoSTimerReset mgr t timeout) ↔
      timeout ≤ timerMaxTimeout ∧ mgr.timeout + timeout < 2 ^ 64) :=
  ⟨h.linksOk.resetsCleanly_iff hcb, h.linksOk.resetsCleanly_iff hcb⟩

/-- A manager whose clock is at 0, with one timer that is armed for the clock value 5. -/
def oneArmed : FlowQoSTimerMgr ℕ Unit Unit :=
  match timerStart (flowQoSTimerMgrInit 0) 0 (some ()) none 5 0 with
  | .ok (_, mgr) => mgr
  | .error _ => flowQoSTimerMgrInit 0

theorem oneArmed_reachable : Reachable oneArmed := by
  have hoff : ¬ Armed (flowQoSTimerMgrInit 0 : FlowQoSTimerMgr ℕ Unit Unit) 0 := by decide
  obtain ⟨m, hstart, -⟩ := timerStart_eq (t := 0) holds_empty hoff (Option.isSome_some (a := ())) none
    (show 5 ≤ timerMaxTimeout by decide) 0
  have hm : oneArmed = m := by
    unfold oneArmed
    rw [hstart]
  exact hm ▸ (Reachable.init 0).call (.start hoff hstart)

theorem timerReset_clean_iff_oneArmed :
    (ResetsCleanly oneArmed 0 300000 (timerReset oneArmed 0 300000) ↔
      300000 ≤ timerMaxTimeout ∧ oneArmed.timeout + 300000 < 2 ^ 64) ∧
    (ResetsCleanly oneArmed 0 300000 (flowQoSTimerReset oneArmed 0 300000) ↔
      300000 ≤ timerMaxTimeout ∧ oneArmed.timeout + 300000 < 2 ^ 64) :=
  timerReset_clean_iff oneArmed_reachable (by decide) 300000

/-- The first timeout that the wheels do not hold: 0 is returned, and the timer is off. -/
theorem refused_reset_returns_zero :
    timerReset oneArmed 0 (2 ^ 36) = .ok (0, timerStop oneArmed 0) ∧
      ¬ ResetsCleanly oneArmed 0 (2 ^ 36) (timerReset oneArmed 0 (2 ^ 36)) := by
  refine ⟨timerReset_stops (by decide) (by decide), fun hclean => ?_⟩
  have hle := (oneArmed_reachable.linksOk.resetsCleanly_iff (by decide)).1 hclean
  exact absurd hle.1 (by decide)

end FlowQoS.Timer
