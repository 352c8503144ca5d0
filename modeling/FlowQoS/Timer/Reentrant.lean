import FlowQoS.Lib.AlarmLog
import FlowQoS.Timer.Tick

/-!
# Callbacks that use the timers

`timer_tick` saves the successor of a timer in the bucket it walks, fires the timer, and goes on with the
successor that it has saved. In between the callback may stop, start and reset timers. Where it leaves the
timer that is now the first of the bucket in its place (`OrderlyCall`), the walk goes on where it should,
and every timer that is armed is fired at its deadline and none that is stopped (`run_orderly`). Where it
stops the successor, the walk fires a timer that is off and then follows a null link (`fireLoop_off`); where
the timer is the last of the bucket and the callback arms it for the same tick, it is missed
(`stopped_successor_null`).

What the callbacks do is a script: the calls that each of them makes, in the order in which they are run.
-/

set_option linter.unusedSectionVars false

namespace FlowQoS.Timer

open Lib Links

/-- A call into the library, by the owner of the manager or by a callback. -/
inductive Request (τ κ α : Type*) where
  | start (t : τ) (cb : Option κ) (args : Option α) (timeout repeatTime : ℕ)
  | stop (t : τ)
  | reset (t : τ) (timeout : ℕ)

/-- A call of the owner. -/
inductive Turn (τ κ α : Type*) where
  | call (r : Request τ κ α)
  | tick

/-- What the callbacks have still to do, and what has happened. -/
structure Script (τ κ α : Type*) where
  todo : List (List (Request τ κ α))
  log : List (AlarmEvent τ)

variable {τ κ α : Type*} [DecidableEq τ]

/-- The call, and what it does to its timer. -/
def Request.run : Request τ κ α → FlowQoSTimerMgr τ κ α × List (AlarmEvent τ) →
    Except Fault (FlowQoSTimerMgr τ κ α × List (AlarmEvent τ))
  | .start t cb args timeout repeatTime, (mgr, log) =>
    (timerStart mgr t cb args timeout repeatTime).map fun r =>
      (r.2, if r.1 = 0 then log ++ [.armed t (mgr.timeout + timeout) repeatTime] else log)
  | .stop t, (mgr, log) => .ok (timerStop mgr t, log ++ [.stopped t])
  | .reset t timeout, (mgr, log) =>
    (timerReset mgr t timeout).map fun r =>
      (r.2, if r.1 = 0 then log ++ [.armed t (mgr.timeout + timeout) 0] else log)

def runRequests (rs : List (Request τ κ α)) (s : FlowQoSTimerMgr τ κ α × List (AlarmEvent τ)) :
    Except Fault (FlowQoSTimerMgr τ κ α × List (AlarmEvent τ)) :=
  rs.foldlM (fun s r => r.run s) s

/-- The next callback of the script, run for the timer. -/
def runScript (t : τ) (s : FlowQoSTimerMgr τ κ α × Script τ κ α) :
    Except Fault (FlowQoSTimerMgr τ κ α × Script τ κ α) :=
  (runRequests (s.2.todo.headD []) (s.1, s.2.log ++ [.fired t s.1.timeout])).map fun r =>
    (r.1, { todo := s.2.todo.tail, log := r.2 })

def scripted : Callback τ κ α (Script τ κ α) := fun _ => runScript

def Turn.run (fuel : ℕ) :
    Turn τ κ α → FlowQoSTimerMgr τ κ α × Script τ κ α → Except Fault (FlowQoSTimerMgr τ κ α × Script τ κ α)
  | .call r, s => (r.run (s.1, s.2.log)).map fun x => (x.1, { s.2 with log := x.2 })
  | .tick, s => (timerTick scripted fuel s).map Prod.snd

def runTurns (fuel : ℕ) (turns : List (Turn τ κ α)) (s : FlowQoSTimerMgr τ κ α × Script τ κ α) :
    Except Fault (FlowQoSTimerMgr τ κ α × Script τ κ α) :=
  turns.foldlM (fun s turn => turn.run fuel s) s

/-! ### What the callbacks keep to -/

/-- A timer that is started is off, and the wheels can hold the times. -/
def Request.Allowed (mgr : FlowQoSTimerMgr τ κ α) : Request τ κ α → Prop
  | .start t cb _ timeout repeatTime =>
    cb.isSome ∧ ¬ Armed mgr t ∧ timeout ≤ timerMaxTimeout ∧ repeatTime ≤ timerMaxTimeout
  | .stop _ => True
  | .reset _ timeout => timeout ≤ timerMaxTimeout

instance Request.decidableAllowed (mgr : FlowQoSTimerMgr τ κ α) :
    (r : Request τ κ α) → Decidable (r.Allowed mgr)
  | .start t cb _ timeout repeatTime =>
    inferInstanceAs (Decidable (cb.isSome ∧ ¬ Armed mgr t ∧ timeout ≤ timerMaxTimeout ∧
      repeatTime ≤ timerMaxTimeout))
  | .stop _ => inferInstanceAs (Decidable True)
  | .reset _ timeout => inferInstanceAs (Decidable (timeout ≤ timerMaxTimeout))

/-- Each call is allowed in the state the ones before it lead to. -/
def Allowed : List (Request τ κ α) → FlowQoSTimerMgr τ κ α × List (AlarmEvent τ) → Prop
  | [], _ => True
  | r :: rs, s => r.Allowed s.1 ∧
    match r.run s with
    | .ok s' => Allowed rs s'
    | .error _ => True

instance Allowed.decidable : (rs : List (Request τ κ α)) →
    (s : FlowQoSTimerMgr τ κ α × List (AlarmEvent τ)) → Decidable (Allowed rs s)
  | [], _ => isTrue trivial
  | r :: rs, s =>
    have : Decidable (match r.run s with
        | .ok s' => Allowed rs s'
        | .error _ => True) :=
      match r.run s with
      | .ok s' => Allowed.decidable rs s'
      | .error _ => isTrue trivial
    inferInstanceAs (Decidable (r.Allowed s.1 ∧ _))

/-- The callback of a timer that is off the bucket: its calls are allowed, and the first timer of the bucket,
the one the walk has saved, is left in its place. -/
def OrderlyCall (bucket : ℕ × ℕ) (t : τ) (s : FlowQoSTimerMgr τ κ α × Script τ κ α) : Prop :=
  Allowed (s.2.todo.headD []) (s.1, s.2.log ++ [.fired t s.1.timeout]) ∧
    match runScript t s with
    | .ok s' => s'.1.links.next (.head bucket) = s.1.links.next (.head bucket)
    | .error _ => True

instance OrderlyCall.decidable (bucket : ℕ × ℕ) (t : τ) (s : FlowQoSTimerMgr τ κ α × Script τ κ α) :
    Decidable (OrderlyCall bucket t s) :=
  have : Decidable (match runScript t s with
      | .ok s' => s'.1.links.next (.head bucket) = s.1.links.next (.head bucket)
      | .error _ => True) :=
    match runScript t s with
    | .ok s' => inferInstanceAs (Decidable (s'.1.links.next (.head bucket) = s.1.links.next (.head bucket)))
    | .error _ => isTrue trivial
  inferInstanceAs (Decidable (_ ∧ _))

/-- The callbacks of a walk are orderly, each in the state it is called in. -/
def OrderlyWalk (bucket : ℕ × ℕ) :
    ℕ → Option (Node (ℕ × ℕ) τ) → FlowQoSTimerMgr τ κ α × Script τ κ α → Prop
  | fuel + 1, some (.elem t), s =>
    match timerAgain (timerStop s.1 t) t with
    | .error _ => True
    | .ok (_, mgr) => OrderlyCall bucket t (mgr, s.2) ∧
      match runScript t (mgr, s.2) with
      | .error _ => True
      | .ok s' => OrderlyWalk bucket fuel (s.1.links.next (.elem t)) s'
  | _, _, _ => True

instance OrderlyWalk.decidable (bucket : ℕ × ℕ) : (fuel : ℕ) → (timer : Option (Node (ℕ × ℕ) τ)) →
    (s : FlowQoSTimerMgr τ κ α × Script τ κ α) → Decidable (OrderlyWalk bucket fuel timer s)
  | 0, _, _ => isTrue trivial
  | _ + 1, none, _ => isTrue trivial
  | _ + 1, some (.head _), _ => isTrue trivial
  | fuel + 1, some (.elem t), s =>
    match h : timerAgain (timerStop s.1 t) t with
    | .error _ => isTrue (by simp [OrderlyWalk, h])
    | .ok (_, mgr) =>
      have : Decidable (match runScript t (mgr, s.2) with
          | .error _ => True
          | .ok s' => OrderlyWalk bucket fuel (s.1.links.next (.elem t)) s') :=
        match runScript t (mgr, s.2) with
        | .error _ => isTrue trivial
        | .ok s' => OrderlyWalk.decidable bucket fuel (s.1.links.next (.elem t)) s'
      decidable_of_iff (OrderlyCall bucket t (mgr, s.2) ∧
        match runScript t (mgr, s.2) with
        | .error _ => True
        | .ok s' => OrderlyWalk bucket fuel (s.1.links.next (.elem t)) s') (by simp only [OrderlyWalk, h])

/-- The call is allowed, or the callbacks of the tick are orderly. -/
def Turn.Orderly (fuel : ℕ) : Turn τ κ α → FlowQoSTimerMgr τ κ α × Script τ κ α → Prop
  | .call r, s => r.Allowed s.1
  | .tick, s =>
    match (if s.1.timeout % timerBucketCount = 0 then cascadeWheels fuel (timerWheelCount - 1) 1 s.1
        else .ok s.1) with
    | .error _ => True
    | .ok mgr => OrderlyWalk (0, s.1.timeout % timerBucketCount) fuel
        (mgr.links.next (.head (0, s.1.timeout % timerBucketCount))) (mgr, s.2)

instance Turn.decidableOrderly (fuel : ℕ) (s : FlowQoSTimerMgr τ κ α × Script τ κ α) :
    (turn : Turn τ κ α) → Decidable (turn.Orderly fuel s)
  | .call r => inferInstanceAs (Decidable (r.Allowed s.1))
  | .tick =>
    match h : (if s.1.timeout % timerBucketCount = 0 then cascadeWheels fuel (timerWheelCount - 1) 1 s.1
        else .ok s.1) with
    | .error _ => isTrue (by simp only [Turn.Orderly, h])
    | .ok mgr => decidable_of_iff (OrderlyWalk (0, s.1.timeout % timerBucketCount) fuel
        (mgr.links.next (.head (0, s.1.timeout % timerBucketCount))) (mgr, s.2))
        (by simp only [Turn.Orderly, h])

/-- Every turn is orderly in the state the ones before it lead to, and the clock stays away from the end of
its range. -/
def Orderly (fuel : ℕ) : List (Turn τ κ α) → FlowQoSTimerMgr τ κ α × Script τ κ α → Prop
  | [], _ => True
  | turn :: turns, s => (s.1.timeout < 2 ^ 64 - 2 ^ 36 ∧ turn.Orderly fuel s) ∧
    match turn.run fuel s with
    | .ok s' => Orderly fuel turns s'
    | .error _ => True

instance Orderly.decidable (fuel : ℕ) : (turns : List (Turn τ κ α)) →
    (s : FlowQoSTimerMgr τ κ α × Script τ κ α) → Decidable (Orderly fuel turns s)
  | [], _ => isTrue trivial
  | turn :: turns, s =>
    have : Decidable (match turn.run fuel s with
        | .ok s' => Orderly fuel turns s'
        | .error _ => True) :=
      match turn.run fuel s with
      | .ok s' => Orderly.decidable fuel turns s'
      | .error _ => isTrue trivial
    inferInstanceAs (Decidable ((s.1.timeout < 2 ^ 64 - 2 ^ 36 ∧ turn.Orderly fuel s) ∧ _))

/-! ### The calls -/

variable {mgr mgr' mgr'' : FlowQoSTimerMgr τ κ α} {l l' l'' : ℕ × ℕ → List τ} {log log' : List (AlarmEvent τ)}
  {t u : τ} {n n' fuel : ℕ}

/-- At most `n` timers are armed. -/
def Room (mgr : FlowQoSTimerMgr τ κ α) (n : ℕ) : Prop :=
  ∃ S : Finset τ, S.card ≤ n ∧ ∀ t, Armed mgr t → t ∈ S

/-- The log leaves the timers as they are armed, and every timer that was fired was due. -/
structure LogOk (mgr : FlowQoSTimerMgr τ κ α) (log : List (AlarmEvent τ)) : Prop where
  armed : ∀ t, armedIn log t = (alarms mgr).armed t
  due : ∀ pre t c post, log = pre ++ .fired t c :: post → ∃ p, armedIn pre t = some (c, p)

/-- What at most `n` calls do to the clock, the buckets and the number of the armed timers. -/
structure Effect (mgr mgr' : FlowQoSTimerMgr τ κ α) (l l' : ℕ × ℕ → List τ) (n : ℕ) : Prop where
  timeout : mgr'.timeout = mgr.timeout
  high : l (1, mgr.timeout / 262144 % 262144) = [] → l' (1, mgr.timeout / 262144 % 262144) = []
  length : ∀ b, (l' b).length ≤ (l b).length + n
  room : ∀ m, Room mgr m → Room mgr' (m + n)

theorem Effect.refl (mgr : FlowQoSTimerMgr τ κ α) (l : ℕ × ℕ → List τ) : Effect mgr mgr l l 0 :=
  ⟨rfl, id, fun _ => Nat.le_refl _, fun _ h => h⟩

theorem Effect.trans (h : Effect mgr mgr' l l' n) (h' : Effect mgr' mgr'' l' l'' n') :
    Effect mgr mgr'' l l'' (n + n') where
  timeout := h'.timeout.trans h.timeout
  high hl := by
    have := h'.high
    rw [h.timeout] at this
    exact this (h.high hl)
  length b := by
    have h1 := h.length b
    have h2 := h'.length b
    omega
  room m hm := by
    rw [← Nat.add_assoc]
    exact h'.room _ (h.room m hm)

theorem Room.mono (h : Room mgr n) (hsub : ∀ u, Armed mgr' u → Armed mgr u) (hle : n ≤ n') : Room mgr' n' := by
  obtain ⟨S, hcard, hS⟩ := h
  exact ⟨S, hcard.trans hle, fun u hu => hS u (hsub u hu)⟩

theorem Room.insert (h : Room mgr n) (hsub : ∀ u, Armed mgr' u → u = t ∨ Armed mgr u) :
    Room mgr' (n + 1) := by
  obtain ⟨S, hcard, hS⟩ := h
  refine ⟨Insert.insert t S, (Finset.card_insert_le _ _).trans (Nat.add_le_add_right hcard 1),
    fun u hu => ?_⟩
  rcases hsub u hu with rfl | hu
  · exact Finset.mem_insert_self _ _
  · exact Finset.mem_insert_of_mem (hS u hu)

/-- One more event: it tells what has happened to the timer, and a timer that is fired was due. -/
theorem LogOk.concat (h : LogOk mgr log) {e : AlarmEvent τ}
    (hself : e.after ((alarms mgr).armed e.timer) = (alarms mgr').armed e.timer)
    (hother : ∀ u, u ≠ e.timer → (alarms mgr').armed u = (alarms mgr).armed u)
    (hfired : ∀ t c, e = .fired t c → ∃ p, (alarms mgr).armed t = some (c, p)) :
    LogOk mgr' (log ++ [e]) where
  armed u := by
    by_cases hu : u = e.timer
    · subst hu
      rw [armedIn_concat log rfl, h.armed, hself]
    · have hne : ∀ x ∈ [e], x.timer ≠ u := by
        intro x hx
        rw [List.mem_singleton.1 hx]
        exact Ne.symm hu
      rw [armedIn_of_ne hne, h.armed, hother u hu]
  due pre t c post heq := by
    rcases List.eq_nil_or_concat' post with rfl | ⟨post', e', rfl⟩
    · obtain ⟨rfl, he⟩ := List.append_inj' heq rfl
      obtain ⟨p, hp⟩ := hfired t c (List.singleton_inj.1 he)
      exact ⟨p, (h.armed t).trans hp⟩
    · rw [← List.cons_append, ← List.append_assoc] at heq
      exact h.due pre t c post' (List.append_inj' heq rfl).1

theorem LogOk.armed_event (h : LogOk mgr log) {d p : ℕ} (halarms : alarms mgr' = (alarms mgr).arm t d p) :
    LogOk mgr' (log ++ [.armed t d p]) := by
  refine h.concat ?_ (fun u hu => ?_) fun t c he => (by cases he)
  · rw [halarms, Alarms.arm_armed]
    exact (if_pos rfl).symm
  · rw [halarms, Alarms.arm_armed]
    exact if_neg hu

theorem LogOk.stopped_event (h : LogOk mgr log) (halarms : alarms mgr' = (alarms mgr).disarm t) :
    LogOk mgr' (log ++ [.stopped t]) := by
  refine h.concat ?_ (fun u hu => ?_) fun t c he => (by cases he)
  · rw [halarms, Alarms.disarm_armed]
    exact (if_pos rfl).symm
  · rw [halarms, Alarms.disarm_armed]
    exact if_neg hu

/-- A timer that is off is started. -/
theorem started_spec (h : WheelOk mgr l) (hbound : mgr.timeout + 68719476735 < 2 ^ 64) {cb : Option κ}
    (args : Option α) {timeout repeatTime : ℕ} (hcb : cb.isSome) (hfree : ¬ Armed mgr t)
    (ht : timeout ≤ timerMaxTimeout) (hr : repeatTime ≤ timerMaxTimeout) :
    ∃ mgr' l', timerStart mgr t cb args timeout repeatTime = .ok (0, mgr') ∧ WheelOk mgr' l' ∧
      alarms mgr' = (alarms mgr).arm t (mgr.timeout + timeout) repeatTime ∧ Effect mgr mgr' l l' 1 := by
  obtain ⟨links, hstart, hok⟩ := h.timerStart args (h.not_mem hfree) hcb ht hr hbound
  have halarms := h.alarms_started hok
  refine ⟨_, _, hstart, hok, halarms, rfl, fun hl => ?_, fun b => ?_, fun m hm => hm.insert (t := t) ?_⟩
  · have hne : startBucket mgr.timeout timeout ≠ (1, mgr.timeout / 262144 % 262144) := by
      by_cases h0 : timeout = 0
      · subst h0
        simp [startBucket]
      · exact (startBucket_ne mgr.timeout h0 ht).2
    rw [Function.update_of_ne (Ne.symm hne)]
    exact hl
  · rw [Function.update_apply]
    split
    · next hb =>
      rw [hb, List.length_append]
      exact Nat.le_refl _
    · exact Nat.le_succ _
  · intro u hu
    rw [← isSome_alarms_armed, halarms, Alarms.arm_armed] at hu
    by_cases heq : u = t
    · exact .inl heq
    · rw [if_neg heq, isSome_alarms_armed] at hu
      exact .inr hu

theorem stopped_effect (h : WheelOk mgr l) (t : τ) :
    Effect mgr (timerStop mgr t) l (fun b => (l b).erase t) 0 := by
  refine ⟨rfl, fun hl => ?_, fun b => ?_, fun m hm => hm.mono (fun u hu => ?_) (Nat.le_refl _)⟩
  · rw [hl]
    rfl
  · exact List.length_erase_le
  · exact (h.armed_timerStop.1 hu).2

/-- **A call that is allowed** is what its event says. -/
theorem Request.run_spec (h : WheelOk mgr l) (hbound : mgr.timeout + 68719476735 < 2 ^ 64)
    (hlog : LogOk mgr log) {r : Request τ κ α} (hr : r.Allowed mgr) :
    ∃ mgr' log' l', r.run (mgr, log) = .ok (mgr', log') ∧ WheelOk mgr' l' ∧ LogOk mgr' log' ∧
      Effect mgr mgr' l l' 1 := by
  cases r with
  | start t cb args timeout repeatTime =>
    obtain ⟨hcb, hfree, ht, hrep⟩ := hr
    obtain ⟨mgr', l', hstart, hok, halarms, heff⟩ := started_spec h hbound args hcb hfree ht hrep
    refine ⟨mgr', _, l', ?_, hok, hlog.armed_event halarms, heff⟩
    simp only [Request.run, hstart]
    rfl
  | stop t =>
    have heff := stopped_effect h t
    exact ⟨_, _, _, rfl, h.timerStop t, hlog.stopped_event (h.alarms_timerStop t), heff.timeout, heff.high,
      fun b => (heff.length b).trans (Nat.le_succ _), fun m hm => (heff.room m hm).mono (fun _ => id)
        (Nat.le_succ _)⟩
  | reset t timeout =>
    by_cases hcb : (mgr.timers t).cb.isSome
    · have hstop := h.timerStop t
      have hfree : ¬ Armed (timerStop mgr t) t := fun harm => (h.armed_timerStop.1 harm).1 rfl
      obtain ⟨mgr', l', hstart, hok, halarms, heff⟩ := started_spec hstop hbound (mgr.timers t).cb_args hcb
        hfree hr (Nat.zero_le _)
      have hreset : timerReset mgr t timeout = .ok (0, mgr') := by
        unfold timerReset
        simp only
        rw [if_neg (by simpa [Option.isNone_iff_eq_none, Option.isSome_iff_ne_none] using hcb), hstart]
        rfl
      rw [h.alarms_timerStop, disarm_arm] at halarms
      refine ⟨mgr', _, l', ?_, hok, hlog.armed_event halarms, (stopped_effect h t).trans heff⟩
      simp only [Request.run, hreset]
      rfl
    · have hnone := Option.not_isSome_iff_eq_none.1 hcb
      refine ⟨mgr, log, l, ?_, h, hlog, rfl, id, fun _ => Nat.le_succ _, fun m hm =>
        hm.mono (fun _ => id) (Nat.le_succ _)⟩
      simp only [Request.run, timerReset_reject hnone]
      rfl

/-- The calls of a callback. -/
theorem runRequests_spec : ∀ (rs : List (Request τ κ α)) (mgr : FlowQoSTimerMgr τ κ α)
    (log : List (AlarmEvent τ)) (l : ℕ × ℕ → List τ), WheelOk mgr l → mgr.timeout + 68719476735 < 2 ^ 64 →
    LogOk mgr log → Allowed rs (mgr, log) → ∃ mgr' log' l', runRequests rs (mgr, log) = .ok (mgr', log') ∧
      WheelOk mgr' l' ∧ LogOk mgr' log' ∧ Effect mgr mgr' l l' rs.length := by
  intro rs
  induction rs with
  | nil => exact fun mgr log l h _ hlog _ => ⟨mgr, log, l, rfl, h, hlog, .refl mgr l⟩
  | cons r rs ih =>
    rintro mgr log l h hbound hlog ⟨hr, hrest⟩
    obtain ⟨mgr₁, log₁, l₁, hrun, h₁, hlog₁, heff⟩ := Request.run_spec h hbound hlog hr
    rw [hrun] at hrest
    obtain ⟨mgr', log', l', hrun', h', hlog', heff'⟩ :=
      ih mgr₁ log₁ l₁ h₁ (by rw [heff.timeout]; exact hbound) hlog₁ hrest
    refine ⟨mgr', log', l', ?_, h', hlog', ?_⟩
    · rw [runRequests, List.foldlM_cons, hrun]
      exact hrun'
    · rw [List.length_cons, Nat.add_comm]
      exact heff.trans heff'

/-! ### The walk -/

/-- The calls that the callbacks have still to make. -/
def Script.pending (env : Script τ κ α) : ℕ := (env.todo.map List.length).sum

theorem Script.pending_next (env : Script τ κ α) (log : List (AlarmEvent τ)) :
    (env.todo.headD []).length + (⟨env.todo.tail, log⟩ : Script τ κ α).pending = env.pending := by
  unfold Script.pending
  cases env.todo with
  | nil => rfl
  | cons calls todo => simp

/-- The bucket that a tick walks, and what a tick leaves of the upper wheel. -/
structure Walking (mgr : FlowQoSTimerMgr τ κ α) (l : ℕ × ℕ → List τ) (log : List (AlarmEvent τ)) : Prop where
  wheel : WheelOk mgr l
  clock : mgr.timeout + 68719476735 < 2 ^ 64
  high : mgr.timeout % 262144 = 0 → l (1, mgr.timeout / 262144 % 262144) = []
  log : LogOk mgr log

theorem Walking.effect (h : Walking mgr l log) (hwheel : WheelOk mgr' l') (hlog : LogOk mgr' log')
    (heff : Effect mgr mgr' l l' n) : Walking mgr' l' log' where
  wheel := hwheel
  clock := by
    rw [heff.timeout]
    exact h.clock
  high h0 := by
    rw [heff.timeout] at h0 ⊢
    exact heff.high (h.high h0)
  log := hlog

/-- **A timer is taken off the bucket**, and armed again where it is periodic; then its callback is called. -/
theorem Walking.take (h : Walking mgr l log) {rest : List τ} (hl : l (0, mgr.timeout % 262144) = t :: rest) :
    ∃ mgr' l' r, timerAgain (timerStop mgr t) t = .ok (r, mgr') ∧ (mgr'.timers t).cb.isSome ∧
      Walking mgr' l' (log ++ [.fired t mgr.timeout]) ∧ l' (0, mgr.timeout % 262144) = rest ∧
      mgr'.timeout = mgr.timeout ∧ ∀ m, Room mgr m → Room mgr' m := by
  have ht : t ∈ l (0, mgr.timeout % 262144) := by
    rw [hl]
    exact List.mem_cons_self
  obtain ⟨mgr', l', r, hagain, hok, hsame, htarm, harm, hlow, hhigh⟩ := timerAgain_spec h.wheel ht h.clock
  obtain ⟨p, hp⟩ := (h.wheel.due_iff h.high).2 ht
  refine ⟨mgr', l', r, hagain, ?_, ⟨hok, ?_, fun h0 => ?_, ?_⟩, ?_, hsame.1, fun m hm => ?_⟩
  · rw [(hsame.2.2 t).1]
    exact h.wheel.cb ht
  · rw [hsame.1]
    exact h.clock
  · rw [hsame.1] at h0 ⊢
    rw [hhigh, h.high h0]
    rfl
  · refine h.log.concat ?_ harm fun u c he => ?_
    · show AlarmEvent.after (.fired t mgr.timeout) ((alarms mgr).armed t) = (alarms mgr').armed t
      rw [htarm, hp]
      simp only [AlarmEvent.after, Alarms.advance, hp, if_true]
      rfl
    · cases he
      exact ⟨p, hp⟩
  · rw [hlow, hl, List.erase_cons_head]
  · refine hm.mono (fun u hu => ?_) (Nat.le_refl _)
    by_cases heq : u = t
    · rw [heq]
      exact h.wheel.armed_iff.2 ⟨_, ht⟩
    · rwa [← isSome_alarms_armed, harm u heq, isSome_alarms_armed] at hu

theorem fireLoop_take {b : ℕ × ℕ} {res : ℕ} {r : ℤ} {env : Script τ κ α}
    {s' : FlowQoSTimerMgr τ κ α × Script τ κ α} (hagain : timerAgain (timerStop mgr t) t = .ok (r, mgr'))
    (hcb : (mgr'.timers t).cb.isSome) (hrun : runScript t (mgr', env) = .ok s') :
    fireLoop scripted b (fuel + 1) (some (.elem t)) res (mgr, env) =
      fireLoop scripted b fuel (mgr.links.next (.elem t)) (res + 1) s' := by
  obtain ⟨cb, hcb⟩ := Option.isSome_iff_exists.1 hcb
  conv_lhs => unfold fireLoop
  rw [if_neg (by simp)]
  simp only [hagain, hcb, scripted, hrun]

/-- A walk does not get past a null link. -/
theorem fireLoop_null {ω : Type*} {call : Callback τ κ α ω} {b : ℕ × ℕ} {res : ℕ}
    {s : FlowQoSTimerMgr τ κ α × ω} : ∀ r, fireLoop call b fuel none res s ≠ .ok r := by
  intro r h
  cases fuel with
  | zero => cases h
  | succ fuel =>
    unfold fireLoop at h
    rw [if_neg (by simp)] at h
    cases h

/-- A walk that comes to a timer that is off fires it and then fails, whatever the callbacks do. -/
theorem fireLoop_off {ω : Type*} {call : Callback τ κ α ω} {b : ℕ × ℕ} {res : ℕ}
    {s : FlowQoSTimerMgr τ κ α × ω} (hoff : s.1.links.next (.elem t) = none) :
    ∀ r, fireLoop call b fuel (some (.elem t)) res s ≠ .ok r := by
  intro r h
  cases fuel with
  | zero => cases h
  | succ fuel =>
    unfold fireLoop at h
    rw [if_neg (by simp)] at h
    simp only [hoff] at h
    split at h
    · cases h
    split at h
    · cases h
    split at h
    · cases h
    -- the link that was saved before the callback is null
    exact fireLoop_null _ h

/-- **The walk** fires the timers of the bucket until it is empty. The induction is on the turns of the loop:
each of them takes a timer off the bucket, and a callback puts no more on it than it makes calls. -/
theorem fireLoop_scripted : ∀ (fuel : ℕ) (mgr : FlowQoSTimerMgr τ κ α) (env : Script τ κ α)
    (l : ℕ × ℕ → List τ) (n res : ℕ), Walking mgr l env.log → Room mgr n →
    (l (0, mgr.timeout % 262144)).length + env.pending < fuel →
    OrderlyWalk (0, mgr.timeout % 262144) fuel
      (some (firstOf (.head (0, mgr.timeout % 262144)) (l (0, mgr.timeout % 262144)))) (mgr, env) →
    ∃ res' mgr' env' l' n', fireLoop scripted (0, mgr.timeout % 262144) fuel
        (some (firstOf (.head (0, mgr.timeout % 262144)) (l (0, mgr.timeout % 262144)))) res (mgr, env) =
          .ok (res', mgr', env') ∧ Walking mgr' l' env'.log ∧ mgr'.timeout = mgr.timeout ∧
      l' (0, mgr.timeout % 262144) = [] ∧ Room mgr' n' ∧ n' + env'.pending = n + env.pending := by
  intro fuel
  induction fuel with
  | zero =>
    intro mgr env l n res _ _ hfuel
    exact absurd hfuel (Nat.not_lt_zero _)
  | succ fuel ih =>
    intro mgr env l n res h hroom hfuel hord
    cases hl : l (0, mgr.timeout % 262144) with
    | nil => exact ⟨res, mgr, env, l, n, fireLoop_end _ _ _ _, h, rfl, hl, hroom, rfl⟩
    | cons t rest =>
      obtain ⟨mgr₁, l₁, r, hagain, hcb, h₁, hl₁, hT₁, hroom₁⟩ := h.take hl
      have hnext : mgr.links.next (.elem t) = some (firstOf (.head (0, mgr.timeout % 262144)) rest) :=
        h.wheel.holds.next_elem [] hl
      rw [hl] at hord hfuel
      simp only [firstOf, OrderlyWalk, hagain] at hord
      obtain ⟨⟨hallow, hfirst⟩, hrest⟩ := hord
      rw [← hT₁] at h₁
      obtain ⟨mgr₂, log₂, l₂, hrun, hwheel₂, hlog₂, heff⟩ :=
        runRequests_spec (env.todo.headD []) mgr₁ _ l₁ h₁.wheel h₁.clock h₁.log hallow
      have hcall : runScript t (mgr₁, env) = .ok (mgr₂, ⟨env.todo.tail, log₂⟩) := by
        unfold runScript
        rw [hrun]
        rfl
      rw [hcall] at hfirst hrest
      have hT₂ : mgr₂.timeout = mgr.timeout := heff.timeout.trans hT₁
      have hpending := env.pending_next log₂
      -- the walk goes on with the first timer of the bucket as the callback has left it
      have hgo : mgr.links.next (.elem t) =
          some (firstOf (.head (0, mgr₂.timeout % 262144)) (l₂ (0, mgr₂.timeout % 262144))) := by
        rw [hnext, hT₂, ← hwheel₂.holds.next_head, ← hl₁, ← h₁.wheel.holds.next_head]
        exact hfirst.symm
      have hlen : (l₂ (0, mgr₂.timeout % 262144)).length + (⟨env.todo.tail, log₂⟩ : Script τ κ α).pending <
          fuel := by
        have h1 := heff.length (0, mgr.timeout % 262144)
        rw [hl₁] at h1
        rw [hT₂]
        rw [List.length_cons] at hfuel
        omega
      rw [hgo, ← hT₂] at hrest
      obtain ⟨res', mgr', env', l', n', hloop, h', hT', hl', hroom', hcount⟩ :=
        ih mgr₂ ⟨env.todo.tail, log₂⟩ l₂ _ (res + 1) (h₁.effect hwheel₂ hlog₂ heff)
          (heff.room n (hroom₁ n hroom)) hlen hrest
      rw [hT₂] at hloop hgo hl'
      refine ⟨res', mgr', env', l', n', ?_, h', hT'.trans hT₂, hl', hroom', by omega⟩
      show fireLoop scripted _ (fuel + 1) (some (.elem t)) res (mgr, env) = _
      rw [fireLoop_take hagain hcb hcall, hgo]
      exact hloop

/-! ### Runs -/

def Turn.isTick : Turn τ κ α → Bool
  | .call _ => false
  | .tick => true

/-- What holds between the turns of a run, with at most `n` timers armed. -/
structure TurnInv (s : FlowQoSTimerMgr τ κ α × Script τ κ α) (n : ℕ) : Prop where
  wheel : WheelInv s.1
  log : LogOk s.1 s.2.log
  room : Room s.1 n

theorem LogOk.congr (h : LogOk mgr log) (halarms : (alarms mgr').armed = (alarms mgr).armed) :
    LogOk mgr' log where
  armed t := by
    rw [halarms]
    exact h.armed t
  due := h.due

variable {s : FlowQoSTimerMgr τ κ α × Script τ κ α}

/-- **A tick** whose callbacks are orderly. -/
theorem TurnInv.tick (h : TurnInv s n) (hclock : s.1.timeout < 2 ^ 64 - 2 ^ 36)
    (hfuel : n + s.2.pending < fuel) (hord : (Turn.tick : Turn τ κ α).Orderly fuel s) :
    ∃ s' n', (Turn.tick : Turn τ κ α).run fuel s = .ok s' ∧ TurnInv s' n' ∧
      n' + s'.2.pending = n + s.2.pending ∧ s'.1.timeout = s.1.timeout + 1 := by
  obtain ⟨mgr, env⟩ := s
  obtain ⟨⟨l, hwheel⟩, hlog, hroom⟩ := h
  have hbound : mgr.timeout + 68719476735 < 2 ^ 64 := by
    have : mgr.timeout < 2 ^ 64 - 2 ^ 36 := hclock
    omega
  obtain ⟨S, hcard, hS⟩ := hroom
  have hlen : S.card + env.pending < fuel := Nat.lt_of_le_of_lt (Nat.add_le_add_right hcard _) hfuel
  obtain ⟨m, l₁, hcas, hok, hhigh, hT, htimers, -, hmem⟩ := tick_cascade hwheel hbound
    (hwheel.length_lt hS (Nat.lt_of_le_of_lt (Nat.le_add_right _ _) hlen) _)
  have halarms : alarms m = alarms mgr := alarms_congr hT htimers hwheel hok hmem
  have hsub : ∀ u, Armed m u → Armed mgr u := fun u hu => by
    rwa [← isSome_alarms_armed, halarms, isSome_alarms_armed] at hu
  have hwalk : Walking m l₁ env.log := by
    refine ⟨hok, ?_, ?_, hlog.congr (by rw [halarms])⟩
    · rw [hT]
      exact hbound
    · rw [hT]
      exact hhigh
  have hbucket : (l₁ (0, m.timeout % 262144)).length + env.pending < fuel := by
    have := hok.length_lt (fun u hu => hS u (hsub u hu)) (Nat.lt_succ_self _) (0, m.timeout % 262144)
    omega
  unfold Turn.Orderly at hord
  simp only [hcas] at hord
  rw [timerBucketCount_eq, ← hT, hok.holds.next_head] at hord
  obtain ⟨res, mgr', env', l', n', hloop, h', hT', hempty, hroom', hcount⟩ :=
    fireLoop_scripted fuel m env l₁ n 0 hwalk ⟨S, hcard, fun u hu => hS u (hsub u hu)⟩ hbucket hord
  have hnext : (mgr'.timeout + 1) % 2 ^ 64 = mgr'.timeout + 1 := Nat.mod_eq_of_lt (by omega)
  refine ⟨({ mgr' with timeout := mgr'.timeout + 1 }, env'), n', ?_, ⟨⟨l', ?_⟩, h'.log.congr rfl, hroom'⟩,
    hcount, ?_⟩
  · unfold Turn.run timerTick
    simp only [hcas]
    rw [timerBucketCount_eq, ← hT, hok.holds.next_head, hloop]
    simp only [hnext]
    rfl
  · refine h'.wheel.succ ?_ h'.high
    rw [hT']
    exact hempty
  · show mgr'.timeout + 1 = mgr.timeout + 1
    rw [hT', hT]

/-- **One turn** of a run. -/
theorem TurnInv.step (h : TurnInv s n) (hclock : s.1.timeout < 2 ^ 64 - 2 ^ 36)
    (hfuel : n + s.2.pending < fuel) {turn : Turn τ κ α} (hord : turn.Orderly fuel s) :
    ∃ s' n', turn.run fuel s = .ok s' ∧ TurnInv s' n' ∧ n' + s'.2.pending ≤ n + s.2.pending + 1 ∧
      s'.1.timeout = s.1.timeout + if turn.isTick then 1 else 0 := by
  cases turn with
  | call r =>
    obtain ⟨mgr, env⟩ := s
    obtain ⟨⟨l, hwheel⟩, hlog, hroom⟩ := h
    obtain ⟨mgr', log', l', hrun, hwheel', hlog', heff⟩ := Request.run_spec hwheel (by
      have : mgr.timeout < 2 ^ 64 - 2 ^ 36 := hclock
      omega) hlog hord
    refine ⟨(mgr', { env with log := log' }), n + 1, ?_, ⟨⟨l', hwheel'⟩, hlog', heff.room n hroom⟩, ?_,
      heff.timeout⟩
    · simp only [Turn.run, hrun]
      rfl
    · show n + 1 + env.pending ≤ n + env.pending + 1
      omega
  | tick =>
    obtain ⟨s', n', hrun, h', hcount, hT⟩ := h.tick hclock hfuel hord
    exact ⟨s', n', hrun, h', by omega, hT⟩

theorem TurnInv.run : ∀ (turns : List (Turn τ κ α)) (s : FlowQoSTimerMgr τ κ α × Script τ κ α) (n : ℕ),
    TurnInv s n → Orderly fuel turns s → n + s.2.pending + turns.length < fuel →
    ∃ s' n', runTurns fuel turns s = .ok s' ∧ TurnInv s' n' ∧
      s'.1.timeout = s.1.timeout + turns.countP Turn.isTick := by
  intro turns
  induction turns with
  | nil => exact fun s n h _ _ => ⟨s, n, rfl, h, rfl⟩
  | cons turn turns ih =>
    rintro s n h ⟨⟨hclock, hord⟩, hrest⟩ hfuel
    rw [List.length_cons] at hfuel
    obtain ⟨s₁, n₁, hrun, h₁, hcount, hT⟩ := h.step hclock (by omega) hord
    rw [hrun] at hrest
    obtain ⟨s', n', hrun', h', hT'⟩ := ih s₁ n₁ h₁ hrest (by omega)
    refine ⟨s', n', ?_, h', ?_⟩
    · rw [runTurns, List.foldlM_cons, hrun]
      exact hrun'
    · rw [hT', hT, List.countP_cons]
      omega

theorem turnInv_init (rdtsc : ℕ) (todo : List (List (Request τ κ α))) :
    TurnInv (flowQoSTimerMgrInit rdtsc, ⟨todo, []⟩) 0 := by
  have hnot : ∀ t, ¬ Armed (flowQoSTimerMgrInit rdtsc : FlowQoSTimerMgr τ κ α) t := by
    intro t ht
    obtain ⟨b, hb⟩ := (wheelOk_init rdtsc).armed_iff.1 ht
    exact absurd hb List.not_mem_nil
  refine ⟨⟨_, wheelOk_init rdtsc⟩, ⟨fun t => ?_, fun pre t c post h => ?_⟩, ∅, Nat.le_refl _, fun t ht =>
    absurd ht (hnot t)⟩
  · rw [alarms_armed_of_not (hnot t)]
    rfl
  · simp at h

/-- No deadline of an armed timer lies behind the clock. -/
theorem TurnInv.kept (h : TurnInv s n) : Kept s.2.log s.1.timeout where
  due := h.log.due
  ahead t d p hp := by
    rw [h.log.armed] at hp
    obtain ⟨l, hwheel⟩ := h.wheel
    have harmed : Armed s.1 t := isSome_alarms_armed.1 (by rw [hp]; rfl)
    rw [alarms_armed_of harmed] at hp
    cases hp
    obtain ⟨⟨w, i⟩, hb⟩ := hwheel.armed_iff.1 harmed
    rcases hwheel.wheel hb with rfl | rfl
    · exact (hwheel.low hb).1
    · obtain ⟨c, -, h1, -, h3, -⟩ := hwheel.high hb
      exact Nat.le_trans h1 h3

/-- **Ticks are safe against orderly callbacks.** The owner and the callbacks start, stop and reset timers as
they like, but that no call starts a timer that is armed and every callback leaves the timer that is the
first of the walked bucket in its place. Then no walk follows a null link and every tick ends; a timer that
was stopped is not fired before it is armed again; and a timer that was armed is fired by the tick that
processes its deadline, and by no other, unless it is stopped or armed anew before. -/
theorem run_orderly (rdtsc : ℕ) (todo : List (List (Request τ κ α))) (turns : List (Turn τ κ α)) (fuel : ℕ)
    (hfuel : turns.length + (todo.map List.length).sum < fuel)
    (hord : Orderly fuel turns (flowQoSTimerMgrInit rdtsc, ⟨todo, []⟩)) :
    ∃ mgr env, runTurns fuel turns (flowQoSTimerMgrInit rdtsc, ⟨todo, []⟩) = .ok (mgr, env) ∧
      mgr.timeout = turns.countP Turn.isTick ∧
      (∀ pre t mid c post, env.log = pre ++ .stopped t :: mid ++ .fired t c :: post →
        ∃ d p, .armed t d p ∈ mid) ∧
      (∀ pre t d p post, env.log = pre ++ .armed t d p :: post → d < mgr.timeout →
        ∃ mid e rest, post = mid ++ e :: rest ∧ (∀ x ∈ mid, x.timer ≠ t) ∧ e.timer = t ∧
          ∀ c, e = .fired t c → c = d) ∧
      ∀ pre t c post, env.log = pre ++ .fired t c :: post → ∃ p, armedIn pre t = some (c, p) := by
  obtain ⟨⟨mgr, env⟩, n, hrun, h, hT⟩ := TurnInv.run turns _ 0 (turnInv_init rdtsc todo) hord (by
    show 0 + (todo.map List.length).sum + turns.length < fuel
    omega)
  have hkept : Kept env.log mgr.timeout := h.kept
  refine ⟨mgr, env, hrun, ?_, fun pre t mid c post hlog => hkept.stopped hlog,
    fun pre t d p post hlog hd => hkept.on_time hlog hd, hkept.due⟩
  rw [hT]
  exact Nat.zero_add _

/-- A periodic timer and two others are due at once. The first callback stops the last timer of the three and
puts its own timer off, the second starts the stopped one again. -/
theorem run_orderly_script : ∃ mgr env, runTurns (τ := ℕ) (κ := Unit) (α := Unit) 40
      [.call (.start 0 (some ()) none 1 2), .call (.start 1 (some ()) none 1 0),
        .call (.start 2 (some ()) none 1 0), .tick, .tick, .tick, .tick, .tick, .tick, .tick]
      (flowQoSTimerMgrInit 0, ⟨[[.stop 2, .reset 0 5], [.start 2 (some ()) none 3 0]], []⟩) = .ok (mgr, env) ∧
    mgr.timeout = 7 ∧
    ∀ pre t c post, env.log = pre ++ .fired t c :: post → ∃ p, armedIn pre t = some (c, p) := by
  obtain ⟨mgr, env, hrun, hT, -, -, hdue⟩ := run_orderly (τ := ℕ) (κ := Unit) (α := Unit) 0
    [[.stop 2, .reset 0 5], [.start 2 (some ()) none 3 0]]
    [.call (.start 0 (some ()) none 1 2), .call (.start 1 (some ()) none 1 0),
      .call (.start 2 (some ()) none 1 0), .tick, .tick, .tick, .tick, .tick, .tick, .tick] 40
    (by decide) (by decide +kernel)
  exact ⟨mgr, env, hrun, hT, hdue⟩

/-- A callback stops the timer that is due after its own, and the walk follows a null link. The callback of the
last timer of a bucket arms it for the same tick, and no tick fires it. -/
theorem stopped_successor_null :
    runTurns (τ := ℕ) (κ := Unit) (α := Unit) 20
      [.call (.start 0 (some ()) none 1 0), .call (.start 1 (some ()) none 1 0), .tick, .tick]
      (flowQoSTimerMgrInit 0, ⟨[[.stop 1]], []⟩) = .error .nullPointer ∧
    ∃ mgr env, runTurns (τ := ℕ) (κ := Unit) (α := Unit) 20
        [.call (.start 0 (some ()) none 1 0), .tick, .tick, .tick, .tick]
        (flowQoSTimerMgrInit 0, ⟨[[.reset 0 0]], []⟩) = .ok (mgr, env) ∧ mgr.timeout = 4 ∧
      env.log = [.armed 0 1 0, .fired 0 1, .armed 0 1 0] :=
  ⟨rfl, _, _, rfl, by decide +kernel, by decide +kernel⟩

end FlowQoS.Timer
