import FlowQoS.Timer.Tick

/-!
# Every timer is fired at its deadlines

A run starts with a fresh manager and is a sequence of `timer_start`, `timer_stop`, `timer_reset` and
`timer_tick`. `Fires ops t c` says, from the operations alone, that the tick that processes the clock
value `c` has to fire `t`: the last operation on `t` before it armed it, and `c` is its deadline or,
for a periodic timer, lies a number of periods after it.

* `RunInv`: what holds after every prefix of a run;
* `run_fires_exactly`: a run never fails, and fires each timer once where `Fires` says so and nowhere
  else.
-/

set_option linter.unusedSectionVars false

namespace FlowQoS.Timer

open Lib Links

/-- A call of the owner of the manager. -/
inductive Op (τ κ α : Type*) where
  | start (t : τ) (cb : Option κ) (args : Option α) (timeout repeatTime : ℕ)
  | stop (t : τ)
  | reset (t : τ) (timeout : ℕ)
  | tick

variable {τ κ α ω : Type*} [DecidableEq τ]

/-- The callback, with a log of the clock value and the timer of each call. -/
def logged (call : Callback τ κ α ω) : Callback τ κ α (ω × List (ℕ × τ)) := fun cb t s =>
  (call cb t (s.1, s.2.1)).map fun r => (r.1, r.2, s.2.2 ++ [(s.1.timeout, t)])

/-- The manager, the state of the callbacks and the log. -/
abbrev RunState (τ κ α ω : Type*) := FlowQoSTimerMgr τ κ α × ω × List (ℕ × τ)

def Op.run (call : Callback τ κ α ω) (fuel : ℕ) :
    Op τ κ α → RunState τ κ α ω → Except Fault (RunState τ κ α ω)
  | .start t cb args timeout repeatTime, s =>
    (timerStart s.1 t cb args timeout repeatTime).map fun r => (r.2, s.2)
  | .stop t, s => .ok (timerStop s.1 t, s.2)
  | .reset t timeout, s => (timerReset s.1 t timeout).map fun r => (r.2, s.2)
  | .tick, s => (timerTick (logged call) fuel s).map Prod.snd

def runOps (call : Callback τ κ α ω) (fuel : ℕ) (ops : List (Op τ κ α)) (s : RunState τ κ α ω) :
    Except Fault (RunState τ κ α ω) :=
  ops.foldlM (fun s op => op.run call fuel s) s

/-- The callbacks leave the manager alone. -/
def Quiet (call : Callback τ κ α ω) : Prop := ∀ cb t m w, ∃ w', call cb t (m, w) = .ok (m, w')

/-- What the owner keeps to: it starts no timer that is armed, with a callback and with times the
wheel can hold. -/
def Op.Allowed (mgr : FlowQoSTimerMgr τ κ α) : Op τ κ α → Prop
  | .start t cb _ timeout repeatTime =>
    cb.isSome ∧ ¬ Armed mgr t ∧ timeout ≤ timerMaxTimeout ∧ repeatTime ≤ timerMaxTimeout
  | .stop _ => True
  | .reset _ timeout => timeout ≤ timerMaxTimeout
  | .tick => True

instance (mgr : FlowQoSTimerMgr τ κ α) : (op : Op τ κ α) → Decidable (op.Allowed mgr)
  | .start t cb _ timeout repeatTime =>
    inferInstanceAs (Decidable (cb.isSome ∧ ¬ Armed mgr t ∧ timeout ≤ timerMaxTimeout ∧
      repeatTime ≤ timerMaxTimeout))
  | .stop _ => inferInstanceAs (Decidable True)
  | .reset _ timeout => inferInstanceAs (Decidable (timeout ≤ timerMaxTimeout))
  | .tick => inferInstanceAs (Decidable True)

/-- Each operation is allowed in the state the ones before it lead to, and the clock stays away from
the end of its range. -/
def Admissible (call : Callback τ κ α ω) (fuel : ℕ) : List (Op τ κ α) → RunState τ κ α ω → Prop
  | [], _ => True
  | op :: ops, s => (s.1.timeout < 2 ^ 64 - 2 ^ 36 ∧ op.Allowed s.1) ∧
    match op.run call fuel s with
    | .ok s' => Admissible call fuel ops s'
    | .error _ => True

instance Admissible.decidable (call : Callback τ κ α ω) (fuel : ℕ) :
    (ops : List (Op τ κ α)) → (s : RunState τ κ α ω) → Decidable (Admissible call fuel ops s)
  | [], _ => isTrue trivial
  | op :: ops, s =>
    have : Decidable (match op.run call fuel s with
        | .ok s' => Admissible call fuel ops s'
        | .error _ => True) :=
      match op.run call fuel s with
      | .ok s' => Admissible.decidable call fuel ops s'
      | .error _ => isTrue trivial
    inferInstanceAs (Decidable ((s.1.timeout < 2 ^ 64 - 2 ^ 36 ∧ op.Allowed s.1) ∧ _))

/-! ### What the operations ask for -/

def Op.isTick : Op τ κ α → Bool
  | .tick => true
  | _ => false

/-- The clock after the operations. -/
def ticks (ops : List (Op τ κ α)) : ℕ := ops.countP Op.isTick

def Started (ops : List (Op τ κ α)) (t : τ) : Prop :=
  ∃ cb args timeout repeatTime, Op.start t cb args timeout repeatTime ∈ ops

/-- The operation names the timer. -/
def Op.Touches (t : τ) : Op τ κ α → Prop
  | .start u _ _ _ _ => u = t
  | .stop u => u = t
  | .reset u _ => u = t
  | .tick => False

/-- The operation, after `ops`, arms `t` with this timeout and period. A reset arms a timer only
when it has been started before, and as a one-shot timer. -/
def Op.Arms (ops : List (Op τ κ α)) (t : τ) (timeout period : ℕ) : Op τ κ α → Prop
  | .start u _ _ d p => u = t ∧ d = timeout ∧ p = period
  | .stop _ => False
  | .reset u d => u = t ∧ Started ops t ∧ d = timeout ∧ 0 = period
  | .tick => False

/-- The last operation on `t` has armed it, for `deadline` and with `period`. -/
def LastArmed (ops : List (Op τ κ α)) (t : τ) (deadline period : ℕ) : Prop :=
  ∃ pre op post timeout, ops = pre ++ op :: post ∧ op.Arms pre t timeout period ∧
    (∀ o ∈ post, ¬ o.Touches t) ∧ deadline = ticks pre + timeout

/-- The tick that processes the clock value `c` has to fire `t`. -/
def Fires (ops : List (Op τ κ α)) (t : τ) (c : ℕ) : Prop :=
  ∃ pre post deadline period k, ops = pre ++ .tick :: post ∧ ticks pre = c ∧
    LastArmed pre t deadline period ∧ c = deadline + k * period

variable {ops : List (Op τ κ α)} {op : Op τ κ α} {t u : τ} {c d p timeout repeatTime fuel : ℕ}
  {mgr mgr' : FlowQoSTimerMgr τ κ α} {cb : Option κ} {args : Option α}

theorem ticks_concat : ticks (ops ++ [op]) = ticks ops + if op.isTick then 1 else 0 := by
  simp [ticks, List.countP_append, List.countP_cons]

theorem started_concat : Started (ops ++ [op]) t ↔
    Started ops t ∨ ∃ cb args timeout repeatTime, op = .start t cb args timeout repeatTime := by
  unfold Started
  constructor
  · rintro ⟨cb, args, d, r, hm⟩
    rcases List.mem_append.1 hm with hm | hm
    · exact .inl ⟨cb, args, d, r, hm⟩
    · exact .inr ⟨cb, args, d, r, (List.mem_singleton.1 hm).symm⟩
  · rintro (⟨cb, args, d, r, hm⟩ | ⟨cb, args, d, r, rfl⟩)
    · exact ⟨cb, args, d, r, List.mem_append_left _ hm⟩
    · exact ⟨cb, args, d, r, by simp⟩

theorem LastArmed.started (h : LastArmed ops t d p) : Started ops t := by
  obtain ⟨pre, op, post, timeout, rfl, harms, -, -⟩ := h
  cases op with
  | start u cb args d' p' =>
    obtain ⟨rfl, -, -⟩ := harms
    exact ⟨cb, args, d', p', by simp⟩
  | stop u => exact harms.elim
  | reset u d' =>
    obtain ⟨-, ⟨cb, args, a, b, hm⟩, -, -⟩ := harms
    exact ⟨cb, args, a, b, by simp [hm]⟩
  | tick => exact harms.elim

/-- A cut of a list with one more element is before that element or at it. -/
theorem concat_cut {β : Type*} {l pre post : List β} {a b : β} (h : l ++ [b] = pre ++ a :: post) :
    (pre = l ∧ a = b ∧ post = []) ∨ ∃ post', post = post' ++ [b] ∧ l = pre ++ a :: post' := by
  rcases List.eq_nil_or_concat' post with rfl | ⟨post', b', rfl⟩
  · obtain ⟨hl, hb⟩ := List.append_inj' h rfl
    exact .inl ⟨hl.symm, (List.singleton_inj.1 hb).symm, rfl⟩
  · rw [← List.cons_append, ← List.append_assoc] at h
    obtain ⟨hl, hb⟩ := List.append_inj' h rfl
    exact .inr ⟨post', by rw [List.singleton_inj.1 hb], hl⟩

/-- One more operation: it arms the timer, or it does not name it. -/
theorem lastArmed_concat : LastArmed (ops ++ [op]) t d p ↔
    (∃ timeout, op.Arms ops t timeout p ∧ d = ticks ops + timeout) ∨
      (¬ op.Touches t ∧ LastArmed ops t d p) := by
  constructor
  · rintro ⟨pre, o, post, timeout, heq, harms, hno, hd⟩
    rcases concat_cut heq with ⟨rfl, rfl, rfl⟩ | ⟨post, rfl, rfl⟩
    · exact .inl ⟨timeout, harms, hd⟩
    · right
      exact ⟨hno _ (by simp), pre, o, post, timeout, rfl, harms, fun o ho => hno o (by simp [ho]), hd⟩
  · rintro (⟨timeout, harms, hd⟩ | ⟨hno, pre, o, post, timeout, rfl, harms, hno', hd⟩)
    · exact ⟨ops, op, [], timeout, rfl, harms, by simp, hd⟩
    · refine ⟨pre, o, post ++ [op], timeout, by simp, harms, fun o ho => ?_, hd⟩
      rcases List.mem_append.1 ho with ho | ho
      · exact hno' o ho
      · rwa [List.mem_singleton.1 ho]

/-- One more operation: a tick fires what is due at the clock value it processes. -/
theorem fires_concat : Fires (ops ++ [op]) t c ↔ Fires ops t c ∨ (op = .tick ∧ ticks ops = c ∧
    ∃ d p k, LastArmed ops t d p ∧ c = d + k * p) := by
  constructor
  · rintro ⟨pre, post, d, p, k, heq, hc, hlast, hk⟩
    rcases concat_cut heq with ⟨rfl, rfl, rfl⟩ | ⟨post, rfl, rfl⟩
    · exact .inr ⟨rfl, hc, d, p, k, hlast, hk⟩
    · exact .inl ⟨pre, post, d, p, k, rfl, hc, hlast, hk⟩
  · rintro (⟨pre, post, d, p, k, rfl, hc, hlast, hk⟩ | ⟨rfl, hc, d, p, k, hlast, hk⟩)
    · exact ⟨pre, post ++ [op], d, p, k, by simp, hc, hlast, hk⟩
    · exact ⟨ops, [], d, p, k, rfl, hc, hlast, hk⟩

theorem Fires.lt (h : Fires ops t c) : c < ticks ops := by
  obtain ⟨pre, post, d, p, k, rfl, rfl, -, -⟩ := h
  simp [ticks, List.countP_append, List.countP_cons, Op.isTick]

/-! ### The invariant of a run -/

/-- What holds after the operations `ops` of a run. -/
structure RunInv (ops : List (Op τ κ α)) (s : RunState τ κ α ω) : Prop where
  wheel : WheelInv s.1
  clock : s.1.timeout = ticks ops
  cb : ∀ t, (s.1.timers t).cb.isSome ↔ Started ops t
  few : ∃ S : Finset τ, S.card ≤ ops.length ∧ ∀ t, Armed s.1 t → t ∈ S
  follows : ∀ {t d p}, LastArmed ops t d p → (alarms s.1).Follows t d p
  covered : ∀ {t}, Armed s.1 t → ∃ d p, LastArmed ops t d p
  log : ∀ t c, (Fires ops t c → s.2.2.count (c, t) = 1) ∧ (¬ Fires ops t c → s.2.2.count (c, t) = 0)

theorem runInv_init (rdtsc : ℕ) (w : ω) :
    RunInv ([] : List (Op τ κ α)) (flowQoSTimerMgrInit rdtsc, w, []) where
  wheel := ⟨_, wheelOk_init rdtsc⟩
  clock := rfl
  cb t := by simp [flowQoSTimerMgrInit, Started]
  few := ⟨∅, by simp, fun t ht => by
    obtain ⟨b, hb⟩ := (wheelOk_init rdtsc).armed_iff.1 ht
    exact absurd hb List.not_mem_nil⟩
  follows h := by
    obtain ⟨pre, op, post, timeout, h, -⟩ := h
    simp at h
  covered ht := by
    obtain ⟨b, hb⟩ := (wheelOk_init rdtsc).armed_iff.1 ht
    exact absurd hb List.not_mem_nil
  log t c := ⟨fun ⟨pre, post, d, p, k, h, _⟩ => by simp at h, fun _ => rfl⟩

variable {s s' : RunState τ κ α ω}

/-- A timer is due exactly when the operations ask for it. -/
theorem RunInv.due_iff (h : RunInv ops s) :
    (alarms s.1).Due t ↔ ∃ d p k, LastArmed ops t d p ∧ ticks ops = d + k * p := by
  constructor
  · rintro ⟨q, hq⟩
    obtain ⟨d, p, hlast⟩ := h.covered (isSome_alarms_armed.1 (by rw [hq]; rfl))
    obtain ⟨k, hk⟩ := (h.follows hlast).due_iff.1 ⟨q, hq⟩
    exact ⟨d, p, k, hlast, by rw [← hk]; exact h.clock.symm⟩
  · rintro ⟨d, p, k, hlast, hk⟩
    exact (h.follows hlast).due_iff.2 ⟨k, by rw [← hk]; exact h.clock⟩

/-- An operation that arms `t`. -/
theorem RunInv.arm (h : RunInv ops s) (t : τ) (timeout : ℕ) {links : Links (ℕ × ℕ) τ}
    (harms : ∀ u d' p', op.Arms ops u d' p' ↔ u = t ∧ d' = timeout ∧ p' = p)
    (htouch : ∀ u, op.Touches u ↔ u = t) (htick : op.isTick = false)
    (hstart : ∀ u, Started (ops ++ [op]) u ↔ u = t ∨ Started ops u) (hcb : cb.isSome)
    (hwheel : WheelInv (started s.1 t cb args timeout p links))
    (halarms : alarms (started s.1 t cb args timeout p links) =
      (alarms s.1).arm t (s.1.timeout + timeout) p) :
    RunInv (ops ++ [op]) (started s.1 t cb args timeout p links, s.2) := by
  have harmed : ∀ u, Armed (started s.1 t cb args timeout p links) u ↔ u = t ∨ Armed s.1 u := by
    intro u
    rw [← isSome_alarms_armed, halarms, Alarms.arm_armed, ← isSome_alarms_armed]
    split <;> simp_all
  obtain ⟨S, hcard, hS⟩ := h.few
  refine ⟨hwheel, ?_, fun u => ?_, ⟨insert t S, ?_, fun u hu => ?_⟩, fun {u d' p'} hlast => ?_,
    fun {u} hu => ?_, fun u c => ?_⟩
  · rw [ticks_concat, htick]
    exact h.clock
  · rw [hstart u, ← h.cb u]
    by_cases hu : u = t
    · subst hu
      simp [started_timers_self, hcb]
    · simp [started_timers_of_ne hu, hu]
  · rw [List.length_append]
    exact (Finset.card_insert_le _ _).trans (Nat.add_le_add_right hcard 1)
  · rcases (harmed u).1 hu with rfl | hu
    · exact Finset.mem_insert_self _ _
    · exact Finset.mem_insert_of_mem (hS u hu)
  · show (alarms (started s.1 t cb args timeout p links)).Follows u d' p'
    rw [halarms]
    rcases lastArmed_concat.1 hlast with ⟨d₁, ha, rfl⟩ | ⟨hno, hlast⟩
    · obtain ⟨rfl, rfl, rfl⟩ := (harms _ _ _).1 ha
      rw [h.clock]
      exact Alarms.follows_arm (by rw [alarms_now, h.clock]; exact Nat.le_add_right _ _)
    · exact (h.follows hlast).arm_ne (fun e => hno ((htouch u).2 e.symm)) _ _
  · rcases (harmed u).1 hu with rfl | harm
    · exact ⟨_, p, lastArmed_concat.2 (.inl ⟨timeout, (harms _ _ _).2 ⟨rfl, rfl, rfl⟩, rfl⟩)⟩
    · by_cases hut : u = t
      · exact ⟨_, p, lastArmed_concat.2 (.inl ⟨timeout, (harms _ _ _).2 ⟨hut, rfl, rfl⟩, rfl⟩)⟩
      · obtain ⟨d', p', hlast⟩ := h.covered harm
        exact ⟨d', p', lastArmed_concat.2 (.inr ⟨fun ht => hut ((htouch u).1 ht), hlast⟩)⟩
  · have hf : Fires (ops ++ [op]) u c ↔ Fires ops u c := by
      rw [fires_concat]
      constructor
      · rintro (hf | ⟨rfl, -⟩)
        · exact hf
        · cases htick
      · exact .inl
    rw [hf]
    exact h.log u c

/-- An operation that leaves `t` off and every other timer as it is. -/
theorem RunInv.disarm (h : RunInv ops s) (harms : ∀ u d' p', ¬ op.Arms ops u d' p')
    (htouch : ∀ u, op.Touches u ↔ u = t) (htick : op.isTick = false)
    (hstart : ∀ u, Started (ops ++ [op]) u ↔ Started ops u) (hwheel : WheelInv mgr)
    (halarms : alarms mgr = (alarms s.1).disarm t)
    (hcb : ∀ u, (mgr.timers u).cb = (s.1.timers u).cb) : RunInv (ops ++ [op]) (mgr, s.2) := by
  have harmed : ∀ u, Armed mgr u ↔ u ≠ t ∧ Armed s.1 u := by
    intro u
    rw [← isSome_alarms_armed, halarms, Alarms.disarm_armed, ← isSome_alarms_armed]
    split <;> simp_all
  obtain ⟨S, hcard, hS⟩ := h.few
  refine ⟨hwheel, ?_, fun u => ?_, ⟨S, ?_, fun u hu => hS u ((harmed u).1 hu).2⟩,
    fun {u d' p'} hlast => ?_, fun {u} hu => ?_, fun u c => ?_⟩
  · rw [ticks_concat, htick]
    exact (congrArg Alarms.now halarms).trans h.clock
  · rw [hstart u, ← h.cb u, hcb u]
  · rw [List.length_append]
    exact hcard.trans (Nat.le_add_right _ _)
  · show (alarms mgr).Follows u d' p'
    rw [halarms]
    rcases lastArmed_concat.1 hlast with ⟨_, ha, -⟩ | ⟨hno, hlast⟩
    · exact absurd ha (harms _ _ _)
    · exact (h.follows hlast).disarm_ne fun e => hno ((htouch u).2 e.symm)
  · obtain ⟨hut, hu⟩ := (harmed u).1 hu
    obtain ⟨d', p', hlast⟩ := h.covered hu
    exact ⟨d', p', lastArmed_concat.2 (.inr ⟨fun ht => hut ((htouch u).1 ht), hlast⟩)⟩
  · have hf : Fires (ops ++ [op]) u c ↔ Fires ops u c := by
      rw [fires_concat]
      constructor
      · rintro (hf | ⟨rfl, -⟩)
        · exact hf
        · cases htick
      · exact .inl
    rw [hf]
    exact h.log u c

variable {call : Callback τ κ α ω}

/-- The effect of the timers of a bucket on a log that gets one entry for each of them. -/
theorem foldlM_recorded {β : Type*} {g : κ → τ → FlowQoSTimerMgr τ κ α → ω → ω}
    (note : FlowQoSTimerMgr τ κ α → τ → β) :
    ∀ (due : List (FlowQoSTimerMgr τ κ α × τ)) (w : ω) (log : List β),
      (∀ x ∈ due, (x.1.timers x.2).cb.isSome) →
      ∃ w', due.foldlM (fire fun cb t m s => .ok (g cb t m s.1, s.2 ++ [note m t])) (w, log) =
        .ok (w', log ++ due.map fun x => note x.1 x.2) := by
  intro due
  induction due with
  | nil => exact fun w log _ => ⟨w, by simp; rfl⟩
  | cons x due ih =>
    intro w log hx
    obtain ⟨cb, hcb⟩ := Option.isSome_iff_exists.1 (hx x (by simp))
    obtain ⟨w', hw'⟩ := ih (g cb x.2 x.1 w) (log ++ [note x.1 x.2]) fun y hy => hx y (by simp [hy])
    refine ⟨w', ?_⟩
    rw [List.foldlM_cons]
    simp only [fire, hcb]
    show List.foldlM _ (g cb x.2 x.1 w, log ++ [note x.1 x.2]) due = _
    rw [hw']
    simp

/-- The effect of the timers of a bucket on the log of a run. -/
theorem foldlM_logged {g : κ → τ → FlowQoSTimerMgr τ κ α → ω → ω} {T : ℕ}
    (due : List (FlowQoSTimerMgr τ κ α × τ)) (w : ω) (log : List (ℕ × τ))
    (hdue : ∀ x ∈ due, x.1.timeout = T ∧ (x.1.timers x.2).cb.isSome) :
    ∃ w', due.foldlM (fire fun cb t m s => .ok (g cb t m s.1, s.2 ++ [(m.timeout, t)])) (w, log) =
      .ok (w', log ++ (due.map Prod.snd).map fun t => (T, t)) := by
  obtain ⟨w', hw'⟩ := foldlM_recorded (g := g) (fun m t => (m.timeout, t)) due w log
    fun x hx => (hdue x hx).2
  refine ⟨w', hw'.trans ?_⟩
  rw [List.map_map]
  congr 3
  exact List.map_congr_left fun x hx => by simp [(hdue x hx).1]

theorem count_stamped {l : List τ} (h : l.Nodup) (T c : ℕ) (t : τ) :
    (l.map fun t => (T, t)).count (c, t) = if T = c ∧ t ∈ l then 1 else 0 := by
  by_cases hc : T = c
  · subst hc
    rw [List.count_map_of_injective _ _ (fun a b hab => by simpa using hab)]
    by_cases ht : t ∈ l
    · rw [if_pos ⟨rfl, ht⟩, List.count_eq_one_of_mem h ht]
    · rw [if_neg (fun hh => ht hh.2), List.count_eq_zero_of_not_mem ht]
  · rw [if_neg (fun hh => hc hh.1), List.count_eq_zero]
    simp [hc]

/-- A tick. -/
theorem RunInv.tick (h : RunInv ops s) (hcall : Quiet call) (hclock : s.1.timeout < 2 ^ 64 - 2 ^ 36)
    (hfuel : ops.length < fuel) :
    ∃ s', Op.tick.run call fuel s = .ok s' ∧ RunInv (ops ++ [.tick]) s' := by
  obtain ⟨m, w, log⟩ := s
  choose g hg using hcall
  have hinert : Inert (logged call) fun cb t m s => .ok (g cb t m s.1, s.2 ++ [(m.timeout, t)]) := by
    intro cb t m s
    simp only [logged, hg]
    rfl
  obtain ⟨S, hcard, hS⟩ := h.few
  obtain ⟨mgr', due, htick, hnd, hdue, hseen, hwheel, halarms, -, hcb⟩ :=
    timerTick_spec hinert h.wheel (show m.timeout + 68719476735 < 2 ^ 64 by simp only at hclock; omega)
      hS (lt_of_le_of_lt hcard hfuel)
  obtain ⟨w', hw'⟩ := foldlM_logged (g := g) (T := m.timeout) due w log fun x hx => by
    refine ⟨(hseen x hx).1, ?_⟩
    rw [((hseen x hx).2.2 x.2).1]
    obtain ⟨p, hp⟩ := (hdue x.2).1 (List.mem_map_of_mem hx)
    obtain ⟨l, hok⟩ := h.wheel
    obtain ⟨b, hb⟩ := hok.armed_iff.1 (isSome_alarms_armed.1 (by rw [hp]; rfl))
    exact hok.cb hb
  refine ⟨_, by simp only [Op.run, htick, hw']; rfl, hwheel, ?_, fun t => ?_, ⟨S, ?_, fun t ht => ?_⟩,
    fun {t d p} hlast => ?_, fun {t} ht => ?_, fun t c => ?_⟩
  · show (alarms mgr').now = _
    rw [halarms, ticks_concat, ← h.clock]
    rfl
  · have hs : Started (ops ++ [.tick]) t ↔ Started ops t := by simp [started_concat]
    rw [hs, ← h.cb t]
    show (mgr'.timers t).cb.isSome ↔ (m.timers t).cb.isSome
    rw [(hcb t).1]
  · rw [List.length_append]
    exact hcard.trans (Nat.le_add_right _ _)
  · refine hS t ?_
    rw [← isSome_alarms_armed] at ht ⊢
    simp only [halarms, Alarms.advance] at ht
    cases hm : (alarms m).armed t with
    | none => simp [hm] at ht
    | some x => rfl
  · show (alarms mgr').Follows t d p
    rw [halarms]
    rcases lastArmed_concat.1 hlast with ⟨_, ha, -⟩ | ⟨-, hlast⟩
    · exact ha.elim
    · exact (h.follows hlast).advance
  · rw [← isSome_alarms_armed] at ht
    simp only [halarms, Alarms.advance] at ht
    have harm : Armed m t := by
      rw [← isSome_alarms_armed]
      cases hm : (alarms m).armed t with
      | none => simp [hm] at ht
      | some x => rfl
    obtain ⟨d, p, hlast⟩ := h.covered harm
    exact ⟨d, p, lastArmed_concat.2 (.inr ⟨id, hlast⟩)⟩
  · have hT : m.timeout = ticks ops := h.clock
    have hf : Fires (ops ++ [.tick]) t c ↔
        Fires ops t c ∨ (m.timeout = c ∧ t ∈ due.map Prod.snd) := by
      rw [fires_concat, hT]
      refine or_congr_right ⟨?_, ?_⟩
      · rintro ⟨-, rfl, hd⟩
        exact ⟨rfl, (hdue t).2 (h.due_iff.2 hd)⟩
      · rintro ⟨rfl, hd⟩
        exact ⟨rfl, rfl, h.due_iff.1 ((hdue t).1 hd)⟩
    obtain ⟨h1, h0⟩ := h.log t c
    have hsep : Fires ops t c → ¬ (m.timeout = c ∧ t ∈ due.map Prod.snd) := fun hfi hh => by
      have := hfi.lt
      omega
    rw [hf]
    show (_ → (log ++ _).count (c, t) = 1) ∧ (_ → (log ++ _).count (c, t) = 0)
    rw [List.count_append, count_stamped hnd]
    constructor
    · rintro (hfi | hd)
      · rw [if_neg (hsep hfi)]
        exact h1 hfi
      · rw [if_pos hd]
        have hno : ¬ Fires ops t c := fun hfi => hsep hfi hd
        rw [show log.count (c, t) = 0 from h0 hno]
    · intro hno
      rw [if_neg (fun hd => hno (.inr hd))]
      exact h0 fun hfi => hno (.inl hfi)

/-- A `timer_start`. -/
theorem RunInv.start (h : RunInv ops s) (hallow : (Op.start t cb args timeout repeatTime).Allowed s.1)
    (hclock : s.1.timeout < 2 ^ 64 - 2 ^ 36) :
    ∃ s', (Op.start t cb args timeout repeatTime).run call fuel s = .ok s' ∧
      RunInv (ops ++ [.start t cb args timeout repeatTime]) s' := by
  obtain ⟨hcb, hfree, ht, hr⟩ := hallow
  rw [timerMaxTimeout_eq] at ht hr
  obtain ⟨links, hstart, hwheel, halarms⟩ :=
    timerStart_spec h.wheel args hfree hcb ht hr (by omega)
  refine ⟨_, by simp only [Op.run, hstart]; rfl, h.arm t timeout ?_ ?_ rfl ?_ hcb
    hwheel halarms⟩
  · intro u d' p'
    simp only [Op.Arms]
    constructor <;> rintro ⟨rfl, rfl, rfl⟩ <;> exact ⟨rfl, rfl, rfl⟩
  · exact fun u => ⟨Eq.symm, Eq.symm⟩
  · intro u
    rw [started_concat, or_comm]
    refine or_congr_left ⟨?_, ?_⟩
    · rintro ⟨_, _, _, _, he⟩
      cases he
      rfl
    · rintro rfl
      exact ⟨_, _, _, _, rfl⟩

/-- A `timer_reset`: it does nothing to a timer that has never been started. -/
theorem RunInv.reset (h : RunInv ops s)
    (hallow : (Op.reset t timeout : Op τ κ α).Allowed s.1)
    (hclock : s.1.timeout < 2 ^ 64 - 2 ^ 36) :
    ∃ s', (Op.reset t timeout).run call fuel s = .ok s' ∧ RunInv (ops ++ [.reset t timeout]) s' := by
  have hstarted : ∀ u, Started (ops ++ [.reset t timeout]) u ↔ Started ops u := fun u => by
    simp [started_concat]
  have ht : timeout ≤ timerMaxTimeout := hallow
  rw [timerMaxTimeout_eq] at ht
  by_cases hcb : (s.1.timers t).cb.isSome
  · have hst : Started ops t := (h.cb t).1 hcb
    obtain ⟨links, hreset, hwheel, halarms⟩ := timerReset_spec h.wheel hcb ht (by omega)
    refine ⟨_, by simp only [Op.run, hreset]; rfl, h.arm t timeout ?_ ?_ rfl ?_
      hcb hwheel halarms⟩
    · intro u d' p'
      simp only [Op.Arms]
      constructor
      · rintro ⟨rfl, -, rfl, rfl⟩
        exact ⟨rfl, rfl, rfl⟩
      · rintro ⟨rfl, rfl, rfl⟩
        exact ⟨rfl, hst, rfl, rfl⟩
    · exact fun u => ⟨Eq.symm, Eq.symm⟩
    · intro u
      rw [hstarted u]
      constructor
      · exact .inr
      · rintro (rfl | hu)
        · exact hst
        · exact hu
  · have hst : ¬ Started ops t := fun hst => hcb ((h.cb t).2 hst)
    have hoff : ¬ Armed s.1 t := fun harm => by
      obtain ⟨d, p, hlast⟩ := h.covered harm
      exact hst hlast.started
    refine ⟨(s.1, s.2), ?_, h.disarm (t := t) ?_ ?_ rfl hstarted h.wheel ?_ fun _ => rfl⟩
    · simp only [Op.run, timerReset_reject (Option.not_isSome_iff_eq_none.1 hcb)]
      rfl
    · rintro u d' p' ⟨rfl, hu, -⟩
      exact hst hu
    · exact fun u => ⟨Eq.symm, Eq.symm⟩
    · ext1
      · rfl
      · funext u
        rw [Alarms.disarm_armed]
        split
        · next hu => rw [hu, alarms_armed_of_not hoff]
        · rfl

/-- **One operation** of a run succeeds and keeps the invariant. -/
theorem RunInv.step (h : RunInv ops s) (hcall : Quiet call) (hclock : s.1.timeout < 2 ^ 64 - 2 ^ 36)
    (hallow : op.Allowed s.1) (hfuel : ops.length < fuel) :
    ∃ s', op.run call fuel s = .ok s' ∧ RunInv (ops ++ [op]) s' := by
  cases op with
  | start t cb args timeout repeatTime => exact h.start hallow hclock
  | stop t =>
    refine ⟨_, rfl, h.disarm (t := t) (fun _ _ _ => id) ?_ rfl (fun u => ?_) (h.wheel.timerStop t)
      (h.wheel.alarms_timerStop t) fun _ => rfl⟩
    · exact fun u => ⟨Eq.symm, Eq.symm⟩
    · simp [started_concat]
  | reset t timeout => exact h.reset hallow hclock
  | tick => exact h.tick hcall hclock hfuel

/-- Every admissible run succeeds and keeps the invariant. -/
theorem RunInv.run (hcall : Quiet call) : ∀ (ops pre : List (Op τ κ α)) (s : RunState τ κ α ω),
    RunInv pre s → Admissible call fuel ops s → pre.length + ops.length < fuel →
    ∃ s', runOps call fuel ops s = .ok s' ∧ RunInv (pre ++ ops) s' := by
  intro ops
  induction ops with
  | nil => exact fun pre s h _ _ => ⟨s, rfl, by simpa using h⟩
  | cons op ops ih =>
    rintro pre s h ⟨⟨hclock, hallow⟩, hrest⟩ hfuel
    rw [List.length_cons] at hfuel
    obtain ⟨s₁, hrun, h₁⟩ := h.step hcall hclock hallow (show pre.length < fuel by omega)
    rw [hrun] at hrest
    obtain ⟨s', hrun', h'⟩ := ih (pre ++ [op]) s₁ h₁ hrest (by rw [List.length_append]; simp; omega)
    refine ⟨s', ?_, by simpa using h'⟩
    rw [runOps, List.foldlM_cons, hrun]
    exact hrun'

/-- **The wheel fires exactly.** From a fresh manager every admissible run succeeds: no assertion
fails, no walk fails to end. The tick that processes the clock value `c` fires `t` once if the
operations ask for it, and not at all if they do not. -/
theorem run_fires_exactly (call : Callback τ κ α ω) (hcall : Quiet call) (rdtsc : ℕ) (w : ω)
    (ops : List (Op τ κ α)) (fuel : ℕ) (hfuel : ops.length < fuel)
    (hops : Admissible call fuel ops (flowQoSTimerMgrInit rdtsc, w, [])) :
    ∃ mgr w' log, runOps call fuel ops (flowQoSTimerMgrInit rdtsc, w, []) = .ok (mgr, w', log) ∧
      mgr.timeout = ticks ops ∧ ∀ t c, (Fires ops t c → log.count (c, t) = 1) ∧
        (¬ Fires ops t c → log.count (c, t) = 0) := by
  obtain ⟨⟨mgr, w', log⟩, hrun, h⟩ := RunInv.run hcall ops [] _ (runInv_init rdtsc w) hops
    (by simpa using hfuel)
  exact ⟨mgr, w', log, hrun, h.clock, h.log⟩

/-- A periodic timer, a timer that is reset and one that is stopped. -/
theorem run_fires_exactly_example :
    ∃ mgr w' log, runOps (τ := ℕ) (κ := Unit) (α := Unit) (ω := Unit) (fun _ _ s => .ok s) 20
        [.start 0 (some ()) none 1 2, .start 1 (some ()) none 3 0, .start 2 (some ()) none 2 0, .tick,
          .reset 1 300000, .stop 2, .tick, .tick, .tick] (flowQoSTimerMgrInit 0, (), []) =
        .ok (mgr, w', log) ∧
      mgr.timeout = 4 ∧ ∀ t c, (Fires (κ := Unit) (α := Unit) [.start 0 (some ()) none 1 2,
          .start 1 (some ()) none 3 0, .start 2 (some ()) none 2 0, .tick, .reset 1 300000, .stop 2,
          .tick, .tick, .tick] t c → log.count (c, t) = 1) ∧
        (¬ Fires (κ := Unit) (α := Unit) [.start 0 (some ()) none 1 2, .start 1 (some ()) none 3 0,
          .start 2 (some ()) none 2 0, .tick, .reset 1 300000, .stop 2, .tick, .tick, .tick] t c →
          log.count (c, t) = 0) :=
  run_fires_exactly _ (fun _ _ _ w => ⟨w, rfl⟩) 0 () _ 20 (by decide)
    (by decide +kernel)

end FlowQoS.Timer
