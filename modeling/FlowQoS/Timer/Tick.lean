import FlowQoS.Timer.Wheel

/-!
# One tick

The two walks of `timer_tick`, over the bucket that is cascaded and over the bucket that is due.
Both take the timers of a list one by one out of the front of it; no timer comes back into the list
that is walked, so the walk sees exactly the list it started with.

* `cascadeLoop_spec`: the cascade empties its bucket and moves no deadline;
* `fireLoop_spec`: the timers of the bucket are fired in order, the periodic ones armed again;
* `timerTick_spec`: a tick fires exactly the timers that are due, and is `advance` on the alarms.

A callback may read the manager and change anything else, but not the manager itself.
-/

set_option linter.unusedSectionVars false

namespace FlowQoS.Timer

open Lib Links

variable {τ κ α ω : Type*} [DecidableEq τ] {mgr mgr' : FlowQoSTimerMgr τ κ α}
  {l l' : ℕ × ℕ → List τ} {t u : τ} {fuel : ℕ}

/-! ### The cascade -/

/-- The alarms only depend on the clock, on which timers are on a bucket and on their fields. -/
theorem alarms_congr (hT : mgr'.timeout = mgr.timeout) (hf : mgr'.timers = mgr.timers)
    (h : WheelOk mgr l) (h' : WheelOk mgr' l') (hl : ∀ t, (∃ b, t ∈ l' b) ↔ ∃ b, t ∈ l b) :
    alarms mgr' = alarms mgr := by
  ext1
  · exact hT
  · funext t
    have : Armed mgr' t ↔ Armed mgr t := by rw [h'.armed_iff, h.armed_iff, hl]
    simp only [alarms, this, hf]

theorem cascadeLoop_end (b : ℕ × ℕ) : cascadeLoop b (fuel + 1) (some (.head b)) mgr = .ok mgr := by
  unfold cascadeLoop
  rw [if_pos rfl]

theorem cascadeLoop_elem {b : ℕ × ℕ} {r : ℤ} (hle : mgr.timeout ≤ (mgr.timers t).timeout)
    (h : timerStart (timerStop mgr t) t (mgr.timers t).cb (mgr.timers t).cb_args
      ((mgr.timers t).timeout - mgr.timeout) (mgr.timers t).repeatTime = .ok (r, mgr')) :
    cascadeLoop b (fuel + 1) (some (.elem t)) mgr =
      cascadeLoop b fuel (mgr.links.next (.elem t)) mgr' := by
  conv_lhs => unfold cascadeLoop
  rw [if_neg (by simp)]
  simp only [if_neg (not_lt.2 hle), h]

/-- A timer in the bucket that is cascaded: its deadline has not passed, and the wheel will put it
into another bucket. -/
theorem WheelOk.cascaded (h : WheelOk mgr l) {q : ℕ} (hT : mgr.timeout = q * 262144)
    (ht : t ∈ l (1, q % 262144)) :
    mgr.timeout ≤ (mgr.timers t).timeout ∧ (mgr.timers t).timeout < mgr.timeout + 524288 ∧
      startBucket mgr.timeout ((mgr.timers t).timeout - mgr.timeout) ≠ (1, q % 262144) := by
  obtain ⟨c, hc, h1, h2, h3, h4⟩ := h.high ht
  have hcq : c = q := by omega
  subst hcq
  refine ⟨by omega, by omega, ?_⟩
  unfold startBucket
  split
  · simp
  · simp only [ne_eq, Prod.mk.injEq, true_and]
    omega

/-- Stopping a timer and starting it for the deadline it had leaves its fields as they were. -/
theorem started_timerStop_timers {links : Links (ℕ × ℕ) τ} (h : mgr.timeout ≤ (mgr.timers t).timeout) :
    (started (timerStop mgr t) t (mgr.timers t).cb (mgr.timers t).cb_args
      ((mgr.timers t).timeout - mgr.timeout) (mgr.timers t).repeatTime links).timers = mgr.timers := by
  funext u
  by_cases hu : u = t
  · subst hu
    rw [started_timers_self]
    simp only [timerStop, Nat.add_sub_cancel' h]
  · rw [started_timers_of_ne hu]
    rfl

theorem mem_erase_update {b : ℕ × ℕ} (ht : ∃ b, t ∈ l b) (u : τ) :
    (∃ b', u ∈ Function.update (fun b => (l b).erase t) b ((l b).erase t ++ [t]) b') ↔
      ∃ b', u ∈ l b' := by
  constructor
  · rintro ⟨b', hb'⟩
    rcases mem_update hb' with hm | ⟨-, rfl⟩
    · exact ⟨b', List.mem_of_mem_erase hm⟩
    · exact ht
  · rintro ⟨b', hb'⟩
    by_cases hu : u = t
    · subst hu
      exact ⟨b, by rw [Function.update_self]; simp⟩
    · refine ⟨b', ?_⟩
      have hm : u ∈ (l b').erase t := (List.mem_erase_of_ne hu).2 hb'
      by_cases hbb : b' = b
      · subst hbb
        rw [Function.update_self]
        exact List.mem_append_left _ hm
      · rwa [Function.update_of_ne hbb]

/-- **The cascade.** The bucket is walked to its end, no assertion fails, every timer of it keeps its
deadline and none is left in it. -/
theorem cascadeLoop_spec {q : ℕ} : ∀ (rest : List τ) (mgr : FlowQoSTimerMgr τ κ α)
    (l : ℕ × ℕ → List τ) (fuel : ℕ), WheelOk mgr l → mgr.timeout = q * 262144 →
    mgr.timeout + 68719476735 < 2 ^ 64 → l (1, q % 262144) = rest → rest.length < fuel →
    ∃ mgr' l', cascadeLoop (1, q % 262144) fuel
        (some (firstOf (.head (1, q % 262144)) rest)) mgr = .ok mgr' ∧ WheelOk mgr' l' ∧
      l' (1, q % 262144) = [] ∧ mgr'.timeout = mgr.timeout ∧ mgr'.timers = mgr.timers ∧
      mgr'.startStmp = mgr.startStmp ∧ ∀ t, (∃ b, t ∈ l' b) ↔ ∃ b, t ∈ l b := by
  intro rest
  induction rest with
  | nil =>
    intro mgr l fuel h _ _ hl hfuel
    obtain ⟨fuel, rfl⟩ : ∃ n, fuel = n + 1 := ⟨fuel - 1, by simp at hfuel; omega⟩
    exact ⟨mgr, l, cascadeLoop_end _, h, hl, rfl, rfl, rfl, fun _ => Iff.rfl⟩
  | cons t rest ih =>
    intro mgr l fuel h hT hbound hl hfuel
    obtain ⟨fuel, rfl⟩ : ∃ n, fuel = n + 1 := ⟨fuel - 1, by simp at hfuel; omega⟩
    have ht : t ∈ l (1, q % 262144) := by rw [hl]; simp
    obtain ⟨hle, hlt, hbucket⟩ := h.cascaded hT ht
    obtain ⟨links, hstart, h'⟩ := (h.timerStop t).timerStart (mgr.timers t).cb_args
      (h.not_mem_erase t) (h.cb ht)
      (show (mgr.timers t).timeout - mgr.timeout ≤ 68719476735 by omega) (h.period ht) hbound
    set m := started (timerStop mgr t) t (mgr.timers t).cb (mgr.timers t).cb_args
      ((mgr.timers t).timeout - mgr.timeout) (mgr.timers t).repeatTime links with hm
    have htimers : m.timers = mgr.timers := started_timerStop_timers hle
    have hnext : mgr.links.next (.elem t) = some (firstOf (.head (1, q % 262144)) rest) :=
      h.holds.next_elem [] hl
    -- the timer has gone to another bucket, the rest of this one is as it was
    have hrest : Function.update (fun b => (l b).erase t) (startBucket (timerStop mgr t).timeout
        ((mgr.timers t).timeout - mgr.timeout)) ((fun b => (l b).erase t) (startBucket
        (timerStop mgr t).timeout ((mgr.timers t).timeout - mgr.timeout)) ++ [t]) (1, q % 262144) =
        rest := by
      rw [timerStop_timeout, Function.update_of_ne (Ne.symm hbucket), hl, List.erase_cons_head]
    obtain ⟨mgr', l', hloop, hok, hemp, hto, htm, hst, hmem⟩ :=
      ih m _ fuel h' hT hbound hrest (by simp at hfuel; omega)
    refine ⟨mgr', l', ?_, hok, hemp, hto, htm.trans htimers, hst, fun u => ?_⟩
    · show cascadeLoop (1, q % 262144) (fuel + 1) (some (.elem t)) mgr = .ok mgr'
      rw [cascadeLoop_elem hle hstart, hnext]
      exact hloop
    · rw [hmem u]
      exact mem_erase_update ⟨_, ht⟩ u

/-- The cascade of a tick, when the low index is 0. -/
theorem cascadeWheels_spec {q : ℕ} (h : WheelOk mgr l) (hT : mgr.timeout = q * 262144)
    (hbound : mgr.timeout + 68719476735 < 2 ^ 64) (hfuel : (l (1, q % 262144)).length < fuel) :
    ∃ mgr' l', cascadeWheels fuel (timerWheelCount - 1) 1 mgr = .ok mgr' ∧ WheelOk mgr' l' ∧
      l' (1, q % 262144) = [] ∧ mgr'.timeout = mgr.timeout ∧ mgr'.timers = mgr.timers ∧
      mgr'.startStmp = mgr.startStmp ∧ ∀ t, (∃ b, t ∈ l' b) ↔ ∃ b, t ∈ l b := by
  obtain ⟨mgr', l', hloop, hrest⟩ := cascadeLoop_spec _ mgr l fuel h hT hbound rfl hfuel
  refine ⟨mgr', l', ?_, hrest⟩
  have hidx : timerWheelCurIndex mgr.timeout 1 = q % 262144 := by
    rw [curIndex_one, hT]
    omega
  have hone : timerWheelCount - 1 = 0 + 1 := rfl
  rw [hone, cascadeWheels, hidx, timerCascade, h.holds.next_head, hloop]
  simp only [Except.map, cascadeWheels, ite_self]

/-! ### The timers that are due -/

/-- The callbacks leave the manager alone: all they do is `f`, to the rest of the state. -/
def Inert (call : Callback τ κ α ω) (f : κ → τ → FlowQoSTimerMgr τ κ α → ω → Except Fault ω) : Prop :=
  ∀ cb t m w, call cb t (m, w) = (f cb t m w).map fun w => (m, w)

/-- What firing a timer does to the rest of the state, with the manager its callback sees. -/
def fire (f : κ → τ → FlowQoSTimerMgr τ κ α → ω → Except Fault ω) (w : ω)
    (x : FlowQoSTimerMgr τ κ α × τ) : Except Fault ω :=
  match (x.1.timers x.2).cb with
  | none => .error .nullPointer
  | some cb => f cb x.2 x.1 w

/-- The manager, but for the links and the deadlines. -/
def SameCallbacks (mgr mgr' : FlowQoSTimerMgr τ κ α) : Prop :=
  mgr'.timeout = mgr.timeout ∧ mgr'.startStmp = mgr.startStmp ∧
    ∀ t, (mgr'.timers t).cb = (mgr.timers t).cb ∧ (mgr'.timers t).cb_args = (mgr.timers t).cb_args

theorem SameCallbacks.trans {m : FlowQoSTimerMgr τ κ α} (h : SameCallbacks mgr mgr')
    (h' : SameCallbacks mgr' m) : SameCallbacks mgr m :=
  ⟨h'.1.trans h.1, h'.2.1.trans h.2.1, fun t =>
    ⟨(h'.2.2 t).1.trans (h.2.2 t).1, (h'.2.2 t).2.trans (h.2.2 t).2⟩⟩

/-- No timer is started into the bucket that is being fired or, when the low index is 0, into the
one that has been cascaded. -/
theorem startBucket_ne (clock : ℕ) {r : ℕ} (hr : r ≠ 0) (hmax : r ≤ 68719476735) :
    startBucket clock r ≠ (0, clock % 262144) ∧
      startBucket clock r ≠ (1, clock / 262144 % 262144) := by
  unfold startBucket
  split <;> constructor <;> simp only [ne_eq, Prod.mk.injEq, not_and, true_and] <;> omega

/-- Firing a timer of the due bucket, up to its callback: it is off, or armed one period ahead. -/
theorem timerAgain_spec (h : WheelOk mgr l) (ht : t ∈ l (0, mgr.timeout % 262144))
    (hbound : mgr.timeout + 68719476735 < 2 ^ 64) :
    ∃ mgr' l' r, timerAgain (timerStop mgr t) t = .ok (r, mgr') ∧ WheelOk mgr' l' ∧
      SameCallbacks mgr mgr' ∧ (alarms mgr').armed t = (alarms mgr).advance.armed t ∧
      (∀ u, u ≠ t → (alarms mgr').armed u = (alarms mgr).armed u) ∧
      l' (0, mgr.timeout % 262144) = (l (0, mgr.timeout % 262144)).erase t ∧
      l' (1, mgr.timeout / 262144 % 262144) = (l (1, mgr.timeout / 262144 % 262144)).erase t := by
  have hcb := h.cb ht
  have hdue : (mgr.timers t).timeout = mgr.timeout := by
    obtain ⟨h1, h2, h3⟩ := h.low ht
    omega
  have harmed : (alarms mgr).armed t = some (mgr.timeout, (mgr.timers t).repeatTime) := by
    rw [alarms_armed_of (h.armed_iff.2 ⟨_, ht⟩), hdue]
  have hadv : (alarms mgr).advance.armed t = if (mgr.timers t).repeatTime = 0 then none
      else some (mgr.timeout + (mgr.timers t).repeatTime, (mgr.timers t).repeatTime) := by
    simp only [Alarms.advance, harmed]
    exact if_pos rfl
  have hstop := h.timerStop t
  have halarms := h.alarms_timerStop t
  by_cases hr : (mgr.timers t).repeatTime = 0
  · refine ⟨timerStop mgr t, _, 0, ?_, hstop, ⟨rfl, rfl, fun _ => ⟨rfl, rfl⟩⟩, ?_, fun u hu => ?_,
      rfl, rfl⟩
    · simp [timerAgain, timerStop, Option.isNone_iff_eq_none, Option.isSome_iff_ne_none.1 hcb, hr]
    · rw [halarms, Alarms.disarm_armed, if_pos rfl, hadv, if_pos hr]
    · rw [halarms, Alarms.disarm_armed, if_neg hu]
  · -- a periodic timer is stopped a second time and started again with its period
    have hnot : ∀ b, t ∉ ((l b).erase t).erase t := fun b hb =>
      h.not_mem_erase t b (List.mem_of_mem_erase hb)
    obtain ⟨links, hstart, hok⟩ := (hstop.timerStop t).timerStart (mgr.timers t).cb_args
      hnot hcb (h.period ht) (h.period ht) hbound
    have harm := (hstop.timerStop t).alarms_started hok
    obtain ⟨hne0, hne1⟩ := startBucket_ne mgr.timeout hr (h.period ht)
    refine ⟨_, _, 0, ?_, hok, ⟨rfl, rfl, fun u => ?_⟩, ?_, fun u hu => ?_, ?_, ?_⟩
    · simp only [timerAgain]
      rw [if_neg (by simp [timerStop, Option.isNone_iff_eq_none, Option.isSome_iff_ne_none.1 hcb]),
        if_pos (by exact hr)]
      show Except.map _ (timerStart (timerStop (timerStop mgr t) t) t (mgr.timers t).cb
        (mgr.timers t).cb_args (mgr.timers t).repeatTime (mgr.timers t).repeatTime) = _
      rw [hstart]
      rfl
    · by_cases hu : u = t
      · subst hu
        rw [started_timers_self]
        exact ⟨rfl, rfl⟩
      · rw [started_timers_of_ne hu]
        exact ⟨rfl, rfl⟩
    · rw [harm, Alarms.arm_armed, if_pos rfl, hadv, if_neg hr]
      rfl
    · rw [harm, Alarms.arm_armed, if_neg hu, hstop.alarms_timerStop, Alarms.disarm_armed, if_neg hu,
        halarms, Alarms.disarm_armed, if_neg hu]
    · rw [timerStop_timeout, timerStop_timeout, Function.update_of_ne (Ne.symm hne0)]
      exact List.erase_of_not_mem (h.not_mem_erase t _)
    · rw [timerStop_timeout, timerStop_timeout, Function.update_of_ne (Ne.symm hne1)]
      exact List.erase_of_not_mem (h.not_mem_erase t _)

theorem fireLoop_end (call : Callback τ κ α ω) (b : ℕ × ℕ) (res : ℕ)
    (s : FlowQoSTimerMgr τ κ α × ω) :
    fireLoop call b (fuel + 1) (some (.head b)) res s = .ok (res, s) := by
  unfold fireLoop
  rw [if_pos rfl]

theorem fireLoop_elem {call : Callback τ κ α ω}
    {f : κ → τ → FlowQoSTimerMgr τ κ α → ω → Except Fault ω} (hcall : Inert call f) {b : ℕ × ℕ} {res : ℕ}
    {w : ω} {r : ℤ} {cb : κ}
    (hagain : timerAgain (timerStop mgr t) t = .ok (r, mgr')) (hcb : (mgr'.timers t).cb = some cb) :
    fireLoop call b (fuel + 1) (some (.elem t)) res (mgr, w) =
      (fire f w (mgr', t)).bind fun w =>
        fireLoop call b fuel (mgr.links.next (.elem t)) (res + 1) (mgr', w) := by
  conv_lhs => unfold fireLoop
  rw [if_neg (by simp)]
  simp only [hagain, hcb, hcall cb t mgr' w, fire]
  cases f cb t mgr' w <;> rfl

theorem advance_armed_congr {A B : Alarms τ} (hn : A.now = B.now) (h : A.armed t = B.armed t) :
    A.advance.armed t = B.advance.armed t := by
  simp only [Alarms.advance, hn, h]

/-- **The due bucket.** It is walked to its end, its timers are fired in order, each once, and each is
off afterwards or armed one period ahead. -/
theorem fireLoop_spec {call : Callback τ κ α ω}
    {f : κ → τ → FlowQoSTimerMgr τ κ α → ω → Except Fault ω} (hcall : Inert call f) :
    ∀ (rest : List τ) (mgr : FlowQoSTimerMgr τ κ α) (l : ℕ × ℕ → List τ) (fuel : ℕ),
    WheelOk mgr l → mgr.timeout + 68719476735 < 2 ^ 64 →
    l (0, mgr.timeout % 262144) = rest →
    (mgr.timeout % 262144 = 0 → l (1, mgr.timeout / 262144 % 262144) = []) → rest.length < fuel →
    ∃ (mgr' : FlowQoSTimerMgr τ κ α) (l' : ℕ × ℕ → List τ) (fired : List (FlowQoSTimerMgr τ κ α × τ)),
      (∀ res w, fireLoop call (0, mgr.timeout % 262144) fuel
        (some (firstOf (.head (0, mgr.timeout % 262144)) rest)) res (mgr, w) =
          (fired.foldlM (fire f) w).map fun w => (res + rest.length, mgr', w)) ∧
      fired.map Prod.snd = rest ∧ (∀ x ∈ fired, SameCallbacks mgr x.1) ∧ WheelOk mgr' l' ∧
      SameCallbacks mgr mgr' ∧ l' (0, mgr.timeout % 262144) = [] ∧
      (mgr.timeout % 262144 = 0 → l' (1, mgr.timeout / 262144 % 262144) = []) ∧
      ∀ t, (alarms mgr').armed t =
        if t ∈ rest then (alarms mgr).advance.armed t else (alarms mgr).armed t := by
  intro rest
  induction rest with
  | nil =>
    intro mgr l fuel h _ hl hhigh hfuel
    obtain ⟨fuel, rfl⟩ : ∃ n, fuel = n + 1 := ⟨fuel - 1, by simp at hfuel; omega⟩
    exact ⟨mgr, l, [], fun res w => fireLoop_end _ _ _ _, rfl, fun x hx => absurd hx List.not_mem_nil,
      h, ⟨rfl, rfl, fun _ => ⟨rfl, rfl⟩⟩, hl, hhigh, fun t => by rw [if_neg List.not_mem_nil]⟩
  | cons t rest ih =>
    intro mgr l fuel h hbound hl hhigh hfuel
    obtain ⟨fuel, rfl⟩ : ∃ n, fuel = n + 1 := ⟨fuel - 1, by simp at hfuel; omega⟩
    have ht : t ∈ l (0, mgr.timeout % 262144) := by rw [hl]; simp
    have hnd : (t :: rest).Nodup := hl ▸ h.holds.nodup _
    obtain ⟨m, l₁, r, hagain, hok, hsame, htarm, harm, hlow₁, hhigh₁⟩ := timerAgain_spec h ht hbound
    have hT : m.timeout = mgr.timeout := hsame.1
    have hnext : mgr.links.next (.elem t) = some (firstOf (.head (0, mgr.timeout % 262144)) rest) :=
      h.holds.next_elem [] hl
    rw [hl, List.erase_cons_head] at hlow₁
    have hcb : ∃ cb, (m.timers t).cb = some cb := by
      rw [(hsame.2.2 t).1]
      exact Option.isSome_iff_exists.1 (h.cb ht)
    obtain ⟨cb, hcb⟩ := hcb
    obtain ⟨mgr', l', fired, hloop, hfired, hseen, hok', hsame', hlow', hhigh', harm'⟩ :=
      ih m l₁ fuel hok (by rw [hT]; exact hbound) (by rw [hT]; exact hlow₁)
        (fun h0 => by rw [hT] at h0 ⊢; rw [hhigh₁, hhigh h0]; rfl) (by simp at hfuel; omega)
    rw [hT] at hloop hlow' hhigh'
    refine ⟨mgr', l', (m, t) :: fired, fun res w => ?_, by rw [List.map_cons, hfired], fun x hx => ?_,
      hok', hsame.trans hsame', hlow', hhigh', fun u => ?_⟩
    · show fireLoop call _ (fuel + 1) (some (.elem t)) res (mgr, w) = _
      rw [fireLoop_elem hcall hagain hcb, hnext, List.foldlM_cons]
      cases hfire : fire f w (m, t) with
      | error e => rfl
      | ok w' =>
        show fireLoop call _ fuel _ (res + 1) (m, w') = _
        rw [hloop (res + 1) w', List.length_cons, Nat.add_right_comm, Nat.add_assoc]
        rfl
    · rcases List.mem_cons.1 hx with rfl | hx
      · exact hsame
      · exact hsame.trans (hseen x hx)
    · rw [harm' u]
      by_cases hu : u = t
      · subst hu
        rw [if_neg (List.nodup_cons.1 hnd).1, if_pos List.mem_cons_self, htarm]
      · simp only [List.mem_cons, hu, false_or, harm u hu]
        rw [advance_armed_congr hT (harm u hu)]

/-! ### The tick -/

/-- A timer that is due is in the bucket of the low wheel, once the upper wheel has been cascaded. -/
theorem WheelOk.due_iff (h : WheelOk mgr l)
    (hhigh : mgr.timeout % 262144 = 0 → l (1, mgr.timeout / 262144 % 262144) = []) :
    (alarms mgr).Due t ↔ t ∈ l (0, mgr.timeout % 262144) := by
  constructor
  · rintro ⟨p, hp⟩
    have harmed : Armed mgr t := isSome_alarms_armed.1 (by rw [hp]; rfl)
    rw [alarms_armed_of harmed] at hp
    have hdue : (mgr.timers t).timeout = mgr.timeout := congrArg Prod.fst (Option.some.inj hp)
    obtain ⟨⟨w, i⟩, hb⟩ := h.armed_iff.1 harmed
    rcases h.wheel hb with rfl | rfl
    · obtain ⟨-, -, hi⟩ := h.low hb
      rwa [hi, hdue] at hb
    · -- a timer of the upper wheel that is due is in the bucket that has been emptied
      obtain ⟨c, hi, h1, h2, h3, h4⟩ := h.high hb
      have h0 : mgr.timeout % 262144 = 0 := by omega
      have hc : i = mgr.timeout / 262144 % 262144 := by omega
      rw [hc, hhigh h0] at hb
      exact absurd hb List.not_mem_nil
  · intro hb
    obtain ⟨h1, h2, h3⟩ := h.low hb
    have hdue : (mgr.timers t).timeout = mgr.timeout := by omega
    exact ⟨_, by rw [alarms_armed_of (h.armed_iff.2 ⟨_, hb⟩), hdue]; rfl⟩

/-- The clock moves on when both buckets it leaves behind are empty. -/
theorem WheelOk.succ (h : WheelOk mgr l) (hlow : l (0, mgr.timeout % 262144) = [])
    (hhigh : mgr.timeout % 262144 = 0 → l (1, mgr.timeout / 262144 % 262144) = []) :
    WheelOk { mgr with timeout := mgr.timeout + 1 } l where
  holds := h.holds
  wheel := h.wheel
  low {t i} hm := by
    obtain ⟨h1, h2, h3⟩ := h.low hm
    refine ⟨?_, by simp only; omega, h3⟩
    by_contra hlt
    simp only at hlt
    have hi : i = mgr.timeout % 262144 := by omega
    rw [hi, hlow] at hm
    exact List.not_mem_nil hm
  high {t i} hm := by
    obtain ⟨c, hi, h1, h2, h3, h4⟩ := h.high hm
    refine ⟨c, hi, ?_, by simp only; omega, h3, h4⟩
    by_contra hlt
    simp only at hlt
    have h0 : mgr.timeout % 262144 = 0 := by omega
    have hc : i = mgr.timeout / 262144 % 262144 := by omega
    rw [hc, hhigh h0] at hm
    exact List.not_mem_nil hm
  period := h.period
  cb := h.cb

/-- Every bucket is shorter than the number of armed timers and one. -/
theorem WheelOk.length_lt (h : WheelOk mgr l) {S : Finset τ} (hS : ∀ t, Armed mgr t → t ∈ S)
    (hfuel : S.card < fuel) (b : ℕ × ℕ) : (l b).length < fuel := by
  refine lt_of_le_of_lt ?_ hfuel
  rw [← List.toFinset_card_of_nodup (h.holds.nodup b)]
  refine Finset.card_le_card fun t ht => hS t ?_
  exact h.armed_iff.2 ⟨b, List.mem_toFinset.1 ht⟩

/-- The part of a tick before the due bucket is fired. -/
theorem tick_cascade (h : WheelOk mgr l) (hbound : mgr.timeout + 68719476735 < 2 ^ 64)
    (hfuel : (l (1, mgr.timeout / 262144 % 262144)).length < fuel) :
    ∃ mgr' l', (if mgr.timeout % timerBucketCount = 0 then
        cascadeWheels fuel (timerWheelCount - 1) 1 mgr else .ok mgr) = .ok mgr' ∧
      WheelOk mgr' l' ∧ (mgr.timeout % 262144 = 0 → l' (1, mgr.timeout / 262144 % 262144) = []) ∧
      mgr'.timeout = mgr.timeout ∧ mgr'.timers = mgr.timers ∧ mgr'.startStmp = mgr.startStmp ∧
      ∀ t, (∃ b, t ∈ l' b) ↔ ∃ b, t ∈ l b := by
  rw [timerBucketCount_eq]
  by_cases h0 : mgr.timeout % 262144 = 0
  · obtain ⟨mgr', l', hcas, hok, hemp, hrest⟩ :=
      cascadeWheels_spec (q := mgr.timeout / 262144) h (by omega) hbound hfuel
    exact ⟨mgr', l', by rw [if_pos h0]; exact hcas, hok, fun _ => hemp, hrest⟩
  · exact ⟨mgr, l, by rw [if_neg h0], h, fun hc => absurd hc h0, rfl, rfl, rfl, fun _ => Iff.rfl⟩

/-- **A tick fires exactly the timers that are due**, each once, and is `advance` on the alarms. -/
theorem timerTick_spec {call : Callback τ κ α ω}
    {f : κ → τ → FlowQoSTimerMgr τ κ α → ω → Except Fault ω} (hcall : Inert call f)
    (h : WheelInv mgr) (hbound : mgr.timeout + 68719476735 < 2 ^ 64) {S : Finset τ}
    (hS : ∀ t, Armed mgr t → t ∈ S) (hfuel : S.card < fuel) :
    ∃ (mgr' : FlowQoSTimerMgr τ κ α) (due : List (FlowQoSTimerMgr τ κ α × τ)),
      (∀ w, timerTick call fuel (mgr, w) =
        (due.foldlM (fire f) w).map fun w => (due.length, mgr', w)) ∧
      (due.map Prod.snd).Nodup ∧ (∀ t, t ∈ due.map Prod.snd ↔ (alarms mgr).Due t) ∧
      (∀ x ∈ due, SameCallbacks mgr x.1) ∧ WheelInv mgr' ∧ alarms mgr' = (alarms mgr).advance ∧
      mgr'.startStmp = mgr.startStmp ∧ ∀ t, (mgr'.timers t).cb = (mgr.timers t).cb ∧
        (mgr'.timers t).cb_args = (mgr.timers t).cb_args := by
  obtain ⟨l, h⟩ := h
  obtain ⟨m, l₁, hcas, hok, hhigh, hT, htm, hst, hmem⟩ := tick_cascade h hbound
    (h.length_lt hS hfuel _)
  have halarms : alarms m = alarms mgr := alarms_congr hT htm h hok hmem
  have hS' : ∀ t, Armed m t → t ∈ S := fun t ht =>
    hS t (by rwa [← isSome_alarms_armed, halarms, isSome_alarms_armed] at ht)
  rw [← hT] at hhigh
  obtain ⟨mgr', l', due, hloop, hdue, hseen, hok', hsame, hlow', hhigh', harm⟩ :=
    fireLoop_spec hcall _ m l₁ fuel hok (by rw [hT]; exact hbound) rfl hhigh
      (hok.length_lt hS' hfuel _)
  have hT' : mgr'.timeout = m.timeout := hsame.1
  have hm : SameCallbacks mgr m := ⟨hT, hst, fun t => by rw [htm]; exact ⟨rfl, rfl⟩⟩
  have hnext : (mgr'.timeout + 1) % 2 ^ 64 = mgr'.timeout + 1 := Nat.mod_eq_of_lt (by omega)
  refine ⟨{ mgr' with timeout := mgr'.timeout + 1 }, due, fun w => ?_, hdue ▸ hok.holds.nodup _,
    fun t => ?_, fun x hx => hm.trans (hseen x hx), ⟨l', ?_⟩, ?_, hsame.2.1.trans hst, fun t => ?_⟩
  · have hlen : (l₁ (0, m.timeout % 262144)).length = due.length := by rw [← hdue, List.length_map]
    unfold timerTick
    simp only [hcas]
    rw [timerBucketCount_eq, ← hT, hok.holds.next_head, hloop 0 w, Nat.zero_add, hlen]
    cases due.foldlM (fire f) w with
    | error e => rfl
    | ok w' => simp only [Except.map, hnext]
  · rw [hdue, ← halarms]
    exact (hok.due_iff hhigh).symm
  · rw [← hT'] at hlow' hhigh'
    exact hok'.succ hlow' hhigh'
  · ext1
    · simp [hT', hT]
    · funext t
      have : (alarms { mgr' with timeout := mgr'.timeout + 1 }).armed t = (alarms mgr').armed t := rfl
      rw [this, harm t, halarms]
      by_cases ht : t ∈ l₁ (0, m.timeout % 262144)
      · rw [if_pos ht]
      · rw [if_neg ht]
        -- a timer that is not due stays as it is
        refine (Alarms.advance_of_not_due ?_).symm
        rw [← halarms, hok.due_iff hhigh]
        exact ht
  · rw [← htm]
    exact hsame.2.2 t

end FlowQoS.Timer
