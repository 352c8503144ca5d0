import FlowQoS.Timer.Defs
import FlowQoS.Lib.Alarms
import Mathlib.Data.Finset.Card
import Mathlib.Tactic.Linarith

/-!
# The wheel keeps its deadlines

`WheelOk mgr l`: the links of the manager are the lists `l`, and every timer is in a bucket that the
clock reaches in time. A timer of the lower wheel lies less than one turn ahead, in the bucket of its
deadline. A timer of the upper wheel lies in the bucket that is cascaded at the clock value
`c * 2 ^ 18`, at its deadline or less than two turns before it: the slot is computed from the
relative timeout, so the carry of the low bits can bring the cascade one turn early, and the timer
then goes to the next slot of the upper wheel.

`alarms` reads a manager as a clock with alarms. Starting, stopping and ticking are `arm`, `disarm`
and `advance` on it.
-/

set_option linter.unusedSectionVars false

namespace FlowQoS.Timer

open Lib Links

variable {τ κ α ω : Type*} [DecidableEq τ] {mgr mgr' : FlowQoSTimerMgr τ κ α}
  {l l' : ℕ × ℕ → List τ} {t u : τ} {cb : Option κ} {args : Option α} {timeout repeatTime fuel : ℕ}

theorem timerBucketCount_eq : timerBucketCount = 262144 := rfl
theorem timerMaxTimeout_eq : timerMaxTimeout = 68719476735 := rfl

theorem curIndex_zero (clock : ℕ) : timerWheelCurIndex clock 0 = clock % 262144 := rfl

theorem curIndex_one (clock : ℕ) : timerWheelCurIndex clock 1 = clock / 262144 % 262144 := by
  simp [timerWheelCurIndex, timerWheelBits, timerBucketCount, Nat.shiftRight_eq_div_pow]

/-- The timer is on a bucket of a wheel. -/
def Armed (mgr : FlowQoSTimerMgr τ κ α) (t : τ) : Prop := mgr.links.Linked t

instance (mgr : FlowQoSTimerMgr τ κ α) (t : τ) : Decidable (Armed mgr t) := by
  unfold Armed; infer_instance

/-- The manager as a clock with alarms. -/
def alarms (mgr : FlowQoSTimerMgr τ κ α) : Alarms τ where
  now := mgr.timeout
  armed t := if Armed mgr t then some ((mgr.timers t).timeout, (mgr.timers t).repeatTime) else none

/-- Every timer is in a bucket that the clock reaches in time. -/
structure WheelOk (mgr : FlowQoSTimerMgr τ κ α) (l : ℕ × ℕ → List τ) : Prop where
  holds : mgr.links.Holds l
  wheel : ∀ {t w i}, t ∈ l (w, i) → w = 0 ∨ w = 1
  low : ∀ {t i}, t ∈ l (0, i) → mgr.timeout ≤ (mgr.timers t).timeout ∧
    (mgr.timers t).timeout < mgr.timeout + 262144 ∧ i = (mgr.timers t).timeout % 262144
  high : ∀ {t i}, t ∈ l (1, i) → ∃ c, i = c % 262144 ∧ mgr.timeout ≤ c * 262144 ∧
    c * 262144 < mgr.timeout + 68719476736 ∧ c * 262144 ≤ (mgr.timers t).timeout ∧
    (mgr.timers t).timeout < c * 262144 + 524288
  period : ∀ {t b}, t ∈ l b → (mgr.timers t).repeatTime ≤ 68719476735
  cb : ∀ {t b}, t ∈ l b → (mgr.timers t).cb.isSome

/-- The wheel is in order, whatever the lists. -/
def WheelInv (mgr : FlowQoSTimerMgr τ κ α) : Prop := ∃ l, WheelOk mgr l

theorem WheelOk.armed_iff (h : WheelOk mgr l) : Armed mgr t ↔ ∃ b, t ∈ l b := h.holds.linked_iff

theorem WheelOk.not_mem (h : WheelOk mgr l) (ht : ¬ Armed mgr t) : ∀ b, t ∉ l b := by
  intro b hb
  exact ht (h.armed_iff.2 ⟨b, hb⟩)

theorem wheelOk_init (rdtsc : ℕ) :
    WheelOk (flowQoSTimerMgrInit rdtsc : FlowQoSTimerMgr τ κ α) fun _ => [] where
  holds := holds_empty
  wheel h := absurd h List.not_mem_nil
  low h := absurd h List.not_mem_nil
  high h := absurd h List.not_mem_nil
  period h := absurd h List.not_mem_nil
  cb h := absurd h List.not_mem_nil

theorem alarms_armed_of_not (h : ¬ Armed mgr t) : (alarms mgr).armed t = none := if_neg h

theorem alarms_armed_of (h : Armed mgr t) :
    (alarms mgr).armed t = some ((mgr.timers t).timeout, (mgr.timers t).repeatTime) := if_pos h

theorem isSome_alarms_armed : ((alarms mgr).armed t).isSome ↔ Armed mgr t := by
  unfold alarms
  by_cases h : Armed mgr t <;> simp [h]

/-! ### Stopping -/

@[simp] theorem timerStop_timeout : (timerStop mgr t).timeout = mgr.timeout := rfl
@[simp] theorem alarms_now : (alarms mgr).now = mgr.timeout := rfl

theorem WheelOk.timerStop (h : WheelOk mgr l) (t : τ) :
    WheelOk (timerStop mgr t) fun b => (l b).erase t where
  holds := h.holds.unlink t
  wheel hm := h.wheel (List.mem_of_mem_erase hm)
  low hm := h.low (List.mem_of_mem_erase hm)
  high hm := h.high (List.mem_of_mem_erase hm)
  period hm := h.period (List.mem_of_mem_erase hm)
  cb hm := h.cb (List.mem_of_mem_erase hm)

theorem WheelOk.armed_timerStop (h : WheelOk mgr l) :
    Armed (Timer.timerStop mgr t) u ↔ u ≠ t ∧ Armed mgr u := by
  rw [(h.timerStop t).armed_iff, h.armed_iff]
  constructor
  · rintro ⟨b, hb⟩
    obtain ⟨hne, hm⟩ := (h.holds.nodup b).mem_erase_iff.1 hb
    exact ⟨hne, b, hm⟩
  · rintro ⟨hne, b, hb⟩
    exact ⟨b, (h.holds.nodup b).mem_erase_iff.2 ⟨hne, hb⟩⟩

/-- **Stopping disarms.** -/
theorem WheelOk.alarms_timerStop (h : WheelOk mgr l) (t : τ) :
    alarms (Timer.timerStop mgr t) = (alarms mgr).disarm t := by
  ext1
  · rfl
  · funext u
    rw [Alarms.disarm_armed]
    by_cases hu : u = t
    · rw [if_pos hu, alarms_armed_of_not]
      rw [h.armed_timerStop]
      exact fun hc => hc.1 hu
    · rw [if_neg hu]
      simp only [alarms, h.armed_timerStop, ne_eq, hu, not_false_eq_true, true_and]
      rfl

/-! ### Starting -/

/-- The bucket of `timer_start` for a timeout the wheel can hold. -/
def startBucket (clock timeout : ℕ) : ℕ × ℕ :=
  if timeout < 262144 then (0, (clock + timeout) % 262144)
  else (1, (clock / 262144 + timeout / 262144) % 262144)

theorem wheelSlot_eq (clock : ℕ) (h : timeout ≤ 68719476735) :
    ∃ cur bidx, wheelSlot clock 4 0 timeout = ((startBucket clock timeout).1, cur, bidx) ∧
      (cur + bidx) % 262144 = (startBucket clock timeout).2 := by
  unfold startBucket
  by_cases hlt : timeout < 262144
  · refine ⟨timerWheelCurIndex clock 0, timeout % timerBucketCount, ?_, ?_⟩
    · rw [wheelSlot, timerBucketCount_eq, if_neg (by omega), if_pos hlt]
    · rw [if_pos hlt, curIndex_zero, timerBucketCount_eq]
      simp only
      omega
  · have hshift : timeout >>> timerWheelBits = timeout / 262144 := by
      simp [timerWheelBits, Nat.shiftRight_eq_div_pow]
    refine ⟨timerWheelCurIndex clock 1, timeout / 262144 % timerBucketCount, ?_, ?_⟩
    · rw [wheelSlot, timerBucketCount_eq, if_pos (by omega), wheelSlot, timerBucketCount_eq, hshift,
        if_neg (by omega), if_neg hlt]
    · rw [if_neg hlt, curIndex_one, timerBucketCount_eq]
      simp only
      omega

theorem timerStart_reject (h : cb.isNone ∨ timerMaxTimeout < timeout) :
    timerStart mgr t cb args timeout repeatTime = .ok (-1, mgr) := by
  rw [timerStart, if_pos h]

/-- The manager after a successful `timer_start`, but for its links. -/
def started (mgr : FlowQoSTimerMgr τ κ α) (t : τ) (cb : Option κ) (args : Option α)
    (timeout repeatTime : ℕ) (links : Links (ℕ × ℕ) τ) : FlowQoSTimerMgr τ κ α :=
  { mgr with
    timers := Function.update mgr.timers t
      { cb := cb, cb_args := args, timeout := mgr.timeout + timeout, repeatTime := repeatTime }
    links := links }

theorem started_timers_of_ne {links : Links (ℕ × ℕ) τ} (h : u ≠ t) :
    (started mgr t cb args timeout repeatTime links).timers u = mgr.timers u :=
  Function.update_of_ne h _ _

theorem started_timers_self {links : Links (ℕ × ℕ) τ} :
    (started mgr t cb args timeout repeatTime links).timers t =
      { cb := cb, cb_args := args, timeout := mgr.timeout + timeout, repeatTime := repeatTime } :=
  Function.update_self _ _ _

theorem mem_update {b b' : ℕ × ℕ} (h : u ∈ Function.update l b (l b ++ [t]) b') :
    u ∈ l b' ∨ (b' = b ∧ u = t) := by
  by_cases hb : b' = b
  · subst hb
    rw [Function.update_self] at h
    simpa using h
  · rw [Function.update_of_ne hb] at h
    exact .inl h

/-- What `timer_start` does to a timer that is on no bucket: it goes to the end of the bucket of its
deadline. -/
theorem WheelOk.timerStart (h : WheelOk mgr l) (args : Option α) (hfree : ∀ b, t ∉ l b) (hcb : cb.isSome)
    (ht : timeout ≤ 68719476735) (hr : repeatTime ≤ 68719476735)
    (hT : mgr.timeout + 68719476735 < 2 ^ 64) :
    ∃ links, Timer.timerStart mgr t cb args timeout repeatTime =
        .ok (0, started mgr t cb args timeout repeatTime links) ∧
      WheelOk (started mgr t cb args timeout repeatTime links)
        (Function.update l (startBucket mgr.timeout timeout)
          (l (startBucket mgr.timeout timeout) ++ [t])) := by
  obtain ⟨links, hlinks, hholds⟩ := h.holds.append hfree (startBucket mgr.timeout timeout)
  obtain ⟨cur, bidx, hslot, hb⟩ := wheelSlot_eq mgr.timeout ht
  have hw : ¬ timerWheelCount ≤ (startBucket mgr.timeout timeout).1 := by
    unfold startBucket timerWheelCount
    split <;> simp
  have hcond : ¬ (cb.isNone ∨ timerMaxTimeout < timeout) := by
    rw [timerMaxTimeout_eq]
    rintro (hc | hc)
    · simp_all
    · omega
  have hmod : (mgr.timeout + timeout) % 2 ^ 64 = mgr.timeout + timeout := Nat.mod_eq_of_lt (by omega)
  have hclamp : ¬ mgr.timeout + timeout < timeout := by omega
  have hne : ∀ {u b}, u ∈ l b → u ≠ t := by rintro u b hu rfl; exact hfree b hu
  refine ⟨links, ?_, hholds, fun {u w i} hm => ?_, fun {u i} hm => ?_, fun {u i} hm => ?_,
    fun {u b} hm => ?_, fun {u b} hm => ?_⟩
  · simp only [Timer.timerStart, if_neg hcond, hmod, if_neg hclamp, hslot, if_neg hw,
      timerBucketCount_eq, hb, Prod.mk.eta, hlinks, started]
  · rcases mem_update hm with hm | ⟨hb', -⟩
    · exact h.wheel hm
    · have : w = (startBucket mgr.timeout timeout).1 := by rw [← hb']
      unfold startBucket at this
      split at this <;> simp [this]
  · rcases mem_update hm with hm | ⟨hb', rfl⟩
    · rw [started_timers_of_ne (hne hm)]
      exact h.low hm
    · rw [started_timers_self]
      have hlt : timeout < 262144 := by
        by_contra hc
        rw [startBucket, if_neg hc] at hb'
        simp at hb'
      rw [startBucket, if_pos hlt] at hb'
      simp only [Prod.mk.injEq, true_and] at hb'
      exact ⟨Nat.le_add_right _ _, by simp only [started]; omega, hb'⟩
  · rcases mem_update hm with hm | ⟨hb', rfl⟩
    · rw [started_timers_of_ne (hne hm)]
      exact h.high hm
    · rw [started_timers_self]
      have hge : ¬ timeout < 262144 := by
        intro hc
        rw [startBucket, if_pos hc] at hb'
        simp at hb'
      rw [startBucket, if_neg hge] at hb'
      simp only [Prod.mk.injEq, true_and] at hb'
      refine ⟨mgr.timeout / 262144 + timeout / 262144, hb', ?_⟩
      simp only [started]
      omega
  · rcases mem_update hm with hm | ⟨-, rfl⟩
    · rw [started_timers_of_ne (hne hm)]
      exact h.period hm
    · rw [started_timers_self]; exact hr
  · rcases mem_update hm with hm | ⟨-, rfl⟩
    · rw [started_timers_of_ne (hne hm)]
      exact h.cb hm
    · rw [started_timers_self]; exact hcb

theorem WheelOk.alarms_started {links : Links (ℕ × ℕ) τ} {b : ℕ × ℕ} (h : WheelOk mgr l)
    (h' : WheelOk (started mgr t cb args timeout repeatTime links)
      (Function.update l b (l b ++ [t]))) :
    alarms (started mgr t cb args timeout repeatTime links) =
      (alarms mgr).arm t (mgr.timeout + timeout) repeatTime := by
  have harmed : ∀ u, Armed (started mgr t cb args timeout repeatTime links) u ↔
      u = t ∨ Armed mgr u := by
    intro u
    rw [h'.armed_iff, h.armed_iff]
    constructor
    · rintro ⟨b', hb'⟩
      rcases mem_update hb' with hm | ⟨-, hu⟩
      · exact .inr ⟨b', hm⟩
      · exact .inl hu
    · rintro (rfl | ⟨b', hb'⟩)
      · exact ⟨b, by rw [Function.update_self]; simp⟩
      · refine ⟨b', ?_⟩
        by_cases hbb : b' = b
        · subst hbb
          rw [Function.update_self]
          exact List.mem_append_left _ hb'
        · rwa [Function.update_of_ne hbb]
  ext1
  · rfl
  · funext u
    rw [Alarms.arm_armed]
    by_cases hu : u = t
    · subst hu
      rw [if_pos rfl, alarms_armed_of ((harmed u).2 (.inl rfl)), started_timers_self]
    · rw [if_neg hu]
      simp only [alarms, harmed, hu, false_or, started_timers_of_ne hu]

/-- **Starting arms.** A timer that is not armed, started with a timeout the wheel can hold, is due
that many ticks ahead. -/
theorem timerStart_spec (h : WheelInv mgr) (args : Option α) (hfree : ¬ Armed mgr t) (hcb : cb.isSome)
    (ht : timeout ≤ 68719476735) (hr : repeatTime ≤ 68719476735)
    (hT : mgr.timeout + 68719476735 < 2 ^ 64) :
    ∃ links, Timer.timerStart mgr t cb args timeout repeatTime =
        .ok (0, started mgr t cb args timeout repeatTime links) ∧
      WheelInv (started mgr t cb args timeout repeatTime links) ∧
      alarms (started mgr t cb args timeout repeatTime links) =
        (alarms mgr).arm t (mgr.timeout + timeout) repeatTime := by
  obtain ⟨l, h⟩ := h
  obtain ⟨links, hstart, h'⟩ := h.timerStart args (h.not_mem hfree) hcb ht hr hT
  exact ⟨links, hstart, ⟨_, h'⟩, h.alarms_started h'⟩

theorem WheelOk.not_mem_erase (h : WheelOk mgr l) (t : τ) (b : ℕ × ℕ) : t ∉ (l b).erase t :=
  (h.holds.nodup b).not_mem_erase

theorem WheelInv.timerStop (h : WheelInv mgr) (t : τ) : WheelInv (Timer.timerStop mgr t) := by
  obtain ⟨l, h⟩ := h
  exact ⟨_, h.timerStop t⟩

theorem WheelInv.alarms_timerStop (h : WheelInv mgr) (t : τ) :
    alarms (Timer.timerStop mgr t) = (alarms mgr).disarm t := by
  obtain ⟨l, h⟩ := h
  exact h.alarms_timerStop t

theorem WheelInv.not_armed_timerStop (h : WheelInv mgr) : ¬ Armed (Timer.timerStop mgr t) t := by
  obtain ⟨l, h⟩ := h
  rw [h.armed_timerStop]
  exact fun hc => hc.1 rfl

theorem disarm_arm (A : Alarms τ) (t : τ) (d p : ℕ) : (A.disarm t).arm t d p = A.arm t d p := by
  simp [Alarms.arm, Alarms.disarm]

/-- **Resetting arms again**, as a one-shot timer. -/
theorem timerReset_spec (h : WheelInv mgr) (hcb : (mgr.timers t).cb.isSome)
    (ht : timeout ≤ 68719476735) (hT : mgr.timeout + 68719476735 < 2 ^ 64) :
    ∃ links, timerReset mgr t timeout =
        .ok (0, started mgr t (mgr.timers t).cb (mgr.timers t).cb_args timeout 0 links) ∧
      WheelInv (started mgr t (mgr.timers t).cb (mgr.timers t).cb_args timeout 0 links) ∧
      alarms (started mgr t (mgr.timers t).cb (mgr.timers t).cb_args timeout 0 links) =
        (alarms mgr).arm t (mgr.timeout + timeout) 0 := by
  obtain ⟨links, hstart, hinv, halarms⟩ := timerStart_spec (h.timerStop t)
    (mgr.timers t).cb_args h.not_armed_timerStop hcb ht (Nat.zero_le _) hT
  refine ⟨links, ?_, hinv, ?_⟩
  · simp only [timerReset, Option.isNone_iff_eq_none, Option.isSome_iff_ne_none.1 hcb, if_false, hstart]
    rfl
  · have : started (Timer.timerStop mgr t) t (mgr.timers t).cb (mgr.timers t).cb_args timeout 0 links =
      started mgr t (mgr.timers t).cb (mgr.timers t).cb_args timeout 0 links := rfl
    rw [this, h.alarms_timerStop, disarm_arm] at halarms
    exact halarms

theorem timerReset_reject (hcb : (mgr.timers t).cb = none) :
    timerReset mgr t timeout = .ok (-1, mgr) := by
  simp [timerReset, hcb]

end FlowQoS.Timer
