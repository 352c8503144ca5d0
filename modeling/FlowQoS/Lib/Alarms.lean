import Mathlib.Logic.Function.Basic
import Mathlib.Data.Nat.Notation
import Mathlib.Tactic.Ring

/-!
# Alarms on a clock

What a timer service is for: a clock that counts ticks, and a set of armed timers, each with the
clock value at which it is due and a period, 0 for one shot. The tick that processes the clock value
`now` fires exactly the timers that are due, arms the periodic ones again and moves the clock on.

`Follows` is the closed form of an undisturbed timer: armed for `d` with period `p`, it is due at
`d`, `d + p`, `d + 2 * p` and so on, and at no other clock value.
-/

namespace FlowQoS.Lib

/-- A clock and the deadline and period of every armed timer. -/
@[ext]
structure Alarms (τ : Type*) where
  now : ℕ
  armed : τ → Option (ℕ × ℕ)

namespace Alarms

variable {τ : Type*} {A : Alarms τ} {t u : τ} {d p : ℕ}

/-- The timer is fired by the tick that processes the current clock value. -/
def Due (A : Alarms τ) (t : τ) : Prop := ∃ p, A.armed t = some (A.now, p)

/-- One tick. -/
def advance (A : Alarms τ) : Alarms τ where
  now := A.now + 1
  armed t :=
    match A.armed t with
    | none => none
    | some (d, p) => if d = A.now then if p = 0 then none else some (A.now + p, p) else some (d, p)

@[simp] theorem advance_now : A.advance.now = A.now + 1 := rfl

/-- A one-shot timer is armed after a tick if it was before and was not due. -/
theorem advance_isSome_iff (hone : ∀ {d p}, A.armed t = some (d, p) → p = 0) :
    (A.advance.armed t).isSome ↔ (A.armed t).isSome ∧ ¬ A.Due t := by
  simp only [advance, Due]
  cases ht : A.armed t with
  | none => simp
  | some dp =>
    obtain ⟨d, p⟩ := dp
    cases hone ht
    by_cases hd : d = A.now
    · simp [hd]
    · simp [hd]

theorem advance_once (hone : ∀ {d p}, A.armed t = some (d, p) → p = 0)
    (h : A.advance.armed t = some (d, p)) : p = 0 := by
  simp only [advance] at h
  cases ht : A.armed t with
  | none =>
    rw [ht] at h
    cases h
  | some dp =>
    obtain ⟨d', p'⟩ := dp
    cases hone ht
    rw [ht] at h
    by_cases hd : d' = A.now
    · simp [hd] at h
    · simp only [if_neg hd, Option.some.injEq, Prod.mk.injEq] at h
      exact h.2.symm

theorem advance_of_not_due (h : ¬ A.Due t) : A.advance.armed t = A.armed t := by
  simp only [advance]
  cases ht : A.armed t with
  | none => rfl
  | some dp =>
    obtain ⟨d, p⟩ := dp
    simp only
    rw [if_neg]
    rintro rfl
    exact h ⟨p, ht⟩

/-! ### The closed form of an undisturbed timer -/

/-- The timer, armed for `d` with period `p` and left alone since, is at its first deadline that
has not passed; a one-shot timer whose deadline has passed is off. -/
def Follows (A : Alarms τ) (t : τ) (d p : ℕ) : Prop :=
  (∃ k, A.armed t = some (d + k * p, p) ∧ A.now ≤ d + k * p ∧ ∀ j < k, d + j * p < A.now) ∨
    (p = 0 ∧ A.armed t = none ∧ d < A.now)

theorem Follows.advance (h : A.Follows t d p) : A.advance.Follows t d p := by
  rcases h with ⟨k, harm, hle, hlt⟩ | ⟨hp, harm, hlt⟩
  · by_cases hnow : d + k * p = A.now
    · by_cases hp : p = 0
      · right
        subst hp
        rw [Nat.mul_zero, Nat.add_zero] at hnow harm
        exact ⟨rfl, by simp [Alarms.advance, harm, hnow], by rw [advance_now]; omega⟩
      · left
        refine ⟨k + 1, ?_, ?_, fun j hj => ?_⟩
        · simp only [Alarms.advance, harm, hnow, hp, if_true, if_false]
          rw [← hnow]
          congr 2
          ring
        · have : (k + 1) * p = k * p + p := by ring
          rw [advance_now]
          omega
        · rw [advance_now]
          rcases Nat.lt_succ_iff_lt_or_eq.1 hj with hj | rfl
          · have := hlt j hj; omega
          · omega
    · left
      refine ⟨k, by simp [Alarms.advance, harm, hnow], ?_, fun j hj => ?_⟩
      · rw [advance_now]; omega
      · have := hlt j hj
        rw [advance_now]; omega
  · exact .inr ⟨hp, by simp [Alarms.advance, harm], by rw [advance_now]; omega⟩

/-- **An undisturbed timer is due at its deadlines and at no other clock value.** -/
theorem Follows.due_iff (h : A.Follows t d p) : A.Due t ↔ ∃ k, A.now = d + k * p := by
  rcases h with ⟨k, harm, hle, hlt⟩ | ⟨hp, harm, hlt⟩
  · constructor
    · rintro ⟨q, hq⟩
      rw [harm] at hq
      exact ⟨k, by simpa using (congrArg Prod.fst (Option.some.inj hq)).symm⟩
    · rintro ⟨j, hj⟩
      refine ⟨p, ?_⟩
      rw [harm]
      have hkj : k ≤ j := by
        by_contra hc
        have := hlt j (by omega)
        omega
      have := Nat.mul_le_mul_right p hkj
      have : d + k * p = A.now := by omega
      rw [this]
  · constructor
    · rintro ⟨q, hq⟩
      rw [harm] at hq
      cases hq
    · rintro ⟨j, hj⟩
      rw [hp, Nat.mul_zero] at hj
      omega

/-! ### Arming and disarming -/

variable [DecidableEq τ]

def arm (A : Alarms τ) (t : τ) (d p : ℕ) : Alarms τ :=
  { A with armed := Function.update A.armed t (some (d, p)) }

def disarm (A : Alarms τ) (t : τ) : Alarms τ :=
  { A with armed := Function.update A.armed t none }

@[simp] theorem arm_now : (A.arm t d p).now = A.now := rfl
@[simp] theorem disarm_now : (A.disarm t).now = A.now := rfl

theorem arm_armed : (A.arm t d p).armed u = if u = t then some (d, p) else A.armed u := by
  simp [arm, Function.update_apply]

theorem disarm_armed : (A.disarm t).armed u = if u = t then none else A.armed u := by
  simp [disarm, Function.update_apply]

theorem follows_arm (h : A.now ≤ d) : (A.arm t d p).Follows t d p :=
  .inl ⟨0, by simp [arm_armed], by simpa using h, by simp⟩

theorem Follows.arm_ne (h : A.Follows t d p) (hu : u ≠ t) (d' p' : ℕ) :
    (A.arm u d' p').Follows t d p := by
  unfold Follows at *
  rwa [arm_armed, if_neg hu.symm, arm_now]

theorem Follows.disarm_ne (h : A.Follows t d p) (hu : u ≠ t) : (A.disarm u).Follows t d p := by
  unfold Follows at *
  rwa [disarm_armed, if_neg hu.symm, disarm_now]

end Alarms

end FlowQoS.Lib
