import Mathlib.Data.List.Basic

/-!
# Operations without a result

The ways in which an operation of the C code fails to return, and what it means that a composed
operation returns.
-/

namespace FlowQoS

/-- The ways in which an operation of the C code has no result. -/
inductive Fault where
  | nullPointer
  | assertFailed
  /-- A sentinel is treated as a timer. -/
  | notATimer
  /-- The loop did not end within the given number of turns. -/
  | outOfFuel
  | divisionByZero
  /-- The only thread waits for a lock that nobody will release. -/
  | deadlock
  deriving DecidableEq, Repr

variable {α β : Type}

theorem bind_eq_ok {x : Except Fault α} {f : α → Except Fault β} {b : β} :
    (x >>= f) = .ok b ↔ ∃ a, x = .ok a ∧ f a = .ok b := by
  cases x with
  | error e =>
    constructor
    · intro h
      cases h
    · rintro ⟨a, h, -⟩
      cases h
  | ok a =>
    constructor
    · exact fun h => ⟨a, rfl, h⟩
    · rintro ⟨a', h, h'⟩
      cases h
      exact h'

theorem map_eq_ok {x : Except Fault α} {f : α → β} {b : β} :
    x.map f = .ok b ↔ ∃ a, x = .ok a ∧ f a = b := by
  cases x with
  | error e =>
    constructor
    · intro h
      cases h
    · rintro ⟨a, h, -⟩
      cases h
  | ok a =>
    constructor
    · intro h
      cases h
      exact ⟨a, rfl, rfl⟩
    · rintro ⟨a', h, h'⟩
      cases h
      cases h'
      rfl

/-- What every turn of a loop preserves, from the elements that are left, holds after the loop. -/
theorem foldlM_inv {step : β → α → Except Fault β} {P : List α → β → Prop}
    (hstep : ∀ a as b b', P (a :: as) b → step b a = .ok b' → P as b') :
    ∀ {as : List α} {b b' : β}, P as b → as.foldlM step b = .ok b' → P [] b'
  | [], _, _, h, hrun => by cases hrun; exact h
  | a :: as, b, b', h, hrun => by
    rw [List.foldlM_cons] at hrun
    obtain ⟨b₁, h₁, h₂⟩ := bind_eq_ok.1 hrun
    exact foldlM_inv hstep (hstep a as b b₁ h h₁) h₂

end FlowQoS
