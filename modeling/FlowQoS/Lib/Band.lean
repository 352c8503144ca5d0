import Mathlib.Algebra.Order.Monoid.Canonical.Defs
import Mathlib.Algebra.Order.Sub.Basic

/-!
# A value in a band

A value that is moved up and down and never leaves its bounds: a raise stops at the upper bound, a
lowering that would reach the lower bound ends there, and a new setting moves the lower bound with the
value, as far up as the upper bound.
-/

namespace FlowQoS.Lib

/-- A value between two bounds. -/
@[ext]
structure Band (α : Type*) [LE α] where
  lo : α
  val : α
  hi : α
  lo_le : lo ≤ val
  le_hi : val ≤ hi

namespace Band

variable {α : Type*} [LinearOrder α]

/-- The value and its lower bound are set to `v`. -/
def reset (b : Band α) (v : α) : Band α where
  lo := min v b.hi
  val := min v b.hi
  hi := b.hi
  lo_le := le_rfl
  le_hi := min_le_right _ _

variable [AddCommMonoid α] [CanonicallyOrderedAdd α]

/-- The value goes up by `d`. -/
def raise (b : Band α) (d : α) : Band α where
  lo := b.lo
  val := min (b.val + d) b.hi
  hi := b.hi
  lo_le := le_min (b.lo_le.trans le_self_add) (b.lo_le.trans b.le_hi)
  le_hi := min_le_right _ _

section lower

variable [Sub α] [OrderedSub α] [AddLeftReflectLE α]

/-- The value goes down by `d`. -/
def lower (b : Band α) (d : α) : Band α where
  lo := b.lo
  val := if b.lo + d < b.val then b.val - d else b.lo
  hi := b.hi
  lo_le := by
    by_cases h : b.lo + d < b.val
    · rw [if_pos h]
      exact le_tsub_of_add_le_right h.le
    · rw [if_neg h]
  le_hi := by
    by_cases h : b.lo + d < b.val
    · rw [if_pos h]
      exact tsub_le_self.trans b.le_hi
    · rw [if_neg h]
      exact b.lo_le.trans b.le_hi

end lower

end Band

end FlowQoS.Lib
