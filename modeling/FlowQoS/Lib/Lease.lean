import Mathlib.Data.Nat.Notation

/-!
# A lease that is renewed late

The owner of a lease uses it now and then. To renew it at every use would be too dear, so a use renews
it only where the last renewal, whose time is stamped on the lease, lies more than `slack` back: then
the lease ends `term` after the use at the earliest. Uses that are no more than `term` less `slack`
apart find the lease in force (`Lease.in_time`).
-/

namespace FlowQoS.Lib

/-- A lease that was last used at `last`, with the time of a renewal stamped on it. The stamp may be
older than the lease itself. -/
structure Lease (term slack stamp last deadline : ℕ) : Prop where
  stamp_le : stamp ≤ last
  stamped : stamp + term ≤ deadline
  used : last + term ≤ deadline + slack

namespace Lease

variable {term slack stamp last deadline now : ℕ}

/-- A lease that is granted or renewed now, with a stamp that need not be. -/
theorem granted (hstamp : stamp ≤ now) (h : now + term ≤ deadline) : Lease term slack stamp now deadline :=
  ⟨hstamp, by omega, by omega⟩

/-- A use that does not renew the lease. -/
theorem use (h : Lease term slack stamp last deadline) (hle : last ≤ now) (hnow : now ≤ stamp + slack) :
    Lease term slack stamp now deadline where
  stamp_le := Nat.le_trans h.stamp_le hle
  stamped := h.stamped
  used := by
    have := h.stamped
    omega

/-- **The lease is in force** up to the next use. -/
theorem in_time (h : Lease term slack stamp last deadline) (hnow : now + slack ≤ last + term) :
    now ≤ deadline := by
  have := h.used
  omega

end Lease

end FlowQoS.Lib
