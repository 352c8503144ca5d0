import Mathlib.Algebra.BigOperators.Group.List.Basic
import Mathlib.Algebra.Order.Monoid.Defs

/-!
# Batches in a time window

A log of batches, each with its time. Where two batches that are not empty are always more than a gap
apart (`Spaced`), a window no longer than the gap has seen one of them at most, so that what a window
has seen is bounded by what a batch is (`windowSum_le`).
-/

namespace FlowQoS.Lib

variable {M : Type*} [AddCommMonoid M] {gap lo hi : ℕ} {log : List (ℕ × M)} {e : ℕ × M}

/-- The sum of the batches with a time from `lo` to `hi`. -/
def windowSum (lo hi : ℕ) (log : List (ℕ × M)) : M :=
  ((log.filter fun e => lo ≤ e.1 ∧ e.1 ≤ hi).map Prod.snd).sum

/-- Two batches that are not empty are more than `gap` apart, in the order of the log. -/
def Spaced (gap : ℕ) (log : List (ℕ × M)) : Prop :=
  log.Pairwise fun e e' => e.2 ≠ 0 → e'.2 ≠ 0 → e.1 + gap < e'.1

theorem windowSum_cons : windowSum lo hi (e :: log) =
    (if lo ≤ e.1 ∧ e.1 ≤ hi then e.2 else 0) + windowSum lo hi log := by
  unfold windowSum
  rw [List.filter_cons]
  by_cases h : lo ≤ e.1 ∧ e.1 ≤ hi
  · simp [h]
  · simp [h]

/-- Later than the window there is nothing in it. -/
theorem windowSum_eq_zero (h : ∀ e ∈ log, e.2 ≠ 0 → hi < e.1) : windowSum lo hi log = 0 := by
  induction log with
  | nil => rfl
  | cons e log ih =>
    rw [windowSum_cons, ih fun e' he' => h e' (List.mem_cons_of_mem _ he'), add_zero]
    by_cases hin : lo ≤ e.1 ∧ e.1 ≤ hi
    · rw [if_pos hin]
      by_contra hne
      have hlt := h e List.mem_cons_self hne
      omega
    · rw [if_neg hin]

/-- A batch that is empty, or later than every other by more than the gap. -/
theorem Spaced.concat (h : Spaced gap log)
    (he : e.2 ≠ 0 → ∀ e' ∈ log, e'.2 ≠ 0 → e'.1 + gap < e.1) : Spaced gap (log ++ [e]) := by
  unfold Spaced
  rw [List.pairwise_append]
  refine ⟨h, List.pairwise_singleton _ _, ?_⟩
  intro e' he' x hx hne hne'
  rw [List.mem_singleton] at hx
  subst hx
  exact he hne' e' he' hne

variable [PartialOrder M] {bound : M}

/-- **A window has seen one batch at most.** -/
theorem windowSum_le (h : Spaced gap log) (hbound : ∀ e ∈ log, e.2 ≤ bound) (hzero : 0 ≤ bound)
    (hgap : hi ≤ lo + gap) : windowSum lo hi log ≤ bound := by
  induction log with
  | nil => exact hzero
  | cons e log ih =>
    obtain ⟨hlater, hlog⟩ := List.pairwise_cons.1 h
    have hrest := ih hlog fun e' he' => hbound e' (List.mem_cons_of_mem _ he')
    rw [windowSum_cons]
    by_cases hin : (lo ≤ e.1 ∧ e.1 ≤ hi) ∧ e.2 ≠ 0
    · rw [if_pos hin.1, windowSum_eq_zero, add_zero]
      · exact hbound e List.mem_cons_self
      · intro e' he' hne
        have hlt := hlater e' he' hin.2 hne
        omega
    · have hnone : (if lo ≤ e.1 ∧ e.1 ≤ hi then e.2 else 0) = 0 := by
        by_cases hwin : lo ≤ e.1 ∧ e.1 ≤ hi
        · rw [if_pos hwin]
          by_contra hne
          exact hin ⟨hwin, hne⟩
        · rw [if_neg hwin]
      rw [hnone, zero_add]
      exact hrest

end FlowQoS.Lib
