import Mathlib.Data.List.Nodup
import Mathlib.Data.List.Basic

/-!
# Waiting lines

Elements without duplicates wait in a line. Those behind others may leave it at any time, new ones join it at
the end, and a service takes some of the first. `ahead l a` are the ones `a` waits for; whatever happens to
the line while `a` waits, the ones ahead of `a` later have been ahead of `a` before, in the same order
(`Shifts.ahead`), and a service of `n` of the first shortens them by `n` (`ahead_drop`).
-/

namespace FlowQoS.Lib

variable {α : Type*} {a : α} {l l' l'' : List α} {m n : ℕ}

/-! ### What happens to a line -/

/-- Some leave the line and others join it. -/
def Shifts (l l' : List α) : Prop :=
  ∃ kept joined : List α, l' = kept ++ joined ∧ kept.Sublist l ∧ ∀ b ∈ joined, b ∉ l

theorem Shifts.refl (l : List α) : Shifts l l :=
  ⟨l, [], (List.append_nil l).symm, .refl l, fun _ hb => absurd hb List.not_mem_nil⟩

theorem Shifts.of_sublist (h : l'.Sublist l) : Shifts l l' :=
  ⟨l', [], (List.append_nil l').symm, h, fun _ hb => absurd hb List.not_mem_nil⟩

theorem Shifts.join (hnot : a ∉ l) : Shifts l (l ++ [a]) :=
  ⟨l, [a], rfl, .refl l, fun b hb => by
    rw [List.mem_singleton.1 hb]
    exact hnot⟩

/-- `m` of those ahead have been served, and the others are still in their order. -/
def Advanced (m : ℕ) (before after : List α) : Prop := m ≤ before.length ∧ after.Sublist (before.drop m)

theorem Advanced.refl (l : List α) : Advanced 0 l l := ⟨Nat.zero_le _, .refl l⟩

theorem Advanced.trans (h : Advanced m l l') (h' : Advanced n l' l'') : Advanced (m + n) l l'' := by
  obtain ⟨hle, hsub⟩ := h
  obtain ⟨hle', hsub'⟩ := h'
  have hlen := hsub.length_le
  rw [List.length_drop] at hlen
  refine ⟨by omega, hsub'.trans ?_⟩
  rw [← List.drop_drop]
  exact hsub.drop n

/-! ### Those ahead -/

variable [DecidableEq α]

/-- The elements in the line before the first `a`. -/
def ahead (l : List α) (a : α) : List α := l.takeWhile (· ≠ a)

theorem ahead_cons (b : α) (l : List α) (a : α) :
    ahead (b :: l) a = if b = a then [] else b :: ahead l a := by
  unfold ahead
  rw [List.takeWhile_cons]
  by_cases h : b = a
  · simp [h]
  · simp [h]

/-- Those who join the line do so behind the others. -/
theorem ahead_append (h : a ∈ l) (joined : List α) : ahead (l ++ joined) a = ahead l a := by
  induction l with
  | nil => cases h
  | cons b l ih =>
    rw [List.cons_append, ahead_cons, ahead_cons]
    by_cases hb : b = a
    · rw [if_pos hb, if_pos hb]
    · rw [if_neg hb, if_neg hb, ih ((List.mem_cons.1 h).resolve_left (Ne.symm hb))]

/-- Where some have left the line, there are fewer ahead, in the same order. -/
theorem ahead_sublist (h : l'.Sublist l) (hnd : l.Nodup) (ha : a ∈ l') :
    (ahead l' a).Sublist (ahead l a) := by
  induction h with
  | slnil => cases ha
  | @cons l' l b h ih =>
    obtain ⟨hb, hnd'⟩ := List.nodup_cons.1 hnd
    have hne : b ≠ a := by
      rintro rfl
      exact hb (h.subset ha)
    rw [ahead_cons b l, if_neg hne]
    exact (ih hnd' ha).cons b
  | @cons_cons l' l b h ih =>
    rw [ahead_cons, ahead_cons]
    by_cases hb : b = a
    · rw [if_pos hb, if_pos hb]
    · rw [if_neg hb, if_neg hb]
      exact (ih (List.nodup_cons.1 hnd).2 ((List.mem_cons.1 ha).resolve_left (Ne.symm hb))).cons_cons b

/-- A service takes those who are first; who is left has waited for all of them. -/
theorem ahead_drop (hnd : l.Nodup) (ha : a ∈ l.drop n) :
    n ≤ (ahead l a).length ∧ ahead (l.drop n) a = (ahead l a).drop n := by
  induction n generalizing l with
  | zero => exact ⟨Nat.zero_le _, rfl⟩
  | succ n ih =>
    cases l with
    | nil => cases ha
    | cons b l =>
      rw [List.drop_succ_cons] at ha ⊢
      obtain ⟨hb, hnd'⟩ := List.nodup_cons.1 hnd
      obtain ⟨hle, heq⟩ := ih hnd' ha
      have hne : b ≠ a := by
        rintro rfl
        exact hb (List.mem_of_mem_drop ha)
      rw [ahead_cons, if_neg hne, List.length_cons, List.drop_succ_cons]
      exact ⟨Nat.succ_le_succ hle, heq⟩

/-- **No one overtakes.** Those ahead of an element that waits have been ahead of it before. -/
theorem Shifts.ahead (h : Shifts l l') (hnd : l.Nodup) (ha : a ∈ l) (ha' : a ∈ l') :
    (ahead l' a).Sublist (ahead l a) := by
  obtain ⟨kept, joined, rfl, hkept, hnew⟩ := h
  have hmem : a ∈ kept := by
    rcases List.mem_append.1 ha' with hk | hj
    · exact hk
    · exact absurd ha (hnew a hj)
  rw [ahead_append hmem]
  exact ahead_sublist hkept hnd hmem

end FlowQoS.Lib
