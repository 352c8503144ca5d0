import Mathlib.Data.Int.CardIntervalMod

/-!
# A rotation driven by a counter that wraps

`k` places are taken in turn: turn `i` goes to place `c % k`, where `c` is a counter of `W` values that
starts at zero, so that `c = i % W`. `turns W k n r` counts the first `n` turns that go to `r`. The
places below `W % k` get one turn more in every full cycle of the counter, so that the rotation stays
even for ever only when `k` divides `W` (`turns_fair_iff`).
-/

namespace FlowQoS.Lib

/-- The number of the first `n` turns that go to place `r`. -/
def turns (W k n r : ℕ) : ℕ := Nat.count (fun i => i % W % k = r) n

variable {W k n m r : ℕ}

theorem turns_succ : turns W k (n + 1) r = turns W k n r + if n % W % k = r then 1 else 0 :=
  Nat.count_succ _ n

/-- Within a cycle of the counter. -/
theorem turns_of_le (hk : 0 < k) (hr : r < k) (hm : m ≤ W) :
    turns W k m r = m / k + if r < m % k then 1 else 0 := by
  have hcount : turns W k m r = Nat.count (· ≡ r [MOD k]) m := by
    induction m with
    | zero => rfl
    | succ m ih =>
      have hmod : m % W % k = r ↔ m ≡ r [MOD k] := by
        rw [Nat.mod_eq_of_lt hm, Nat.ModEq, Nat.mod_eq_of_lt hr]
      rw [turns_succ, Nat.count_succ, ih (by omega)]
      simp only [hmod]
  rw [hcount, Nat.count_modEq_card _ hk, Nat.mod_eq_of_lt hr]

/-- Every cycle gives a place the same number of turns. -/
theorem turns_add_cycles (q : ℕ) : turns W k (m + q * W) r = turns W k m r + q * turns W k W r := by
  induction q with
  | zero => simp
  | succ q ih =>
    have hcycle : turns W k (m + q * W + W) r = turns W k (m + q * W) r + turns W k W r := by
      unfold turns
      rw [Nat.count_add']
      simp only [Nat.add_mod_right]
    rw [Nat.succ_mul, ← Nat.add_assoc, hcycle, ih, Nat.succ_mul, Nat.add_assoc]

theorem turns_eq (hk : 0 < k) (hr : r < k) (hW : 0 < W) :
    turns W k n r = n % W / k + (if r < n % W % k then 1 else 0) +
      n / W * (W / k + if r < W % k then 1 else 0) := by
  have hn : n = n % W + n / W * W := by
    rw [Nat.mul_comm]
    exact (Nat.mod_add_div n W).symm
  have hlast := turns_of_le (m := n % W) hk hr (Nat.mod_lt n hW).le
  have hcycle := turns_of_le (m := W) hk hr le_rfl
  conv_lhs => rw [hn]
  rw [turns_add_cycles, hlast, hcycle]

/-- **The rotation is even** exactly when the places divide the cycle, or the counter has not wrapped, or
has wrapped once and the places divide the turns since. -/
theorem turns_fair_iff (hk : 0 < k) (hW : 0 < W) :
    (∀ r < k, ∀ r' < k, turns W k n r ≤ turns W k n r' + 1) ↔
      k ∣ W ∨ n < W ∨ n < 2 * W ∧ k ∣ n - W := by
  have hcycle := Nat.mod_lt W hk
  have hlast := Nat.mod_lt (n % W) hk
  -- the first place gets as many turns as any, the last as few
  constructor
  · intro h
    have hends := h 0 hk (k - 1) (by omega)
    rw [turns_eq hk hk hW, turns_eq hk (by omega) hW, if_neg (show ¬ k - 1 < n % W % k by omega),
      if_neg (show ¬ k - 1 < W % k by omega)] at hends
    by_cases hR : W % k = 0
    · exact .inl (Nat.dvd_of_mod_eq_zero hR)
    rw [if_pos (Nat.pos_of_ne_zero hR), Nat.mul_add, Nat.mul_add] at hends
    right
    by_cases hq : n / W = 0
    · exact .inl ((Nat.div_eq_zero_iff_lt hW).1 hq)
    have hone : n / W = 1 := by
      split at hends <;> omega
    have hb : n % W % k = 0 := by
      split at hends <;> omega
    have hn := Nat.mod_add_div n W
    rw [hone, Nat.mul_one] at hn
    have hlt := Nat.mod_lt n hW
    refine .inr ⟨by omega, Nat.dvd_of_mod_eq_zero ?_⟩
    rwa [show n - W = n % W by omega]
  · intro h r hr r' hr'
    rw [turns_eq hk hr hW, turns_eq hk hr' hW]
    rcases h with hdvd | hlt | ⟨hlt, hdvd⟩
    · rw [Nat.mod_eq_zero_of_dvd hdvd, if_neg (Nat.not_lt_zero r), if_neg (Nat.not_lt_zero r')]
      split <;> split <;> omega
    · rw [Nat.div_eq_of_lt hlt, Nat.zero_mul, Nat.zero_mul]
      split <;> split <;> omega
    · by_cases hle : n < W
      · rw [Nat.div_eq_of_lt hle, Nat.zero_mul, Nat.zero_mul]
        split <;> split <;> omega
      · have hone : n / W = 1 := Nat.div_eq_of_lt_le (by omega) (by omega)
        have hmod : n % W = n - W := by
          have hn := Nat.mod_add_div n W
          rw [hone] at hn
          omega
        rw [hone, hmod, Nat.mod_eq_zero_of_dvd hdvd, if_neg (Nat.not_lt_zero r), if_neg (Nat.not_lt_zero r')]
        split <;> split <;> omega

end FlowQoS.Lib
