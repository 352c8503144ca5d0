import Mathlib.Algebra.BigOperators.Group.List.Basic
import Mathlib.Tactic.Ring
import Mathlib.Data.Nat.ModEq

/-!
# One's-complement checksums

Words up to `M` are added with the carry out of the top brought round to the bottom. A message is valid when
its words, the checksum among them, add up to all ones. The sum is a remainder of the sum of the numbers that
is 0 only for zeros, so a message is valid exactly when the numbers add up to a positive multiple of `M`
(`valid_iff`): the order of the words does not matter, and where some words of a valid message change,
it stays valid exactly when the difference of the sums is a multiple of `M` (`Valid.iff_modEq`).

For messages of bytes, `M` is `65535`, and a message is valid in one byte order exactly when it is valid in
the other one (`valid_beWords`).
-/

namespace FlowQoS.Lib.Ones

variable {M : ℕ} {ws us : List ℕ}

/-! ### Sums -/

/-- The addition with end-around carry. -/
def add (M a b : ℕ) : ℕ := if a + b ≤ M then a + b else a + b - M

def sum (M : ℕ) (ws : List ℕ) : ℕ := ws.foldl (add M) 0

/-- The words add up to all ones. -/
def Valid (M : ℕ) (ws : List ℕ) : Prop := sum M ws = M

instance (M : ℕ) (ws : List ℕ) : Decidable (Valid M ws) := inferInstanceAs (Decidable (_ = _))

/-- The word that makes a message valid. -/
def checksum (M : ℕ) (ws : List ℕ) : ℕ := M - sum M ws

/-- A sum with end-around carry stands for a number: it is a word, it has the remainder of the number, and
it is 0 only where the number is. -/
structure Carries (M a n : ℕ) : Prop where
  le : a ≤ M
  modEq : a ≡ n [MOD M]
  zero : a = 0 ↔ n = 0

theorem Carries.add {a n w : ℕ} (h : Carries M a n) (hw : w ≤ M) : Carries M (Ones.add M a w) (n + w) := by
  obtain ⟨hle, hmod, hzero⟩ := h
  unfold Ones.add
  by_cases hfits : a + w ≤ M
  · rw [if_pos hfits]
    exact ⟨hfits, hmod.add_right w, by omega⟩
  · rw [if_neg hfits]
    refine ⟨by omega, ?_, by omega⟩
    have hback : a + w - M + M ≡ n + w [MOD M] := by
      rw [show a + w - M + M = a + w by omega]
      exact hmod.add_right w
    simpa [Nat.ModEq] using hback

theorem carries_foldl {a n : ℕ} (h : Carries M a n) (hws : ∀ w ∈ ws, w ≤ M) :
    Carries M (ws.foldl (add M) a) (n + ws.sum) := by
  induction ws generalizing a n with
  | nil => simpa using h
  | cons w ws ih =>
    have hw := h.add (hws w List.mem_cons_self)
    have hrest := ih hw fun v hv => hws v (List.mem_cons_of_mem _ hv)
    rw [List.foldl_cons, List.sum_cons, ← Nat.add_assoc]
    exact hrest

theorem carries_sum (hws : ∀ w ∈ ws, w ≤ M) : Carries M (sum M ws) ws.sum := by
  have h := carries_foldl (M := M) (a := 0) ⟨Nat.zero_le M, .refl 0, Iff.rfl⟩ hws
  rwa [Nat.zero_add] at h

/-! ### Valid messages -/

/-- **Valid messages.** The words add up to all ones if and only if the numbers add up to a positive multiple
of the largest word. -/
theorem valid_iff (hM : 0 < M) (hws : ∀ w ∈ ws, w ≤ M) : Valid M ws ↔ 0 < ws.sum ∧ M ∣ ws.sum := by
  obtain ⟨hle, hmod, hzero⟩ := carries_sum hws
  have hdvd : M ∣ sum M ws ↔ M ∣ ws.sum := hmod.dvd_iff (dvd_refl M)
  unfold Valid
  constructor
  · intro h
    rw [h] at hdvd hzero
    exact ⟨by omega, hdvd.1 (dvd_refl M)⟩
  · rintro ⟨hpos, hmul⟩
    exact le_antisymm hle (Nat.le_of_dvd (by omega) (hdvd.2 hmul))

/-- Some words of a valid message change: it stays valid where the sum keeps its remainder. -/
theorem Valid.iff_modEq (hv : Valid M ws) (hM : 0 < M) (hws : ∀ w ∈ ws, w ≤ M) (hus : ∀ w ∈ us, w ≤ M)
    (hpos : 0 < us.sum) : Valid M us ↔ us.sum ≡ ws.sum [MOD M] := by
  obtain ⟨-, hdvd⟩ := (valid_iff hM hws).1 hv
  have hzero : ws.sum ≡ 0 [MOD M] := (Nat.modEq_zero_iff_dvd).2 hdvd
  rw [valid_iff hM hus, ← Nat.modEq_zero_iff_dvd]
  exact ⟨fun h => h.2.trans hzero.symm, fun h => ⟨hpos, h.trans hzero⟩⟩

/-- A message with the checksum of the other words is valid, wherever the checksum stands. -/
theorem valid_checksum (hM : 0 < M) (hws : ∀ w ∈ ws, w ≤ M) (hus : ∀ w ∈ us, w ≤ M)
    (hsum : us.sum = ws.sum + checksum M ws) : Valid M us := by
  obtain ⟨hle, hmod, hzero⟩ := carries_sum hws
  rw [valid_iff hM hus, hsum]
  unfold checksum
  refine ⟨by omega, ?_⟩
  have hall : sum M ws + (M - sum M ws) ≡ ws.sum + (M - sum M ws) [MOD M] := hmod.add_right _
  rw [Nat.add_sub_cancel' hle] at hall
  exact (hall.dvd_iff (dvd_refl M)).1 (dvd_refl M)

theorem checksum_le : checksum M ws ≤ M := Nat.sub_le M _

/-- The checksum is 0 where the other words are valid by themselves. -/
theorem checksum_eq_zero (hws : ∀ w ∈ ws, w ≤ M) : checksum M ws = 0 ↔ Valid M ws := by
  have hle := (carries_sum hws).le
  unfold checksum Valid
  omega

/-! ### Messages of bytes -/

/-- The words of two bytes, whose first byte has the weight `x` and whose second one has the weight `y`; an
odd message is filled up with a byte 0. -/
def words (x y : ℕ) : List UInt8 → List ℕ
  | [] => []
  | [b] => [x * b.toNat]
  | b :: c :: bs => (x * b.toNat + y * c.toNat) :: words x y bs

/-- The words in network byte order. -/
abbrev beWords : List UInt8 → List ℕ := words 256 1

/-- The words that a little-endian host reads. -/
abbrev leWords : List UInt8 → List ℕ := words 1 256

/-- The largest word of two bytes. -/
abbrev allOnes : ℕ := 65535

theorem words_le {x y : ℕ} (hM : x * 255 + y * 255 ≤ M) (bs : List UInt8) : ∀ w ∈ words x y bs, w ≤ M := by
  have hword : ∀ b c : UInt8, x * b.toNat + y * c.toNat ≤ M := fun b c => by
    have hb : x * b.toNat ≤ x * 255 := Nat.mul_le_mul_left x (Nat.le_of_lt_succ b.toNat_lt)
    have hc : y * c.toNat ≤ y * 255 := Nat.mul_le_mul_left y (Nat.le_of_lt_succ c.toNat_lt)
    omega
  induction bs using words.induct with
  | case1 => simp [words]
  | case2 b =>
    intro w hw
    obtain rfl := List.mem_singleton.1 hw
    have hb := hword b 0
    simpa using hb
  | case3 b c bs ih =>
    intro w hw
    rcases List.mem_cons.1 hw with rfl | hw
    · exact hword b c
    · exact ih w hw

theorem leWords_le (bs : List UInt8) : ∀ w ∈ leWords bs, w ≤ allOnes := words_le (by decide) bs

/-- The first bytes and the second bytes of the words add up by themselves. -/
theorem sum_words (bs : List UInt8) : ∃ n k, ∀ x y, (words x y bs).sum = x * n + y * k := by
  induction bs using words.induct with
  | case1 => exact ⟨0, 0, fun x y => by simp [words]⟩
  | case2 b => exact ⟨b.toNat, 0, fun x y => by simp [words]⟩
  | case3 b c bs ih =>
    obtain ⟨n, k, h⟩ := ih
    refine ⟨b.toNat + n, c.toNat + k, fun x y => ?_⟩
    rw [words, List.sum_cons, h x y]
    ring

/-- **Byte order.** A message is valid in network byte order if and only if it is valid as a little-endian host
reads it. -/
theorem valid_beWords (bs : List UInt8) : Valid allOnes (beWords bs) ↔ Valid allOnes (leWords bs) := by
  obtain ⟨n, k, h⟩ := sum_words bs
  rw [valid_iff (by decide) (words_le (by decide) bs), valid_iff (by decide) (leWords_le bs), h 256 1, h 1 256]
  unfold allOnes
  omega

/-! ### Machine words in memory -/

/-- The bytes of a word in the memory of a little-endian host. -/
def le16 (w : UInt16) : List UInt8 := [w.toUInt8, (w >>> 8).toUInt8]

def le32 (w : UInt32) : List UInt8 :=
  [w.toUInt8, (w >>> 8).toUInt8, (w >>> 16).toUInt8, (w >>> 24).toUInt8]

theorem leWords_two (b c : UInt8) (bs : List UInt8) :
    leWords (b :: c :: bs) = (b.toNat + 256 * c.toNat) :: leWords bs := by
  simp [words]

/-- The host reads the word again. -/
@[simp] theorem leWords_le16 (w : UInt16) (bs : List UInt8) :
    leWords (le16 w ++ bs) = w.toNat :: leWords bs := by
  have hw := w.toNat_lt
  have hword : w.toUInt8.toNat + 256 * (w >>> 8).toUInt8.toNat = w.toNat := by
    simp [Nat.shiftRight_eq_div_pow]
    omega
  unfold le16
  rw [List.cons_append, List.cons_append, leWords_two, hword]
  rfl

/-- A word of four bytes is two words. -/
@[simp] theorem leWords_le32 (w : UInt32) (bs : List UInt8) :
    leWords (le32 w ++ bs) = w.toNat % 65536 :: w.toNat / 65536 :: leWords bs := by
  have hw := w.toNat_lt
  have hlow : w.toUInt8.toNat + 256 * (w >>> 8).toUInt8.toNat = w.toNat % 65536 := by
    simp [Nat.shiftRight_eq_div_pow]
    omega
  have hhigh : (w >>> 16).toUInt8.toNat + 256 * (w >>> 24).toUInt8.toNat = w.toNat / 65536 := by
    simp [Nat.shiftRight_eq_div_pow]
    omega
  unfold le32
  rw [List.cons_append, List.cons_append, List.cons_append, List.cons_append, leWords_two, leWords_two, hlow,
    hhigh]
  rfl

end FlowQoS.Lib.Ones
