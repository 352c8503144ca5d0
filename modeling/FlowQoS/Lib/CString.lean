import Mathlib.Data.List.Basic

/-!
# Strings in memory

A memory of characters, and strings in it that end at the first terminator: `sprintf` writes a text and
its terminator, `cstr` reads one back, `strcat` writes a text where another one ends. `Holds m a t` says
that a memory has the text `t` at an address; a write elsewhere leaves it there (`Holds.congr`), and a
`strcat` appends (`Holds.strcat`).
-/

namespace FlowQoS.Lib

abbrev Mem := ℕ → Char

/-- The terminator. -/
def nul : Char := Char.ofNat 0

/-- Characters written from an address on. -/
def store (m : Mem) (a : ℕ) (xs : List Char) : Mem :=
  fun b => if h : a ≤ b ∧ b < a + xs.length then xs[b - a] else m b

/-- `sprintf(a, "%s", text)`. -/
def sprintf (m : Mem) (a : ℕ) (text : List Char) : Mem := store m a (text ++ [nul])

/-- The string at an address, of `n` characters at most. -/
def cstr (m : Mem) : ℕ → ℕ → List Char
  | 0, _ => []
  | n + 1, a => if m a = nul then [] else m a :: cstr m n (a + 1)

/-- `strcat(a, text)`, in a memory of `n` characters. -/
def strcat (m : Mem) (n a : ℕ) (text : List Char) : Mem := sprintf m (a + (cstr m n a).length) text

/-- The string at an address. -/
structure Holds (m : Mem) (a : ℕ) (t : List Char) : Prop where
  text : ∀ i (h : i < t.length), m (a + i) = t[i]
  stop : m (a + t.length) = nul
  clean : nul ∉ t

variable {m m' : Mem} {a b n : ℕ} {t u : List Char}

theorem store_frame {xs : List Char} (h : b < a ∨ a + xs.length ≤ b) : store m a xs b = m b := by
  unfold store
  rw [dif_neg (by omega)]

theorem store_get {xs : List Char} {i : ℕ} (h : i < xs.length) : store m a xs (a + i) = xs[i] := by
  unfold store
  rw [dif_pos (by omega)]
  simp

theorem sprintf_frame (h : b < a ∨ a + t.length < b) : sprintf m a t b = m b := by
  refine store_frame ?_
  rw [List.length_append, List.length_singleton]
  omega

theorem sprintf_holds (h : nul ∉ t) : Holds (sprintf m a t) a t := by
  refine ⟨fun i hi => ?_, ?_, h⟩
  · unfold sprintf
    rw [store_get (by rw [List.length_append]; omega), List.getElem_append_left hi]
  · unfold sprintf
    rw [store_get (by rw [List.length_append]; exact Nat.lt_succ_self _)]
    simp

theorem Holds.congr (h : Holds m a t) (hsame : ∀ b, a ≤ b → b ≤ a + t.length → m' b = m b) :
    Holds m' a t := by
  refine ⟨fun i hi => ?_, ?_, h.clean⟩
  · rw [hsame _ (by omega) (by omega), h.text i hi]
  · rw [hsame _ (by omega) (by omega), h.stop]

theorem Holds.cstr (h : Holds m a t) (hn : t.length < n) : cstr m n a = t := by
  induction t generalizing a n with
  | nil =>
    obtain ⟨n, rfl⟩ := Nat.exists_eq_add_of_lt hn
    have hstop : m a = nul := h.stop
    simp [Lib.cstr, hstop]
  | cons c t ih =>
    obtain ⟨n, rfl⟩ : ∃ k, n = k + 1 := ⟨n - 1, by omega⟩
    have hfirst : m a = c := h.text 0 (Nat.succ_pos _)
    have hne : c ≠ nul := fun hc => h.clean (hc ▸ List.mem_cons_self)
    have hrest : Holds m (a + 1) t := by
      refine ⟨fun i hi => ?_, ?_, fun hc => h.clean (List.mem_cons_of_mem _ hc)⟩
      · rw [Nat.add_assoc, Nat.add_comm 1 i]
        exact h.text (i + 1) (Nat.succ_lt_succ hi)
      · rw [Nat.add_assoc, Nat.add_comm 1]
        exact h.stop
    rw [Lib.cstr, hfirst, if_neg hne, ih hrest (by rw [List.length_cons] at hn; omega)]

theorem Holds.eq_nul_iff (h : Holds m a t) : m a = nul ↔ t = [] := by
  cases t with
  | nil => exact ⟨fun _ => rfl, fun _ => h.stop⟩
  | cons c t =>
    have hfirst : m a = c := h.text 0 (Nat.succ_pos _)
    rw [hfirst]
    refine ⟨fun hc => ?_, nofun⟩
    exact absurd (hc ▸ List.mem_cons_self) h.clean

theorem Holds.strcat_eq (h : Holds m a t) (hn : t.length < n) :
    strcat m n a u = sprintf m (a + t.length) u := by
  unfold Lib.strcat
  rw [h.cstr hn]

/-- **A string grows at its end.** -/
theorem Holds.strcat (h : Holds m a t) (hu : nul ∉ u) (hn : t.length < n) :
    Holds (strcat m n a u) a (t ++ u) := by
  have hat : Lib.strcat m n a u = sprintf m (a + t.length) u := h.strcat_eq hn
  have hnew : Holds (sprintf m (a + t.length) u) (a + t.length) u := sprintf_holds hu
  rw [hat]
  refine ⟨fun i hi => ?_, ?_, ?_⟩
  · by_cases hit : i < t.length
    · rw [sprintf_frame (by omega), List.getElem_append_left hit, h.text i hit]
    · rw [List.getElem_append_right (by omega), ← hnew.text]
      congr 1
      omega
  · rw [List.length_append, ← Nat.add_assoc]
    exact hnew.stop
  · rw [List.mem_append]
    exact fun hc => hc.elim h.clean hu

end FlowQoS.Lib
