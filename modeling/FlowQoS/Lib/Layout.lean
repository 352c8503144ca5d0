import Mathlib.Algebra.Group.Nat.Defs
import Mathlib.Data.List.Basic
import Mathlib.Data.Nat.Notation
import Mathlib.Tactic.Ring

/-!
# Places in a memory of bytes

A codec says how a value is kept in bytes; a place is a codec at an address. What is put into a place is read
again there (`Place.get_put`), and changes no place apart from it (`Place.get_put_of_apart`).

The codecs are those of unsigned numbers, of which the bytes come from the lowest one up (`uint`) or from the
highest one down (`network`).
-/

namespace FlowQoS.Lib

abbrev Bytes := ℕ → UInt8

namespace Bytes

/-- The bytes from an address on. -/
def read (m : Bytes) (a n : ℕ) : List UInt8 := (List.range n).map fun i => m (a + i)

/-- Bytes written from an address on. -/
def write (m : Bytes) (a : ℕ) (xs : List UInt8) : Bytes :=
  fun b => if h : a ≤ b ∧ b < a + xs.length then xs[b - a] else m b

variable {m : Bytes} {a b n : ℕ} {xs : List UInt8}

theorem read_write_self : (m.write a xs).read a xs.length = xs := by
  apply List.ext_getElem
  · simp [read]
  · intro i hi hi'
    simp only [read, List.getElem_map, List.getElem_range, write]
    rw [dif_pos (by omega)]
    simp

theorem read_write_of_apart (h : b + n ≤ a ∨ a + xs.length ≤ b) : (m.write a xs).read b n = m.read b n := by
  unfold read
  apply List.map_congr_left
  intro i hi
  have hin := List.mem_range.1 hi
  unfold write
  rw [dif_neg (by omega)]

end Bytes

/-! ### Numbers in bytes -/

/-- The `n` lowest bytes of a number, the lowest one first. -/
def bytesOf : ℕ → ℕ → List UInt8
  | 0, _ => []
  | n + 1, k => UInt8.ofNat k :: bytesOf n (k / 256)

def ofBytes : List UInt8 → ℕ
  | [] => 0
  | b :: bs => b.toNat + 256 * ofBytes bs

theorem length_bytesOf (n k : ℕ) : (bytesOf n k).length = n := by
  induction n generalizing k with
  | zero => rfl
  | succ n ih => rw [bytesOf, List.length_cons, ih]

theorem ofBytes_bytesOf (n k : ℕ) : ofBytes (bytesOf n k) = k % 256 ^ n := by
  induction n generalizing k with
  | zero => rw [Nat.pow_zero, Nat.mod_one]; rfl
  | succ n ih =>
    rw [bytesOf, ofBytes, ih, Nat.pow_succ', Nat.mod_mul]
    simp

/-! ### Codecs and places -/

/-- How a value is kept in bytes. -/
structure Codec (α : Type*) where
  size : ℕ
  enc : α → List UInt8
  dec : List UInt8 → α
  length_enc : ∀ v, (enc v).length = size
  dec_enc : ∀ v, dec (enc v) = v

/-- A number with the lowest byte first. -/
def Codec.uint {α : Type*} (n : ℕ) (toNat : α → ℕ) (ofNat : ℕ → α)
    (h : ∀ v, ofNat (toNat v % 256 ^ n) = v) : Codec α where
  size := n
  enc v := bytesOf n (toNat v)
  dec bs := ofNat (ofBytes bs)
  length_enc v := length_bytesOf n (toNat v)
  dec_enc v := by rw [ofBytes_bytesOf, h]

/-- A number with the highest byte first. -/
def Codec.network {α : Type*} (n : ℕ) (toNat : α → ℕ) (ofNat : ℕ → α)
    (h : ∀ v, ofNat (toNat v % 256 ^ n) = v) : Codec α where
  size := n
  enc v := (bytesOf n (toNat v)).reverse
  dec bs := ofNat (ofBytes bs.reverse)
  length_enc v := by rw [List.length_reverse, length_bytesOf]
  dec_enc v := by rw [List.reverse_reverse, ofBytes_bytesOf, h]

def Codec.u8 : Codec UInt8 := .uint 1 UInt8.toNat UInt8.ofNat fun v => by simp

theorem ofNat_toNat_u16 (v : UInt16) : UInt16.ofNat (v.toNat % 256 ^ 2) = v := by simp

def Codec.u16 : Codec UInt16 := .uint 2 UInt16.toNat UInt16.ofNat ofNat_toNat_u16

def Codec.u32 : Codec UInt32 := .uint 4 UInt32.toNat UInt32.ofNat fun v => by simp

/-- A value at an address. -/
structure Place (α : Type*) where
  codec : Codec α
  off : ℕ

namespace Place

variable {α β : Type*} {m : Bytes}

def get (f : Place α) (m : Bytes) : α := f.codec.dec (m.read f.off f.codec.size)

def put (f : Place α) (m : Bytes) (v : α) : Bytes := m.write f.off (f.codec.enc v)

/-- The two places have no byte in common. -/
def Apart (f : Place α) (g : Place β) : Prop :=
  f.off + f.codec.size ≤ g.off ∨ g.off + g.codec.size ≤ f.off

instance (f : Place α) (g : Place β) : Decidable (f.Apart g) := inferInstanceAs (Decidable (_ ∨ _))

@[simp] theorem get_put (f : Place α) (v : α) : f.get (f.put m v) = v := by
  unfold get put
  rw [← f.codec.length_enc v, Bytes.read_write_self, f.codec.dec_enc]

theorem get_put_of_apart {f : Place α} {g : Place β} (h : f.Apart g) (v : β) :
    f.get (g.put m v) = f.get m := by
  unfold get put
  rw [Bytes.read_write_of_apart]
  rw [g.codec.length_enc]
  exact h

end Place

end FlowQoS.Lib
