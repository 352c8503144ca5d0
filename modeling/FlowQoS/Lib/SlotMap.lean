import Mathlib.Data.List.Induction
import Mathlib.Logic.Function.Basic

/-!
# Maps in slots

A map from keys to values is kept in slots that several keys share, and a slot holds what the last
operation on one of its keys has left there. `lastPut` is the map the operations describe, `lastOp` what
the slots know of it. Reading a slot without looking at the key agrees with the map exactly where the last
operation on the slot was on the key itself, or left a value that the key has too (`reads_iff`).
-/

namespace FlowQoS.Lib

/-- An operation on a map. -/
inductive MapOp (K V : Type*) where
  | put (k : K) (v : V)
  | del (k : K)

variable {K V S : Type*}

def MapOp.key : MapOp K V → K
  | .put k _ => k
  | .del k => k

/-- What an operation leaves for its key. -/
def MapOp.value : MapOp K V → Option V
  | .put _ v => some v
  | .del _ => none

/-- The last operation on a key of a slot. -/
def lastOp [DecidableEq S] (slot : K → S) (ops : List (MapOp K V)) (s : S) : Option (MapOp K V) :=
  (ops.filter fun op => slot op.key = s).getLast?

/-- The value of the latest put of a key, if no later deletion takes it out. -/
def lastPut [DecidableEq K] (ops : List (MapOp K V)) (k : K) : Option V :=
  (lastOp id ops k).bind MapOp.value

section

variable [DecidableEq S] {slot : K → S} {ops : List (MapOp K V)} {op : MapOp K V} {s : S}

/-- One more operation is the last one on its slot, and changes no other slot. -/
theorem lastOp_concat (slot : K → S) (ops : List (MapOp K V)) (op : MapOp K V) (s : S) :
    lastOp slot (ops ++ [op]) s = if slot op.key = s then some op else lastOp slot ops s := by
  unfold lastOp
  rw [List.filter_append]
  by_cases h : slot op.key = s
  · simp [h]
  · simp [h]

theorem lastOp_slot (h : lastOp slot ops s = some op) : slot op.key = s := by
  have hmem := List.mem_of_getLast? h
  rw [List.mem_filter] at hmem
  exact of_decide_eq_true hmem.2

/-- The last operation on a slot is the last one on its key. -/
theorem lastOp_key [DecidableEq K] : ∀ {ops : List (MapOp K V)}, lastOp slot ops s = some op →
    lastOp id ops op.key = some op := by
  intro ops
  induction ops using List.reverseRecOn with
  | nil =>
    intro h
    cases h
  | append_singleton ops op' ih =>
    intro h
    rw [lastOp_concat] at h ⊢
    split at h
    · cases h
      exact if_pos rfl
    · next hne =>
      have hkey : id op'.key ≠ op.key := by
        intro heq
        apply hne
        rw [← lastOp_slot h]
        exact congrArg slot heq
      rw [if_neg hkey]
      exact ih h

/-- **Reading a slot.** A reader that gives the value of the last put into the slot of a key, if its key
counts as present, agrees with the map exactly if that put was of the key or left a value it has. -/
theorem reads_iff [DecidableEq K] {present : K → Prop} {k : K} :
    (∀ q v, lastOp slot ops (slot k) = some (.put q v) → present q → lastPut ops k = some v) ↔
    ∀ q v, lastOp slot ops (slot k) = some (.put q v) → present q → q = k ∨ lastPut ops k = some v := by
  constructor
  · exact fun h q v hlast hq => .inr (h q v hlast hq)
  · intro h q v hlast hq
    rcases h q v hlast hq with rfl | hput
    · unfold lastPut
      have hkey := lastOp_key hlast
      change lastOp id ops q = _ at hkey
      rw [hkey]
      rfl
    · exact hput

end

end FlowQoS.Lib
