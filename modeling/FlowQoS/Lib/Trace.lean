import Mathlib.Logic.Relation
import Mathlib.Data.List.Basic

/-!
# Runs of a labelled transition system

`Trace R s es s'`: the system goes from `s` to `s'` by the events `es`, each of them a step of `R`.
A guard on the steps is part of `R`; a property of every state a run reaches is proved from what one
step preserves (`Trace.inv`, `Trace.inv_events`).
-/

namespace FlowQoS.Lib

variable {σ ε : Type*}

/-- A run of `R` from a state to a state, labelled by its events in order. -/
inductive Trace (R : σ → ε → σ → Prop) : σ → List ε → σ → Prop
  | nil (s : σ) : Trace R s [] s
  | cons {s s₁ s₂ : σ} {e : ε} {es : List ε} : R s e s₁ → Trace R s₁ es s₂ → Trace R s (e :: es) s₂

namespace Trace

variable {R : σ → ε → σ → Prop} {s s' s'' : σ} {es fs : List ε} {e : ε}

theorem single (h : R s e s') : Trace R s [e] s' := cons h (nil s')

theorem append (h : Trace R s es s') (h' : Trace R s' fs s'') : Trace R s (es ++ fs) s'' := by
  induction h with
  | nil => exact h'
  | cons hstep _ ih => exact cons hstep (ih h')

/-- **The invariant rule.** What every step preserves, every run preserves. -/
theorem inv {P : σ → Prop} (hstep : ∀ s e s', P s → R s e s' → P s') (h : Trace R s es s')
    (hs : P s) : P s' := by
  induction h with
  | nil => exact hs
  | cons h₁ _ ih => exact ih (hstep _ _ _ hs h₁)

/-- The invariant rule for a property of the state and of the events that led to it. -/
theorem inv_events {P : List ε → σ → Prop}
    (hstep : ∀ es s e s', P es s → R s e s' → P (es ++ [e]) s') (h : Trace R s es s')
    (hs : P [] s) : P es s' := by
  have key : ∀ {s es s'}, Trace R s es s' → ∀ pre : List ε, P pre s → P (pre ++ es) s' := by
    intro s es s' h
    induction h with
    | nil => intro pre hpre; simpa using hpre
    | @cons s s₁ s₂ e es h₁ _ ih =>
      intro pre hpre
      simpa using ih (pre ++ [e]) (hstep _ _ _ _ hpre h₁)
  simpa using key h [] hs

/-- A run of a step function. -/
theorem of_foldlM {step : σ → ε → Option σ} (h : es.foldlM step s = some s') :
    Trace (fun s e s' => step s e = some s') s es s' := by
  induction es generalizing s with
  | nil =>
    cases h
    exact nil _
  | cons e es ih =>
    rw [List.foldlM_cons] at h
    obtain ⟨s₁, h₁, h₂⟩ := Option.bind_eq_some_iff.1 h
    exact cons h₁ (ih h₂)

/-- The run that is seen of the states is a run. -/
theorem map {σ' : Type*} {R' : σ' → ε → σ' → Prop} (f : σ → σ') (hR : ∀ s e s', R s e s' → R' (f s) e (f s'))
    (h : Trace R s es s') : Trace R' (f s) es (f s') := by
  induction h with
  | nil => exact nil _
  | cons h₁ _ ih => exact cons (hR _ _ _ h₁) ih

theorem mono {R' : σ → ε → σ → Prop} (hR : ∀ s e s', R s e s' → R' s e s') (h : Trace R s es s') :
    Trace R' s es s' := by
  induction h with
  | nil => exact nil _
  | cons h₁ _ ih => exact cons (hR _ _ _ h₁) ih

end Trace

end FlowQoS.Lib
