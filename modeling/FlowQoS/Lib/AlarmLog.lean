import Mathlib.Data.List.Basic
import Mathlib.Data.Nat.Notation

/-!
# The history of a timer service

A log tells in order which timers were armed, with which deadline and period, which were stopped and which
were fired, each at a value of the clock. `armedIn` is what the log leaves of a timer. A log is kept
(`Kept`) where every timer that is fired is armed and due, and no deadline that lies behind is left.

* `Kept.stopped`: a timer that was stopped is armed again before it is fired;
* `Kept.on_time`: a timer that was armed is fired at its deadline, unless it is stopped or armed anew
  before.
-/

set_option linter.unusedSectionVars false

namespace FlowQoS.Lib

/-- What happens to a timer. -/
inductive AlarmEvent (τ : Type*) where
  | armed (t : τ) (deadline period : ℕ)
  | stopped (t : τ)
  | fired (t : τ) (clock : ℕ)
  deriving DecidableEq

variable {τ : Type*} [DecidableEq τ] {log pre mid post : List (AlarmEvent τ)} {e : AlarmEvent τ} {t : τ}
  {c d p now : ℕ}

namespace AlarmEvent

def timer : AlarmEvent τ → τ
  | armed t _ _ => t
  | stopped t => t
  | fired t _ => t

/-- What the event makes of the deadline and the period of its timer. -/
def after : AlarmEvent τ → Option (ℕ × ℕ) → Option (ℕ × ℕ)
  | armed _ d p, _ => some (d, p)
  | stopped _, _ => none
  | fired _ _, none => none
  | fired _ c, some (_, p) => if p = 0 then none else some (c + p, p)

/-- A timer that is off stays off unless it is armed. -/
theorem after_none (h : ∀ d p, e ≠ .armed t d p) (ht : e.timer = t) : e.after none = none := by
  cases e with
  | armed u d p =>
    subst ht
    exact absurd rfl (h d p)
  | stopped u => rfl
  | fired u c => rfl

end AlarmEvent

open AlarmEvent

/-- The deadline and the period with which the log leaves the timer armed. -/
def armedIn (log : List (AlarmEvent τ)) (t : τ) : Option (ℕ × ℕ) :=
  (log.filter fun e => e.timer = t).foldl (fun a e => e.after a) none

theorem armedIn_append (pre post : List (AlarmEvent τ)) (t : τ) : armedIn (pre ++ post) t =
    (post.filter fun e => e.timer = t).foldl (fun a e => e.after a) (armedIn pre t) := by
  unfold armedIn
  rw [List.filter_append, List.foldl_append]

theorem armedIn_concat (log : List (AlarmEvent τ)) (h : e.timer = t) :
    armedIn (log ++ [e]) t = e.after (armedIn log t) := by
  rw [armedIn_append]
  simp [h]

/-- Events of other timers. -/
theorem armedIn_of_ne (h : ∀ e ∈ mid, e.timer ≠ t) : armedIn (pre ++ mid) t = armedIn pre t := by
  rw [armedIn_append, List.filter_eq_nil_iff.2]
  · rfl
  · intro e he
    simpa using h e he

/-- A timer that was stopped is off until it is armed again. -/
theorem armedIn_stopped (h : ∀ d p, .armed t d p ∉ mid) : armedIn (pre ++ .stopped t :: mid) t = none := by
  have key : ∀ es : List (AlarmEvent τ), (∀ e ∈ es, e.timer = t ∧ ∀ d p, e ≠ .armed t d p) →
      es.foldl (fun a e => e.after a) none = none := by
    intro es hes
    induction es with
    | nil => rfl
    | cons e es ih =>
      obtain ⟨ht, hno⟩ := hes e List.mem_cons_self
      rw [List.foldl_cons, after_none hno ht]
      exact ih fun x hx => hes x (List.mem_cons_of_mem _ hx)
  rw [List.append_cons, armedIn_append, armedIn_concat pre (show (AlarmEvent.stopped t).timer = t from rfl)]
  refine key _ fun e he => ?_
  obtain ⟨hmem, ht⟩ := List.mem_filter.1 he
  refine ⟨by simpa using ht, fun d p heq => h d p ?_⟩
  rwa [← heq]

/-- Every timer that is fired is armed and due, and no deadline that lies behind is left. -/
structure Kept (log : List (AlarmEvent τ)) (now : ℕ) : Prop where
  due : ∀ pre t c post, log = pre ++ .fired t c :: post → ∃ p, armedIn pre t = some (c, p)
  ahead : ∀ t d p, armedIn log t = some (d, p) → now ≤ d

namespace Kept

/-- **A timer that was stopped** and has not been armed again is not fired. -/
theorem stopped (h : Kept log now) (hlog : log = pre ++ .stopped t :: mid ++ .fired t c :: post) :
    ∃ d p, .armed t d p ∈ mid := by
  obtain ⟨p, hp⟩ := h.due _ _ _ _ hlog
  by_contra hno
  rw [armedIn_stopped fun d p hm => hno ⟨d, p, hm⟩] at hp
  cases hp

/-- **A timer that was armed** with a deadline that lies behind has not been left alone: it was fired at that
deadline, or stopped or armed anew before. -/
theorem on_time (h : Kept log now) (hlog : log = pre ++ .armed t d p :: post) (hd : d < now) :
    ∃ mid e rest, post = mid ++ e :: rest ∧ (∀ x ∈ mid, x.timer ≠ t) ∧ e.timer = t ∧
      ∀ c, e = .fired t c → c = d := by
  rw [List.append_cons] at hlog
  have harmed : armedIn (pre ++ [.armed t d p]) t = some (d, p) := armedIn_concat pre rfl
  cases hfind : post.find? fun e => e.timer = t with
  | none =>
    -- the timer would still be armed, for a deadline that lies behind
    have hno : ∀ e ∈ post, e.timer ≠ t := by simpa using hfind
    have := h.ahead t d p (by rw [hlog, armedIn_of_ne hno, harmed])
    exact absurd hd (Nat.not_lt.2 this)
  | some e =>
    obtain ⟨ht, mid, rest, rfl, hmid⟩ := List.find?_eq_some_iff_append.1 hfind
    have hmid' : ∀ x ∈ mid, x.timer ≠ t := by simpa using hmid
    refine ⟨mid, e, rest, rfl, hmid', by simpa using ht, ?_⟩
    rintro c rfl
    rw [← List.append_assoc] at hlog
    obtain ⟨p', hp'⟩ := h.due _ _ _ _ hlog
    rw [armedIn_of_ne hmid', harmed] at hp'
    cases hp'
    rfl

end Kept

end FlowQoS.Lib
