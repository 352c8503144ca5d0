import Mathlib.Data.List.Nodup
import Mathlib.Logic.Function.Basic

/-!
# Intrusive doubly linked rings

A family of circular doubly linked lists whose links live in the elements: every ring has a
sentinel `head b`, every element `elem t` carries a `prev` and a `next` link that are null while it
is on no ring. `Holds L l` says that the links `L` represent the lists `l b`.

* `append` puts an element before the sentinel, `unlink` takes an element out of the ring it is on;
* `Holds.append`, `Holds.unlink`: what they do to the lists;
* `Holds.next_head`, `Holds.next_elem`: what a walk along `next` sees.
-/

namespace FlowQoS.Lib

/-- A node of a family of rings: the sentinel of a ring, or an element. -/
inductive Node (β τ : Type*) where
  | head (b : β)
  | elem (t : τ)
  deriving DecidableEq

/-- The links of all the nodes; `none` is the null pointer. -/
structure Links (β τ : Type*) where
  prev : Node β τ → Option (Node β τ)
  next : Node β τ → Option (Node β τ)

variable {β τ : Type*}

namespace Links

/-- No element is on a ring: a sentinel points at itself, an element at nothing. -/
def empty : Links β τ where
  prev | .head b => some (.head b) | .elem _ => none
  next | .head b => some (.head b) | .elem _ => none

section Ops

variable [DecidableEq β] [DecidableEq τ] (L : Links β τ)

def setPrev (x : Node β τ) (y : Option (Node β τ)) : Links β τ :=
  { L with prev := fun z => if z = x then y else L.prev z }

def setNext (x : Node β τ) (y : Option (Node β τ)) : Links β τ :=
  { L with next := fun z => if z = x then y else L.next z }

/-- Both links of the element are set. -/
def Linked (t : τ) : Prop := (L.prev (.elem t)).isSome ∧ (L.next (.elem t)).isSome

instance (t : τ) : Decidable (L.Linked t) := by unfold Linked; infer_instance

/-- Takes `t` out of the ring it is on; an element with a null link is left alone. -/
def unlink (t : τ) : Links β τ :=
  match L.prev (.elem t), L.next (.elem t) with
  | some p, some n =>
    (((L.setNext p (some n)).setPrev n (some p)).setPrev (.elem t) none).setNext (.elem t) none
  | _, _ => L

/-- Puts `t` before the sentinel of the ring `b`; `none` when the sentinel's `prev` is null. -/
def append (b : β) (t : τ) : Option (Links β τ) :=
  match L.prev (.head b) with
  | none => none
  | some p =>
    some ((((L.setPrev (.elem t) (some p)).setNext (.elem t) (some (.head b))).setNext p
      (some (.elem t))).setPrev (.head b) (some (.elem t)))

end Ops

/-! ### Paths -/

/-- From `a` the links lead, both ways, through the elements `l` to `b`. -/
def Path (L : Links β τ) (a : Node β τ) : List τ → Node β τ → Prop
  | [], b => L.next a = some b ∧ L.prev b = some a
  | t :: l, b => (L.next a = some (.elem t) ∧ L.prev (.elem t) = some a) ∧ Path L (.elem t) l b

/-- The node before the end of a path. -/
def lastOf (a : Node β τ) : List τ → Node β τ
  | [] => a
  | t :: l => lastOf (.elem t) l

/-- The node after the start of a path. -/
def firstOf (b : Node β τ) : List τ → Node β τ
  | [] => b
  | t :: _ => .elem t

theorem lastOf_eq (a : Node β τ) (l : List τ) : lastOf a l = a ∨ ∃ t ∈ l, lastOf a l = .elem t := by
  induction l generalizing a with
  | nil => exact .inl rfl
  | cons t l ih =>
    right
    rcases ih (.elem t) with h | ⟨u, hu, h⟩
    · exact ⟨t, by simp, h⟩
    · exact ⟨u, by simp [hu], h⟩

theorem firstOf_eq (b : Node β τ) (l : List τ) : firstOf b l = b ∨ ∃ t ∈ l, firstOf b l = .elem t := by
  cases l with
  | nil => exact .inl rfl
  | cons t l => exact .inr ⟨t, by simp, rfl⟩

theorem head_eq_lastOf {b b' : β} {l : List τ} (h : Node.head b' = lastOf (.head b) l) : b' = b := by
  rcases lastOf_eq (.head b) l with e | ⟨u, -, e⟩ <;> rw [e] at h <;> cases h
  rfl

theorem elem_eq_lastOf {b : β} {u : τ} {l : List τ} (h : Node.elem u = lastOf (.head b) l) : u ∈ l := by
  rcases lastOf_eq (.head b) l with e | ⟨v, hv, e⟩ <;> rw [e] at h <;> cases h
  exact hv

theorem head_eq_firstOf {b b' : β} {l : List τ} (h : Node.head b' = firstOf (.head b) l) : b' = b := by
  rcases firstOf_eq (.head b) l with e | ⟨u, -, e⟩ <;> rw [e] at h <;> cases h
  rfl

theorem elem_eq_firstOf {b : β} {u : τ} {l : List τ} (h : Node.elem u = firstOf (.head b) l) :
    u ∈ l := by
  rcases firstOf_eq (.head b) l with e | ⟨v, hv, e⟩ <;> rw [e] at h <;> cases h
  exact hv

variable {L L' : Links β τ} {a b : Node β τ} {l l₁ l₂ : List τ} {t : τ}

theorem Path.congr (hn : L'.next a = L.next a) (hp : L'.prev b = L.prev b)
    (hnl : ∀ t ∈ l, L'.next (.elem t) = L.next (.elem t))
    (hpl : ∀ t ∈ l, L'.prev (.elem t) = L.prev (.elem t)) (h : Path L a l b) : Path L' a l b := by
  induction l generalizing a with
  | nil => exact ⟨hn.trans h.1, hp.trans h.2⟩
  | cons t l ih =>
    obtain ⟨⟨h1, h2⟩, h3⟩ := h
    refine ⟨⟨hn.trans h1, (hpl t (by simp)).trans h2⟩, ?_⟩
    exact ih (hnl t (by simp)) (fun u hu => hnl u (by simp [hu])) (fun u hu => hpl u (by simp [hu])) h3

theorem path_append : Path L a (l₁ ++ t :: l₂) b ↔ Path L a l₁ (.elem t) ∧ Path L (.elem t) l₂ b := by
  induction l₁ generalizing a with
  | nil => simp [Path]
  | cons u l₁ ih => simp [Path, ih, and_assoc]

theorem Path.next_eq (h : Path L a l b) : L.next a = some (firstOf b l) := by
  cases l with
  | nil => exact h.1
  | cons t l => exact h.1.1

theorem Path.prev_eq (h : Path L a l b) : L.prev b = some (lastOf a l) := by
  induction l generalizing a with
  | nil => exact h.2
  | cons t l ih => exact ih h.2

theorem lastOf_ne (ha : ∀ u ∈ t :: l, a ≠ .elem u) : a ≠ lastOf (.elem t) l := by
  rcases lastOf_eq (.elem t) l with h | ⟨u, hu, h⟩
  · rw [h]; exact ha t (by simp)
  · rw [h]; exact ha u (by simp [hu])

/-- A path whose last link is redirected to another end. -/
theorem Path.retarget {c : Node β τ} (h : Path L a l b) (hnd : l.Nodup) (ha : ∀ t ∈ l, a ≠ .elem t)
    (hn : ∀ z, z ≠ lastOf a l → (z = a ∨ ∃ t ∈ l, z = .elem t) → L'.next z = L.next z)
    (hp : ∀ t ∈ l, L'.prev (.elem t) = L.prev (.elem t))
    (hlast : L'.next (lastOf a l) = some c) (hc : L'.prev c = some (lastOf a l)) : Path L' a l c := by
  induction l generalizing a with
  | nil => exact ⟨hlast, hc⟩
  | cons t l ih =>
    obtain ⟨⟨h1, h2⟩, h3⟩ := h
    obtain ⟨htl, hnd⟩ := List.nodup_cons.1 hnd
    refine ⟨⟨?_, (hp t (by simp)).trans h2⟩, ?_⟩
    · rw [hn a (lastOf_ne ha) (.inl rfl), h1]
    · refine ih h3 hnd (fun u hu => ?_) (fun z hz hzl => hn z hz ?_) (fun u hu => hp u (by simp [hu]))
        hlast hc
      · rintro h; cases h; exact htl hu
      · rcases hzl with rfl | ⟨u, hu, rfl⟩
        · exact .inr ⟨t, by simp, rfl⟩
        · exact .inr ⟨u, by simp [hu], rfl⟩

/-! ### Links that represent a family of lists -/

/-- The links `L` represent the lists `l b`: a ring for each sentinel, no element on two rings, and
null links in the elements on none. -/
structure Holds (L : Links β τ) (l : β → List τ) : Prop where
  path : ∀ b, L.Path (.head b) (l b) (.head b)
  nodup : ∀ b, (l b).Nodup
  disj : ∀ {b b' t}, t ∈ l b → t ∈ l b' → b = b'
  free : ∀ {t}, (∀ b, t ∉ l b) → L.prev (.elem t) = none ∧ L.next (.elem t) = none

theorem holds_empty : Holds (empty : Links β τ) fun _ => [] where
  path _ := ⟨rfl, rfl⟩
  nodup _ := List.nodup_nil
  disj h := absurd h List.not_mem_nil
  free _ := ⟨rfl, rfl⟩

namespace Holds

variable {l : β → List τ} {b : β}

/-- The walk along `next` starts with the first element. -/
theorem next_head (h : Holds L l) (b : β) : L.next (.head b) = some (firstOf (.head b) (l b)) :=
  (h.path b).next_eq

theorem prev_head (h : Holds L l) (b : β) : L.prev (.head b) = some (lastOf (.head b) (l b)) :=
  (h.path b).prev_eq

/-- The walk along `next` goes on with the element behind. -/
theorem next_elem (h : Holds L l) (l₁ : List τ) (hb : l b = l₁ ++ t :: l₂) :
    L.next (.elem t) = some (firstOf (.head b) l₂) := by
  have := h.path b
  rw [hb, path_append] at this
  exact this.2.next_eq

theorem prev_elem (h : Holds L l) (l₁ : List τ) (hb : l b = l₁ ++ t :: l₂) :
    L.prev (.elem t) = some (lastOf (.head b) l₁) := by
  have := h.path b
  rw [hb, path_append] at this
  exact this.1.prev_eq

/-- An element has both links set exactly when it is on a ring. -/
theorem linked_iff (h : Holds L l) : L.Linked t ↔ ∃ b, t ∈ l b := by
  constructor
  · intro hl
    by_contra hno
    push Not at hno
    simp [Linked, h.free hno] at hl
  · rintro ⟨b, hb⟩
    obtain ⟨l₁, l₂, hl⟩ := List.append_of_mem hb
    simp [Linked, h.next_elem l₁ hl, h.prev_elem l₁ hl]

variable [DecidableEq β] [DecidableEq τ]

/-- `unlink` on an element that is on no ring does nothing. -/
theorem unlink_free (h : Holds L l) (ht : ∀ b, t ∉ l b) : L.unlink t = L := by
  simp [unlink, h.free ht]

/-- The links after `unlink`, for an element between `p` and `n`. -/
theorem unlink_links {p n : Node β τ} (hp : L.prev (.elem t) = some p)
    (hn : L.next (.elem t) = some n) :
    (∀ z, (L.unlink t).next z =
      if z = .elem t then none else if z = p then some n else L.next z) ∧
    (∀ z, (L.unlink t).prev z =
      if z = .elem t then none else if z = n then some p else L.prev z) := by
  simp [Links.unlink, hp, hn, setNext, setPrev]

/-- The ring of the element that `unlink` takes out. -/
theorem path_unlink {p n : Node β τ} (h : L.Path (.head b) (l₁ ++ t :: l₂) (.head b))
    (hnd : (l₁ ++ t :: l₂).Nodup) (hp : p = lastOf (.head b) l₁) (hn : n = firstOf (.head b) l₂)
    (hnx : ∀ z, (L.unlink t).next z =
      if z = .elem t then none else if z = p then some n else L.next z)
    (hpv : ∀ z, (L.unlink t).prev z =
      if z = .elem t then none else if z = n then some p else L.prev z) :
    (L.unlink t).Path (.head b) (l₁ ++ l₂) (.head b) := by
  subst hp hn
  obtain ⟨hnd₁, hnd₂, hdisj⟩ := List.nodup_append.1 hnd
  obtain ⟨ht₂, hnd₂⟩ := List.nodup_cons.1 hnd₂
  have ht₁ : t ∉ l₁ := fun hm => hdisj t hm t (by simp) rfl
  obtain ⟨h₁, h₂⟩ := path_append.1 h
  have hnext : ∀ z, z ≠ lastOf (.head b) l₁ → z ≠ .elem t → (L.unlink t).next z = L.next z :=
    fun z h1 h2 => by rw [hnx, if_neg h2, if_neg h1]
  have hprev : ∀ z, z ≠ firstOf (.head b) l₂ → z ≠ .elem t → (L.unlink t).prev z = L.prev z :=
    fun z h1 h2 => by rw [hpv, if_neg h2, if_neg h1]
  have ne_t : ∀ u, u ≠ t → (Node.elem u : Node β τ) ≠ .elem t := fun u hu e => hu (by cases e; rfl)
  -- the part before `t` now leads to the node behind `t`
  have h₁' : (L.unlink t).Path (.head b) l₁ (firstOf (.head b) l₂) := by
    refine h₁.retarget hnd₁ (by simp) (fun z hz hzl => hnext z hz ?_) (fun u hu => ?_) ?_ ?_
    · rcases hzl with rfl | ⟨u, hu, rfl⟩
      · simp
      · exact ne_t u (by rintro rfl; exact ht₁ hu)
    · refine hprev _ (fun e => hdisj u hu u ?_ rfl) (ne_t u (by rintro rfl; exact ht₁ hu))
      exact List.mem_cons_of_mem _ (elem_eq_firstOf e)
    · rw [hnx, if_neg fun e => ht₁ (elem_eq_lastOf e.symm), if_pos rfl]
    · rw [hpv, if_neg fun e => ht₂ (elem_eq_firstOf e.symm), if_pos rfl]
  cases l₂ with
  | nil => rw [List.append_nil]; exact h₁'
  | cons u l₂ =>
    have hu : u ∉ l₂ := (List.nodup_cons.1 hnd₂).1
    have hlast : ∀ v ∈ u :: l₂, (Node.elem v : Node β τ) ≠ lastOf (.head b) l₁ := fun v hv e =>
      hdisj v (elem_eq_lastOf e) v (by simp [hv]) rfl
    have hne : ∀ v ∈ u :: l₂, v ≠ t := by rintro v hv rfl; exact ht₂ hv
    refine path_append.2 ⟨h₁', h₂.2.congr ?_ ?_ (fun v hv => ?_) (fun v hv => ?_)⟩
    · exact hnext _ (hlast u (by simp)) (ne_t u (hne u (by simp)))
    · exact hprev _ (by simp [firstOf]) (by simp)
    · exact hnext _ (hlast v (by simp [hv])) (ne_t v (hne v (by simp [hv])))
    · exact hprev _ (by rintro e; cases e; exact hu hv) (ne_t v (hne v (by simp [hv])))

/-- Taking an element out of its ring takes it out of the list. -/
theorem unlink_mem (h : Holds L l) (hb : l b = l₁ ++ t :: l₂) :
    Holds (L.unlink t) (Function.update l b (l₁ ++ l₂)) := by
  obtain ⟨hnx, hpv⟩ := unlink_links (h.prev_elem l₁ hb) (h.next_elem l₁ hb)
  have hnd : (l₁ ++ t :: l₂).Nodup := hb ▸ h.nodup b
  -- an element off the ring of `t` is none of its neighbours
  have hoff : ∀ u, u ∉ l b → (Node.elem u : Node β τ) ≠ .elem t ∧
      (Node.elem u : Node β τ) ≠ lastOf (.head b) l₁ ∧
      (Node.elem u : Node β τ) ≠ firstOf (.head b) l₂ := by
    intro u hu
    rw [hb] at hu
    refine ⟨fun e => hu (by cases e; simp), fun e => hu ?_, fun e => hu ?_⟩
    · simp [elem_eq_lastOf e]
    · simp [elem_eq_firstOf e]
  have hsub : ∀ {b' u}, u ∈ Function.update l b (l₁ ++ l₂) b' → u ∈ l b' := by
    intro b' u hu
    by_cases hbb : b' = b
    · subst hbb
      rw [Function.update_self] at hu
      rw [hb]
      rcases List.mem_append.1 hu with hu | hu <;> simp [hu]
    · rwa [Function.update_of_ne hbb] at hu
  refine ⟨fun b' => ?_, fun b' => ?_, fun hu hu' => h.disj (hsub hu) (hsub hu'), fun {u} hu => ?_⟩
  · by_cases hbb : b' = b
    · subst hbb
      rw [Function.update_self]
      exact path_unlink (hb ▸ h.path b') hnd rfl rfl hnx hpv
    · rw [Function.update_of_ne hbb]
      have hub : ∀ u ∈ l b', u ∉ l b := fun u hu hu' => hbb (h.disj hu hu')
      refine (h.path b').congr ?_ ?_ (fun u hu => ?_) (fun u hu => ?_)
      · rw [hnx, if_neg (by simp), if_neg fun e => hbb (head_eq_lastOf e)]
      · rw [hpv, if_neg (by simp), if_neg fun e => hbb (head_eq_firstOf e)]
      · rw [hnx, if_neg (hoff u (hub u hu)).1, if_neg (hoff u (hub u hu)).2.1]
      · rw [hpv, if_neg (hoff u (hub u hu)).1, if_neg (hoff u (hub u hu)).2.2]
  · by_cases hbb : b' = b
    · subst hbb
      rw [Function.update_self]
      exact (List.nodup_middle.1 hnd).of_cons
    · rw [Function.update_of_ne hbb]; exact h.nodup b'
  · by_cases hut : u = t
    · subst hut
      rw [hnx, hpv, if_pos rfl, if_pos rfl]
      exact ⟨rfl, rfl⟩
    · have hfree : ∀ b', u ∉ l b' := by
        intro b' hm
        have := hu b'
        by_cases hbb : b' = b
        · subst hbb
          rw [Function.update_self] at this
          rw [hb] at hm
          simp_all
        · rw [Function.update_of_ne hbb] at this
          exact this hm
      obtain ⟨h1, h2, h3⟩ := hoff u (hfree b)
      rw [hnx, hpv, if_neg h1, if_neg h1, if_neg h2, if_neg h3]
      exact h.free hfree

/-- **`unlink` erases the element**, wherever it is. -/
theorem unlink (h : Holds L l) (t : τ) : Holds (L.unlink t) fun b => (l b).erase t := by
  by_cases ht : ∃ b, t ∈ l b
  · obtain ⟨b, hb⟩ := ht
    obtain ⟨l₁, l₂, hl⟩ := List.append_of_mem hb
    have ht₁ : t ∉ l₁ := fun hm => by
      have := h.nodup b
      rw [hl] at this
      exact (List.nodup_append.1 this).2.2 t hm t (by simp) rfl
    have heq : (fun b => (l b).erase t) = Function.update l b (l₁ ++ l₂) := by
      funext b'
      by_cases hbb : b' = b
      · subst hbb
        rw [Function.update_self, hl, List.erase_append_right _ ht₁, List.erase_cons_head]
      · rw [Function.update_of_ne hbb]
        exact List.erase_of_not_mem fun hm => hbb (h.disj hm hb)
    rw [heq]
    exact h.unlink_mem hl
  · push Not at ht
    have heq : (fun b => (l b).erase t) = l := by
      funext b
      exact List.erase_of_not_mem (ht b)
    rw [h.unlink_free ht, heq]
    exact h

/-- **`append` puts a free element at the end of the list.** -/
theorem append (h : Holds L l) (ht : ∀ b, t ∉ l b) (b : β) :
    ∃ L', L.append b t = some L' ∧ Holds L' (Function.update l b (l b ++ [t])) := by
  refine ⟨_, by simp only [Links.append, h.prev_head b]; rfl, ?_⟩
  set L' := (((L.setPrev (.elem t) (some (lastOf (.head b) (l b)))).setNext (.elem t)
    (some (.head b))).setNext (lastOf (.head b) (l b)) (some (.elem t))).setPrev (.head b)
    (some (.elem t)) with hL'
  have hlt : lastOf (Node.head b) (l b) ≠ .elem t := fun e => ht b (elem_eq_lastOf e.symm)
  have hnx : ∀ z, L'.next z = if z = lastOf (.head b) (l b) then some (.elem t)
      else if z = .elem t then some (.head b) else L.next z := fun z => rfl
  have hpv : ∀ z, L'.prev z = if z = .head b then some (.elem t)
      else if z = .elem t then some (lastOf (.head b) (l b)) else L.prev z := fun z => rfl
  have hne : ∀ b', ∀ u ∈ l b', (Node.elem u : Node β τ) ≠ .elem t := by
    rintro b' u hu e; cases e; exact ht b' hu
  refine ⟨fun b' => ?_, fun b' => ?_, fun {b₁ b₂ u} hu hu' => ?_, fun {u} hu => ?_⟩
  · by_cases hbb : b' = b
    · subst hbb
      rw [Function.update_self, path_append]
      refine ⟨(h.path b').retarget (h.nodup b') (by simp) (fun z hz hzl => ?_) (fun u hu => ?_) ?_ ?_,
        ?_, ?_⟩
      · rw [hnx, if_neg hz, if_neg]
        rcases hzl with rfl | ⟨u, hu, rfl⟩
        · simp
        · exact hne b' u hu
      · rw [hpv, if_neg (by simp), if_neg (hne b' u hu)]
      · rw [hnx, if_pos rfl]
      · rw [hpv, if_neg (by simp), if_pos rfl]
      · rw [hnx, if_neg hlt.symm, if_pos rfl]
      · rw [hpv, if_pos rfl]
    · rw [Function.update_of_ne hbb]
      refine (h.path b').congr ?_ ?_ (fun u hu => ?_) (fun u hu => ?_)
      · rw [hnx, if_neg fun e => hbb (head_eq_lastOf e), if_neg (by simp)]
      · rw [hpv, if_neg (by simpa using hbb), if_neg (by simp)]
      · rw [hnx, if_neg fun e => hbb (h.disj hu (elem_eq_lastOf e)), if_neg (hne b' u hu)]
      · rw [hpv, if_neg (by simp), if_neg (hne b' u hu)]
  · by_cases hbb : b' = b
    · subst hbb
      rw [Function.update_self]
      exact List.nodup_append.2 ⟨h.nodup b', List.nodup_singleton t, fun x hx y hy e =>
        ht b' (List.mem_singleton.1 hy ▸ e ▸ hx)⟩
    · rw [Function.update_of_ne hbb]; exact h.nodup b'
  · have key : ∀ {b'}, u ∈ Function.update l b (l b ++ [t]) b' → u ∈ l b' ∨ (b' = b ∧ u = t) := by
      intro b' hm
      by_cases hbb : b' = b
      · subst hbb
        rw [Function.update_self] at hm
        simpa using hm
      · rw [Function.update_of_ne hbb] at hm; exact .inl hm
    rcases key hu with h1 | ⟨rfl, rfl⟩ <;> rcases key hu' with h2 | ⟨rfl, h2⟩
    · exact h.disj h1 h2
    · subst h2; exact absurd h1 (ht _)
    · exact absurd h2 (ht _)
    · rfl
  · have hub : u ∉ l b ∧ u ≠ t := by
      have := hu b
      rw [Function.update_self] at this
      simpa using this
    have hfree : ∀ b', u ∉ l b' := by
      intro b' hm
      by_cases hbb : b' = b
      · subst hbb; exact hub.1 hm
      · have := hu b'
        rw [Function.update_of_ne hbb] at this
        exact this hm
    have hut : (Node.elem u : Node β τ) ≠ .elem t := fun e => hub.2 (by cases e; rfl)
    rw [hnx, hpv, if_neg fun e => hub.1 (elem_eq_lastOf e), if_neg hut, if_neg (by simp), if_neg hut]
    exact h.free hfree

end Holds

end Links

end FlowQoS.Lib
