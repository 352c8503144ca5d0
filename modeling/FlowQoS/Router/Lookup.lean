import FlowQoS.Router.Atomic

/-!
# Lookups

`flowQoS_router_findRoute` looks an address up, and if no rule matches it looks the address 0 up, where the
default route is stored as 0.0.0.0/32. So an address that no route contains is answered with any route that
contains the address 0 (`findRoute_answers_iff`).

The routes and rules are one to one in every run of additions and deletions none of whose new routes sums
up to 0 (`run_oneToOne`).
-/

namespace FlowQoS.Router

open Lib

variable {L : Type} {lpm : RteLpm L} {rules : L → UInt32 → UInt8 → Option UInt32} {sem : Locking}
  {r r' : RouterState L} {ip prefixLen gw_ip : UInt32} {i j : ℕ} {hist : List (Call × ℤ)}

/-! ### Routes -/

/-- Every rule leads to a slot in use that stores its network, and every slot in use has its rule. -/
structure OneToOne (rules : L → UInt32 → UInt8 → Option UInt32) (r : RouterState L) : Prop where
  rule : ∀ {n p h}, rules r.lpm n p = some h →
    h.toNat < maxRules ∧ InUse r h.toNat ∧ r.ip h.toNat = n ∧ r.prefixLen h.toNat = p.toUInt32
  slot : ∀ {i}, i < maxRules → InUse r i →
    rules r.lpm (r.ip i) (r.prefixLen i).toUInt8 = some i.toUInt32
  range : ∀ {i}, i < maxRules → InUse r i → 1 ≤ r.prefixLen i ∧ r.prefixLen i ≤ 32

/-- The network of the route in a slot contains the address. -/
def Contains (r : RouterState L) (ip : UInt32) (i : ℕ) : Prop :=
  i < maxRules ∧ InUse r i ∧ ip &&& maskOf (r.prefixLen i) = r.ip i

instance (r : RouterState L) (ip : UInt32) (i : ℕ) : Decidable (Contains r ip i) := by
  unfold Contains; infer_instance

/-- No route that contains the address is longer. -/
def Best (r : RouterState L) (ip : UInt32) (i : ℕ) : Prop :=
  Contains r ip i ∧ ∀ j, Contains r ip j → r.prefixLen j ≤ r.prefixLen i

/-- The slot stores the default route. -/
def IsDefault (r : RouterState L) (i : ℕ) : Prop :=
  i < maxRules ∧ InUse r i ∧ r.ip i = 0 ∧ r.prefixLen i = 32

instance (r : RouterState L) (i : ℕ) : Decidable (IsDefault r i) := by
  unfold IsDefault; infer_instance

/-- The answer with the route in a slot. -/
def answer (r : RouterState L) (i : ℕ) : FoundRoute := ⟨1, r.port_id i, r.gw_ip i⟩

/-- **The answer of a lookup**: the longest route that contains the address; the default route, if none
contains it; and otherwise none. -/
def Answers (r : RouterState L) (ip : UInt32) (found : FoundRoute) : Prop :=
  (∃ i, Best r ip i ∧ found = answer r i) ∨
  ((∀ i, ¬ Contains r ip i) ∧ ∃ i, IsDefault r i ∧ found = answer r i) ∨
  ((∀ i, ¬ Contains r ip i) ∧ (∀ i, ¬ IsDefault r i) ∧ found.ret = 0)

theorem zero_and_mask (m : UInt32) : (0 : UInt32) &&& m = 0 := by
  apply UInt32.toNat_inj.1
  rw [UInt32.toNat_and]
  exact Nat.zero_and _

theorem IsDefault.contains (h : IsDefault r i) : Contains r 0 i := by
  obtain ⟨hi, huse, hip, -⟩ := h
  refine ⟨hi, huse, ?_⟩
  rw [hip, zero_and_mask]

section OneToOne

variable (h : OneToOne rules r)

include h

theorem OneToOne.toUInt8 (hi : i < maxRules) (huse : InUse r i) :
    (r.prefixLen i).toUInt8.toUInt32 = r.prefixLen i := toUInt8_toUInt32 (h.range hi huse).2

/-- The rules that match an address are those of the routes that contain it. -/
theorem OneToOne.matches_iff (n : UInt32) (p : UInt8) : Matches rules r.lpm ip n p ↔
    ∃ i, Contains r ip i ∧ r.ip i = n ∧ r.prefixLen i = p.toUInt32 := by
  constructor
  · rintro ⟨hsome, hip⟩
    obtain ⟨hop, hrule⟩ := Option.isSome_iff_exists.1 hsome
    obtain ⟨hlt, huse, hn, hp⟩ := h.rule hrule
    refine ⟨hop.toNat, ⟨hlt, huse, ?_⟩, hn, hp⟩
    rw [hp, hn, hip]
  · rintro ⟨i, ⟨hlt, huse, hip⟩, hn, hp⟩
    have hrule := h.slot hlt huse
    have hp' : (r.prefixLen i).toUInt8 = p := by
      rw [hp]
      exact UInt8.toUInt8_toUInt32 p
    rw [hn, hp'] at hrule
    refine ⟨by rw [hrule]; rfl, ?_⟩
    rw [← hp, hip, hn]

/-- Two routes of one length that contain the address are one. -/
theorem OneToOne.best_unique (hi : Best r ip i) (hj : Best r ip j) : i = j := by
  obtain ⟨⟨hlt, huse, hip⟩, hmax⟩ := hi
  obtain ⟨⟨hlt', huse', hip'⟩, hmax'⟩ := hj
  have hp : r.prefixLen i = r.prefixLen j :=
    UInt32.le_antisymm (hmax' i ⟨hlt, huse, hip⟩) (hmax j ⟨hlt', huse', hip'⟩)
  have hn : r.ip i = r.ip j := by rw [← hip, ← hip', hp]
  have hrule := h.slot hlt huse
  rw [hp, hn, h.slot hlt' huse'] at hrule
  have heq : j.toUInt32.toNat = i.toUInt32.toNat := congrArg UInt32.toNat (Option.some.inj hrule)
  rw [toNat_toUInt32 hlt, toNat_toUInt32 hlt'] at heq
  exact heq.symm

theorem OneToOne.lookup_hit (spec : LongestMatch lpm rules) (hit : (lpm.lookup r.lpm ip).1 = true) :
    Best r ip (lpm.lookup r.lpm ip).2.toNat := by
  obtain ⟨n, p, ⟨-, hip⟩, hrule, hmax⟩ := spec.hit r.lpm ip hit
  obtain ⟨hlt, huse, hn, hp⟩ := h.rule hrule
  refine ⟨⟨hlt, huse, ?_⟩, fun j hj => ?_⟩
  · rw [hp, hn, hip]
  · have hle := hmax (r.ip j) (r.prefixLen j).toUInt8
      ((h.matches_iff _ _).2 ⟨j, hj, rfl, (h.toUInt8 hj.1 hj.2.1).symm⟩)
    rw [hp, ← h.toUInt8 hj.1 hj.2.1, UInt32.le_iff_toNat_le, UInt8.toNat_toUInt32, UInt8.toNat_toUInt32]
    exact UInt8.le_iff_toNat_le.1 hle

theorem OneToOne.lookup_iff (ip : UInt32) (spec : LongestMatch lpm rules) :
    (lpm.lookup r.lpm ip).1 = true ↔ ∃ i, Contains r ip i := by
  refine ⟨fun hit => ⟨_, (h.lookup_hit spec hit).1⟩, ?_⟩
  rintro ⟨i, hi⟩
  by_contra hmiss
  rw [Bool.not_eq_true] at hmiss
  exact spec.miss r.lpm ip hmiss _ _
    ((h.matches_iff (r.ip i) (r.prefixLen i).toUInt8).2 ⟨i, hi, rfl, (h.toUInt8 hi.1 hi.2.1).symm⟩)

/-- The default route is the longest one there is. -/
theorem OneToOne.best_default (hd : IsDefault r i) : Best r 0 i := by
  refine ⟨hd.contains, fun j hj => ?_⟩
  rw [hd.2.2.2]
  exact (h.range hj.1 hj.2.1).2

end OneToOne

/-! ### The lookup -/

theorem findRoute_eq_ok {found : FoundRoute} (hrun : findRoute lpm sem r ip = .ok (found, r')) :
    ((lpm.lookup r.lpm ip).1 = true → found = answer r (lpm.lookup r.lpm ip).2.toNat) ∧
    ((lpm.lookup r.lpm ip).1 = false →
      ((lpm.lookup r.lpm 0).1 = true → found = answer r (lpm.lookup r.lpm 0).2.toNat) ∧
      ((lpm.lookup r.lpm 0).1 = false → found.ret = 0)) := by
  unfold findRoute at hrun
  obtain ⟨lock, -, hrun⟩ := bind_eq_ok.1 hrun
  cases hrun
  refine ⟨fun hit => ?_, fun miss => ⟨fun hit => ?_, fun miss' => ?_⟩⟩
  · simp [hit, answer]
  · simp [miss, hit, answer]
  · simp [miss, miss']

/-- **Lookups.** An address is answered as it should be exactly if a route contains it, the default route is
stored, or no route contains the address 0. -/
theorem findRoute_answers_iff (spec : LongestMatch lpm rules) (h : OneToOne rules r) {found : FoundRoute}
    (hrun : findRoute lpm sem r ip = .ok (found, r')) : Answers r ip found ↔
    (∃ i, Contains r ip i) ∨ (∃ i, IsDefault r i) ∨ ∀ i, ¬ Contains r 0 i := by
  obtain ⟨hfirst, hsecond⟩ := findRoute_eq_ok hrun
  have hiff := h.lookup_iff ip spec
  have hiff₀ := h.lookup_iff 0 spec
  cases hhit : (lpm.lookup r.lpm ip).1 with
  | true =>
    exact ⟨fun _ => .inl (hiff.1 hhit), fun _ => .inl ⟨_, h.lookup_hit spec hhit, hfirst hhit⟩⟩
  | false =>
    have hno : ∀ i, ¬ Contains r ip i := by
      intro i hi
      have := hiff.2 ⟨i, hi⟩
      rw [hhit] at this
      cases this
    obtain ⟨hzero, hnone⟩ := hsecond hhit
    cases hhit₀ : (lpm.lookup r.lpm 0).1 with
    | true =>
      have hbest := h.lookup_hit spec hhit₀
      have hfound := hzero hhit₀
      constructor
      · rintro (⟨i, hi, -⟩ | ⟨-, i, hi, -⟩ | ⟨-, -, hret⟩)
        · exact absurd hi.1 (hno i)
        · exact .inr (.inl ⟨i, hi⟩)
        · rw [hfound] at hret
          cases hret
      · rintro (⟨i, hi⟩ | ⟨i, hi⟩ | hzero')
        · exact absurd hi (hno i)
        · -- the default route is the longest that contains the address 0
          refine .inr (.inl ⟨hno, i, hi, ?_⟩)
          rw [hfound, h.best_unique hbest (h.best_default hi)]
        · exact absurd hbest.1 (hzero' _)
    | false =>
      have hno₀ : ∀ i, ¬ Contains r 0 i := by
        intro i hi
        have := hiff₀.2 ⟨i, hi⟩
        rw [hhit₀] at this
        cases this
      exact ⟨fun _ => .inr (.inr hno₀), fun _ =>
        .inr (.inr ⟨hno, fun i hi => hno₀ i hi.contains, hnone hhit₀⟩)⟩

/-! ### Runs -/

/-- The routes have prefix lengths from 1 to 32. -/
def Ranged (r : RouterState L) : Prop :=
  ∀ i, i < maxRules → InUse r i → 1 ≤ r.prefixLen i ∧ r.prefixLen i ≤ 32

theorem StoredInv.oneToOne (h : StoredInv rules hist r) (hrange : Ranged r) : OneToOne rules r :=
  ⟨h.rule_slot, h.slot_rule, fun {i} => hrange i⟩

theorem Ranged.setRoute {table : L} {pos : ℕ} {n p g q : UInt32} (h : Ranged r)
    (hp : isRoute (({ r with lpm := table } : RouterState L).setRoute pos n p g q) pos ≠ 0 →
      1 ≤ p ∧ p ≤ 32) :
    Ranged (({ r with lpm := table } : RouterState L).setRoute pos n p g q) := by
  intro i hi huse
  by_cases hipos : i = pos
  · subst hipos
    rw [(setRoute_self _ _ _ _ _ _).2.1]
    exact hp huse
  · rw [(setRoute_of_ne hipos).2.1]
    rw [InUse, isRoute_setRoute_of_ne hipos] at huse
    exact h i hi huse

theorem ranged_step (spec : LpmSpec lpm rules) {e : Call × ℤ} (hinv : StoredInv rules hist r)
    (h : Ranged r) (hstep : Step lpm r e r') : Ranged r' := by
  obtain ⟨c, ret⟩ := e
  obtain ⟨hdom, hrun⟩ := hstep
  cases c with
  | addRoute ip prefixLen gw_ip =>
    change addRoute lpm .ignored r ip prefixLen gw_ip = .ok (ret, r') at hrun
    rw [addRoute_ignored] at hrun
    have hexit := addRouteLocked_exit lpm r ip prefixLen gw_ip
    rw [Except.ok.inj hrun] at hexit
    cases hexit with
    | early => exact h
    | refused => exact h
    | notLocal => exact h
    | ok => exact h.setRoute fun _ => hdom.1
  | delRoute ip prefixLen =>
    change delRoute lpm .ignored r ip prefixLen = .ok (ret, r') at hrun
    rw [delRoute_ignored] at hrun
    rcases delRouteLoop_spec spec hdom (and_mask ip (maskOf prefixLen)) (List.range maxRules) r hinv
      (fun i hi => List.mem_range.1 hi) with ⟨table, hloop, -⟩ | ⟨table, pos, hloop, -⟩
    · rw [hrun] at hloop
      cases hloop
      exact h
    · rw [hrun] at hloop
      cases hloop
      refine h.setRoute fun huse => absurd ?_ huse
      rw [isRoute_setRoute_self]
      rfl
  | findRoute => exact hdom.elim
  | dumpRoute => exact hdom.elim
  | ifconfig => exact hdom.elim

/-- **Routes and rules are one to one** in every run none of whose new routes sums up to 0. -/
theorem run_oneToOne (spec : LpmSpec lpm rules) {r₀ : RouterState L} (hempty : EmptyTable rules r₀)
    (hrun : Trace (fun r e r' => Step lpm r e r' ∧ SumOk r e.1) r₀ hist r) : OneToOne rules r := by
  have hinv : StoredInv rules hist r ∧ Ranged r := by
    refine Trace.inv_events (P := fun hist r => StoredInv rules hist r ∧ Ranged r)
      (fun hist s e s' hs hstep => ?_) hrun ⟨storedInv_empty hempty, ?_⟩
    · exact ⟨storedInv_step spec hs.1 hstep.1 hstep.2, ranged_step spec hs.1 hs.2 hstep.1⟩
    · intro i _ huse
      obtain ⟨h1, h2, h3, h4⟩ := hempty.1 i
      exact absurd huse (by simp [InUse, isRoute, h1, h2, h3, h4])
  exact hinv.1.oneToOne hinv.2

/-! ### A network at 0.0.0.0 -/

/-- The routing table with one route via 63.87.54.2. -/
def oneRoute (ip prefixLen : UInt32) : RouterState (List LpmRule) :=
  (addRouteLocked lpmRules onePort ip prefixLen 0x3F573602).2

theorem oneToOne_oneRoute (hp : 1 ≤ prefixLen ∧ prefixLen ≤ 32)
    (hsum : newSum onePort ip prefixLen 0x3F573602 ≠ 0) : OneToOne ruleOf (oneRoute ip prefixLen) := by
  have hdom : InDomain onePort (.addRoute ip prefixLen 0x3F573602) := by
    refine ⟨hp, 0, by decide, ?_⟩
    rw [if_neg (by decide)]
    decide +kernel
  exact run_oneToOne lpmRules_spec onePort_empty
    (Trace.single ⟨step_addRoute hdom rfl, .inr (.inr hsum)⟩)

/-- 10.1.1.1 behind 10.1.0.0/16. -/
theorem findRoute_answers_iff_oneRoute : ∃ found,
    findRoute lpmRules .rwlock (oneRoute 0x0A010000 16) 0x0A010101 = .ok (found, oneRoute 0x0A010000 16) ∧
      Answers (oneRoute 0x0A010000 16) 0x0A010101 found := by
  obtain ⟨found, hrun⟩ := findRoute_read lpmRules
    (show 0 ≤ (oneRoute 0x0A010000 16).lock by decide +kernel) 0x0A010101
  have hone : OneToOne ruleOf (oneRoute 0x0A010000 16) := oneToOne_oneRoute (by decide) (by decide +kernel)
  exact ⟨found, hrun, (findRoute_answers_iff lpmRules_longest hone hrun).2
    (.inl ⟨255, by decide +kernel⟩)⟩

/-- 0.0.0.0/8 is the only route: 99.9.9.9, which it does not contain, is answered with it. -/
theorem uncovered_address_answered : OneToOne ruleOf (oneRoute 0 8) ∧
    (∀ i < maxRules, ¬ Contains (oneRoute 0 8) 0x63090909 i) ∧
    ∃ found, findRoute lpmRules .rwlock (oneRoute 0 8) 0x63090909 = .ok (found, oneRoute 0 8) ∧
      found.ret = 1 ∧ found.gw_ip = 0x3F573602 ∧ ¬ Answers (oneRoute 0 8) 0x63090909 found := by
  have hone : OneToOne ruleOf (oneRoute 0 8) := oneToOne_oneRoute (by decide) (by decide +kernel)
  have hno : ∀ i < maxRules, ¬ Contains (oneRoute 0 8) 0x63090909 i := by decide +kernel
  have hdef : ∀ i < maxRules, ¬ IsDefault (oneRoute 0 8) i := by decide +kernel
  obtain ⟨found, hrun⟩ := findRoute_read lpmRules
    (show 0 ≤ (oneRoute 0 8).lock by decide +kernel) 0x63090909
  obtain ⟨-, hsecond⟩ := findRoute_eq_ok hrun
  have hfound := (hsecond (by decide +kernel)).1 (by decide +kernel)
  refine ⟨hone, hno, found, hrun, by rw [hfound]; rfl, ?_, ?_⟩
  · rw [hfound]
    decide +kernel
  · rintro (⟨i, hi, -⟩ | ⟨-, i, hi, -⟩ | ⟨-, -, hret⟩)
    · exact hno i hi.1.1 hi.1
    · exact hdef i hi.1 hi
    · rw [hfound] at hret
      cases hret

end FlowQoS.Router
