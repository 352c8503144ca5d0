import FlowQoS.Router.Defs
import Mathlib.Data.List.Basic

/-!
# The routing table behind `rte_lpm`

`LpmSpec`: what the router relies on. The table is a map from networks and prefix lengths to next
hops, it takes every rule, and it deletes a rule if it has it. `lpmRules` is such a table, a list of
rules; its lookup finds the longest prefix.
-/

namespace FlowQoS.Router

variable {L : Type}

/-- The table `t` of the library maps the network `ip` with prefix length `depth` to
`rules t ip depth`. -/
structure LpmSpec (lpm : RteLpm L) (rules : L → UInt32 → UInt8 → Option UInt32) : Prop where
  add : ∀ t ip depth hop, 1 ≤ depth → depth ≤ 32 → ip &&& maskOf depth.toUInt32 = ip →
    (lpm.add t ip depth hop).1 = 0 ∧ ∀ n p, rules (lpm.add t ip depth hop).2 n p =
      if n = ip ∧ p = depth then some hop else rules t n p
  delete : ∀ t ip depth, 1 ≤ depth → depth ≤ 32 → ip &&& maskOf depth.toUInt32 = ip →
    ((lpm.delete t ip depth).1 = 0 ↔ (rules t ip depth).isSome) ∧
      ∀ n p, rules (lpm.delete t ip depth).2 n p =
        if n = ip ∧ p = depth then none else rules t n p

/-- What is relied on where the library may refuse a rule: a refused rule changes nothing. -/
structure LpmLaws (lpm : RteLpm L) (rules : L → UInt32 → UInt8 → Option UInt32) : Prop where
  add_ok : ∀ t ip depth hop, 1 ≤ depth → depth ≤ 32 → ip &&& maskOf depth.toUInt32 = ip →
    (lpm.add t ip depth hop).1 = 0 → ∀ n p, rules (lpm.add t ip depth hop).2 n p =
      if n = ip ∧ p = depth then some hop else rules t n p
  add_fail : ∀ t ip depth hop, 1 ≤ depth → depth ≤ 32 → ip &&& maskOf depth.toUInt32 = ip →
    (lpm.add t ip depth hop).1 ≠ 0 → ∀ n p, rules (lpm.add t ip depth hop).2 n p = rules t n p
  delete : ∀ t ip depth, 1 ≤ depth → depth ≤ 32 → ip &&& maskOf depth.toUInt32 = ip →
    ((lpm.delete t ip depth).1 = 0 ↔ (rules t ip depth).isSome) ∧
      ∀ n p, rules (lpm.delete t ip depth).2 n p =
        if n = ip ∧ p = depth then none else rules t n p

theorem LpmSpec.laws {lpm : RteLpm L} {rules : L → UInt32 → UInt8 → Option UInt32}
    (h : LpmSpec lpm rules) : LpmLaws lpm rules where
  add_ok t ip depth hop h1 h32 hmask _ := (h.add t ip depth hop h1 h32 hmask).2
  add_fail t ip depth hop h1 h32 hmask hno := absurd (h.add t ip depth hop h1 h32 hmask).1 hno
  delete := h.delete

/-- The rule of network `n` with prefix length `p` matches the address. -/
def Matches (rules : L → UInt32 → UInt8 → Option UInt32) (t : L) (ip n : UInt32) (p : UInt8) : Prop :=
  (rules t n p).isSome ∧ ip &&& maskOf p.toUInt32 = n

/-- A lookup gives the next hop of the longest rule that matches. -/
structure LongestMatch (lpm : RteLpm L) (rules : L → UInt32 → UInt8 → Option UInt32) : Prop where
  hit : ∀ t ip, (lpm.lookup t ip).1 = true → ∃ n p, Matches rules t ip n p ∧
    rules t n p = some (lpm.lookup t ip).2 ∧ ∀ n' p', Matches rules t ip n' p' → p' ≤ p
  miss : ∀ t ip, (lpm.lookup t ip).1 = false → ∀ n p, ¬ Matches rules t ip n p

/-- A rule of an LPM table. -/
structure LpmRule where
  ip : UInt32
  depth : UInt8
  next_hop : UInt32
  deriving DecidableEq

def LpmRule.Is (ip : UInt32) (depth : UInt8) (x : LpmRule) : Prop := x.ip = ip ∧ x.depth = depth

instance (ip : UInt32) (depth : UInt8) : DecidablePred (LpmRule.Is ip depth) := fun x => by
  unfold LpmRule.Is; infer_instance

/-- The next hop of a network in a list of rules. -/
def ruleOf (t : List LpmRule) (ip : UInt32) (depth : UInt8) : Option UInt32 :=
  (t.find? fun x => decide (x.Is ip depth)).map LpmRule.next_hop

/-- The longest prefix among the rules that match, a shorter one and no match at all being what has
been found so far. -/
def longest (ip : UInt32) : List LpmRule → Option LpmRule → Option LpmRule
  | [], best => best
  | x :: t, best =>
    if ip &&& maskOf x.depth.toUInt32 = x.ip ∧ ∀ b ∈ best, b.depth < x.depth then
      longest ip t (some x)
    else longest ip t best

/-- An LPM table as a list of rules. -/
def lpmRules : RteLpm (List LpmRule) where
  add t ip depth hop :=
    if 1 ≤ depth ∧ depth ≤ 32 then
      let ip := ip &&& maskOf depth.toUInt32
      (0, ⟨ip, depth, hop⟩ :: t.filter fun x => !decide (x.Is ip depth))
    else (-22, t)
  delete t ip depth :=
    let ip := ip &&& maskOf depth.toUInt32
    if (ruleOf t ip depth).isSome then (0, t.filter fun x => !decide (x.Is ip depth)) else (-22, t)
  lookup t ip :=
    match longest ip t none with
    | some x => (true, x.next_hop)
    | none => (false, 0)

theorem ruleOf_filter (t : List LpmRule) (ip n : UInt32) (depth p : UInt8) :
    ruleOf (t.filter fun x => !decide (x.Is ip depth)) n p =
      if n = ip ∧ p = depth then none else ruleOf t n p := by
  unfold ruleOf
  induction t with
  | nil => simp
  | cons x t ih =>
    by_cases hx : x.Is ip depth
    · rw [List.filter_cons_of_neg (by simpa using hx), ih]
      split
      · rfl
      · next hne =>
        rw [List.find?_cons_of_neg]
        obtain ⟨rfl, rfl⟩ := hx
        rw [decide_eq_true_eq]
        exact fun h => hne ⟨h.1.symm, h.2.symm⟩
    · rw [List.filter_cons_of_pos (by simpa using hx)]
      by_cases hnp : x.Is n p
      · rw [List.find?_cons_of_pos (by simpa using hnp), List.find?_cons_of_pos (by simpa using hnp),
          if_neg]
        rintro ⟨rfl, rfl⟩
        exact hx hnp
      · rw [List.find?_cons_of_neg (by simpa using hnp), List.find?_cons_of_neg (by simpa using hnp), ih]

theorem lpmRules_spec : LpmSpec lpmRules ruleOf where
  add t ip depth hop h1 h32 hmask := by
    have hadd : lpmRules.add t ip depth hop =
        (0, ⟨ip, depth, hop⟩ :: t.filter fun x => !decide (x.Is ip depth)) := by
      simp only [lpmRules, hmask, if_pos (And.intro h1 h32)]
    rw [hadd]
    refine ⟨rfl, fun n p => ?_⟩
    by_cases hnp : n = ip ∧ p = depth
    · rw [if_pos hnp]
      obtain ⟨rfl, rfl⟩ := hnp
      simp [ruleOf, LpmRule.Is]
    · have hcons : ruleOf (⟨ip, depth, hop⟩ :: t.filter fun x => !decide (x.Is ip depth)) n p =
          ruleOf (t.filter fun x => !decide (x.Is ip depth)) n p := by
        unfold ruleOf
        rw [List.find?_cons_of_neg]
        rw [decide_eq_true_eq]
        exact fun h => hnp ⟨h.1.symm, h.2.symm⟩
      rw [hcons, ruleOf_filter, if_neg hnp, if_neg hnp]
  delete t ip depth _ _ hmask := by
    by_cases hsome : (ruleOf t ip depth).isSome
    · have hdel : lpmRules.delete t ip depth = (0, t.filter fun x => !decide (x.Is ip depth)) := by
        simp only [lpmRules, hmask, if_pos hsome]
      rw [hdel]
      exact ⟨by simp [hsome], fun n p => ruleOf_filter t ip n depth p⟩
    · have hdel : lpmRules.delete t ip depth = (-22, t) := by
        simp only [lpmRules, hmask, if_neg hsome]
      rw [hdel]
      refine ⟨by simp [hsome], fun n p => ?_⟩
      split
      · next hnp =>
        obtain ⟨rfl, rfl⟩ := hnp
        exact Option.not_isSome_iff_eq_none.1 hsome
      · rfl

theorem ruleOf_cons (x : LpmRule) (t : List LpmRule) (n : UInt32) (p : UInt8) :
    ruleOf (x :: t) n p = if x.Is n p then some x.next_hop else ruleOf t n p := by
  unfold ruleOf
  by_cases h : x.Is n p
  · rw [List.find?_cons_of_pos (by simpa using h), if_pos h]
    rfl
  · rw [List.find?_cons_of_neg (by simpa using h), if_neg h]

theorem matches_cons {x : LpmRule} {t : List LpmRule} {ip n : UInt32} {p : UInt8}
    (h : Matches ruleOf (x :: t) ip n p) :
    (x.Is n p ∧ ip &&& maskOf x.depth.toUInt32 = x.ip) ∨ Matches ruleOf t ip n p := by
  obtain ⟨hsome, hip⟩ := h
  rw [ruleOf_cons] at hsome
  split at hsome
  · next hx =>
    left
    refine ⟨hx, ?_⟩
    obtain ⟨rfl, rfl⟩ := hx
    exact hip
  · exact .inr ⟨hsome, hip⟩

/-- The rule that the search gives: what has been found before, or a longer rule that matches and that is the
first of its network and prefix length. Nothing that matches is longer. -/
structure Longest (ip : UInt32) (t : List LpmRule) (best : Option LpmRule) (x : LpmRule) : Prop where
  found : best = some x ∨ ip &&& maskOf x.depth.toUInt32 = x.ip ∧
    ruleOf t x.ip x.depth = some x.next_hop ∧ ∀ b ∈ best, b.depth < x.depth
  max : ∀ n p, Matches ruleOf t ip n p → p ≤ x.depth

/-- Where it gives none, there is none. -/
def LongestSpec (ip : UInt32) (t : List LpmRule) (best : Option LpmRule) : Option LpmRule → Prop
  | none => best = none ∧ ∀ n p, ¬ Matches ruleOf t ip n p
  | some x => Longest ip t best x

theorem Longest.le {ip : UInt32} {t : List LpmRule} {best : Option LpmRule} {x : LpmRule}
    (h : Longest ip t best x) : ∀ b ∈ best, b.depth ≤ x.depth := by
  intro b hb
  rcases h.found with hx | ⟨-, -, hlt⟩
  · rw [hx] at hb
    cases hb
    exact UInt8.le_refl _
  · exact UInt8.le_of_lt (hlt b hb)

/-- The first rule matches and is longer than what has been found before. -/
theorem LongestSpec.take {ip : UInt32} {y : LpmRule} {t : List LpmRule} {best res : Option LpmRule}
    (hip : ip &&& maskOf y.depth.toUInt32 = y.ip) (hlonger : ∀ b ∈ best, b.depth < y.depth)
    (h : LongestSpec ip t (some y) res) : LongestSpec ip (y :: t) best res := by
  cases res with
  | none => cases h.1
  | some x =>
    have hle : y.depth ≤ x.depth := Longest.le h y rfl
    obtain ⟨hx, hmax⟩ := h
    refine ⟨.inr ?_, fun n p h => ?_⟩
    · rcases hx with hx | ⟨hxip, hrule, hlt⟩
      · cases hx
        refine ⟨hip, ?_, hlonger⟩
        rw [ruleOf_cons, if_pos ⟨rfl, rfl⟩]
      · refine ⟨hxip, ?_, fun b hb => UInt8.lt_trans (hlonger b hb) (hlt y rfl)⟩
        rw [ruleOf_cons, if_neg, hrule]
        rintro ⟨-, hd⟩
        have hirrefl := hlt y rfl
        rw [hd] at hirrefl
        exact UInt8.lt_irrefl _ hirrefl
    · rcases matches_cons h with ⟨hyn, -⟩ | h
      · rw [← hyn.2]
        exact hle
      · exact hmax n p h

/-- The first rule does not match, or it is not longer than what has been found before. -/
theorem LongestSpec.skip {ip : UInt32} {y : LpmRule} {t : List LpmRule} {best res : Option LpmRule}
    (hbest : ip &&& maskOf y.depth.toUInt32 = y.ip → ∃ b ∈ best, y.depth ≤ b.depth)
    (h : LongestSpec ip t best res) : LongestSpec ip (y :: t) best res := by
  cases res with
  | none =>
    obtain ⟨rfl, hno⟩ := h
    refine ⟨rfl, fun n p h => ?_⟩
    rcases matches_cons h with ⟨-, hip⟩ | h
    · obtain ⟨b, hb, -⟩ := hbest hip
      cases hb
    · exact hno n p h
  | some x =>
    have hle := Longest.le h
    obtain ⟨hx, hmax⟩ := h
    refine ⟨?_, fun n p h => ?_⟩
    · rcases hx with hx | ⟨hip, hrule, hlt⟩
      · exact .inl hx
      · refine .inr ⟨hip, ?_, hlt⟩
        rw [ruleOf_cons, if_neg, hrule]
        rintro ⟨hn, hd⟩
        rw [← hn, ← hd] at hip
        obtain ⟨b, hb, hyb⟩ := hbest hip
        have hbx := hlt b hb
        rw [← hd] at hbx
        exact UInt8.lt_irrefl _ (UInt8.lt_of_le_of_lt hyb hbx)
    · rcases matches_cons h with ⟨hyn, hip⟩ | h
      · obtain ⟨b, hb, hyb⟩ := hbest hip
        rw [← hyn.2]
        exact UInt8.le_trans hyb (hle b hb)
      · exact hmax n p h

theorem longest_spec (ip : UInt32) : ∀ (t : List LpmRule) (best : Option LpmRule),
    LongestSpec ip t best (longest ip t best) := by
  intro t
  induction t with
  | nil =>
    intro best
    have hno : ∀ n p, ¬ Matches ruleOf [] ip n p := fun n p h => by
      obtain ⟨hsome, -⟩ := h
      cases hsome
    cases best with
    | none => exact ⟨rfl, hno⟩
    | some x => exact ⟨.inl rfl, fun n p h => absurd h (hno n p)⟩
  | cons y t ih =>
    intro best
    unfold longest
    by_cases hy : ip &&& maskOf y.depth.toUInt32 = y.ip ∧ ∀ b ∈ best, b.depth < y.depth
    · rw [if_pos hy]
      exact (ih (some y)).take hy.1 hy.2
    · rw [if_neg hy]
      refine (ih best).skip fun hip => ?_
      by_contra hno
      refine hy ⟨hip, fun b hb => ?_⟩
      by_contra hlt
      exact hno ⟨b, hb, UInt8.not_lt.1 hlt⟩

theorem lpmRules_longest : LongestMatch lpmRules ruleOf where
  hit t ip h := by
    have hspec := longest_spec ip t none
    simp only [lpmRules] at h ⊢
    cases hl : longest ip t none with
    | none =>
      rw [hl] at h
      cases h
    | some x =>
      rw [hl] at hspec
      obtain ⟨hx | ⟨hip, hrule, -⟩, hmax⟩ := hspec
      · cases hx
      · exact ⟨x.ip, x.depth, ⟨by rw [hrule]; rfl, hip⟩, hrule, hmax⟩
  miss t ip h := by
    have hspec := longest_spec ip t none
    simp only [lpmRules] at h
    cases hl : longest ip t none with
    | none =>
      rw [hl] at hspec
      exact hspec.2
    | some x =>
      rw [hl] at h
      cases h

end FlowQoS.Router
