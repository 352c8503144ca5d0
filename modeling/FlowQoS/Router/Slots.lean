import FlowQoS.Router.Lpm
import FlowQoS.Lib.Trace
import Mathlib.Tactic.Tauto

/-!
# LPM rules and route slots

A slot is in use when the wrapping sum of its port, gateway, network and prefix length is not 0. A
route whose sum is 0 is stored in a slot that counts as free: the next route overwrites it, and its
rule stays behind. `SumOk` excludes such routes, and without them rules and slots in use are in
bijection and every route that has been added and not been deleted is stored (`Stored`).

* `freeSlotLoop_spec`, `delRouteLoop_spec`: the two searches over the slots;
* `storedInv_addRoute`, `storedInv_delRoute`: one call;
* `run_stored`: every run of calls.
-/

namespace FlowQoS.Router

open Lib

variable {L : Type} {lpm : RteLpm L} {rules : L → UInt32 → UInt8 → Option UInt32}
  {r r' : RouterState L} {ip prefixLen gw_ip : UInt32} {hist : List (Call × ℤ)}

/-- The slot counts as in use. -/
abbrev InUse (r : RouterState L) (i : ℕ) : Prop := isRoute r i ≠ 0

/-- The address is in the network of a port. -/
def InSubnet (r : RouterState L) (tip : UInt32) : Prop :=
  ∃ i < portNum, tip &&& maskOf (r.localPortInfo i).prefixLen =
    (r.localPortInfo i).ip &&& maskOf (r.localPortInfo i).prefixLen

/-- The calls of a run: routes with a prefix length from 1 to 32, and a gateway, or without a gateway
a network, in the network of a port. -/
def InDomain (r : RouterState L) : Call → Prop
  | .addRoute ip prefixLen gw_ip => (1 ≤ prefixLen ∧ prefixLen ≤ 32) ∧
      InSubnet r (if gw_ip = 0 then ip &&& maskOf prefixLen else gw_ip)
  | .delRoute _ prefixLen => 1 ≤ prefixLen ∧ prefixLen ≤ 32
  | _ => False

/-- The route that is added does not sum up to 0, or finds its network or no free slot. -/
def SumOk (r : RouterState L) : Call → Prop
  | .addRoute ip prefixLen gw_ip =>
      (∃ i < maxRules, InUse r i ∧ r.ip i = ip &&& maskOf prefixLen) ∨
      (∀ i < maxRules, InUse r i) ∨
      (routePort r (ip &&& maskOf prefixLen) gw_ip).toNat.toUInt32 + gw_ip +
        (ip &&& maskOf prefixLen) + prefixLen ≠ 0
  | _ => True

/-- The route has been added, with success, and has not been deleted since. -/
def LiveRoute (hist : List (Call × ℤ)) (ip prefixLen gw_ip : UInt32) : Prop :=
  ∃ pre post, hist = pre ++ (.addRoute ip prefixLen gw_ip, 1) :: post ∧
    ∀ ip', (Call.delRoute ip' prefixLen, (1 : ℤ)) ∈ post →
      ip' &&& maskOf prefixLen ≠ ip &&& maskOf prefixLen

/-- Rules and slots in use are in bijection, and every live route is stored. -/
structure Stored (rules : L → UInt32 → UInt8 → Option UInt32) (hist : List (Call × ℤ))
    (r : RouterState L) : Prop where
  rule_slot : ∀ {n p h}, rules r.lpm n p = some h →
    h.toNat < maxRules ∧ r.ip h.toNat = n ∧ r.prefixLen h.toNat = p.toUInt32
  rule_inj : ∀ {n p n' p' h}, rules r.lpm n p = some h → rules r.lpm n' p' = some h →
    n = n' ∧ p = p'
  slot_rule : ∀ {i}, i < maxRules → InUse r i →
    rules r.lpm (r.ip i) (r.prefixLen i).toUInt8 = some i.toUInt32
  live : ∀ {ip prefixLen gw_ip}, LiveRoute hist ip prefixLen gw_ip → ∃ i < maxRules, InUse r i ∧
    r.ip i = ip &&& maskOf prefixLen ∧ r.prefixLen i = prefixLen ∧ r.gw_ip i = gw_ip ∧
    r.port_id i = (routePort r (ip &&& maskOf prefixLen) gw_ip).toNat.toUInt32

/-- The table is empty; the ports have any addresses. -/
def EmptyTable (rules : L → UInt32 → UInt8 → Option UInt32) (r : RouterState L) : Prop :=
  (∀ i, r.ip i = 0 ∧ r.prefixLen i = 0 ∧ r.gw_ip i = 0 ∧ r.port_id i = 0) ∧
    ∀ n p, rules r.lpm n p = none

/-! ### Words -/

theorem toUInt8_toUInt32 (h : prefixLen ≤ 32) : prefixLen.toUInt8.toUInt32 = prefixLen := by
  have h' : prefixLen.toNat ≤ 32 := UInt32.le_iff_toNat_le.1 h
  apply UInt32.toNat_inj.1
  rw [UInt8.toNat_toUInt32, UInt32.toNat_toUInt8]
  omega

theorem toUInt8_range (h1 : 1 ≤ prefixLen) (h : prefixLen ≤ 32) :
    1 ≤ prefixLen.toUInt8 ∧ prefixLen.toUInt8 ≤ 32 := by
  have h1' : 1 ≤ prefixLen.toNat := UInt32.le_iff_toNat_le.1 h1
  have h' : prefixLen.toNat ≤ 32 := UInt32.le_iff_toNat_le.1 h
  constructor <;> apply UInt8.le_iff_toNat_le.2 <;> rw [UInt32.toNat_toUInt8]
  · show 1 ≤ prefixLen.toNat % 256
    omega
  · show prefixLen.toNat % 256 ≤ 32
    omega

theorem toNat_toUInt32 {i : ℕ} (h : i < maxRules) : i.toUInt32.toNat = i := by
  unfold maxRules at h
  show i % 2 ^ 32 = i
  omega

theorem and_mask (ip m : UInt32) : ip &&& m &&& m = ip &&& m := by
  rw [UInt32.and_assoc, UInt32.and_self]

/-! ### The searches -/

theorem isLocalIPLoop_eq (tip : UInt32) : ∀ is : List ℕ, isLocalIPLoop r tip is = -1 ↔
    ∀ i ∈ is, tip &&& maskOf (r.localPortInfo i).prefixLen ≠
      (r.localPortInfo i).ip &&& maskOf (r.localPortInfo i).prefixLen := by
  intro is
  induction is with
  | nil => simp [isLocalIPLoop]
  | cons i is ih =>
    simp only [isLocalIPLoop]
    split
    · next h =>
      constructor
      · intro hi
        omega
      · intro hall
        exact absurd h (hall i List.mem_cons_self)
    · next h =>
      rw [ih, List.forall_mem_cons]
      exact ⟨fun hall => ⟨h, hall⟩, fun hall => hall.2⟩

theorem routePort_ne (h : InSubnet r (if gw_ip = 0 then ip else gw_ip)) :
    routePort r ip gw_ip ≠ -1 := by
  obtain ⟨i, hi, heq⟩ := h
  unfold routePort isLocalIP
  by_cases hgw : gw_ip = 0
  · rw [if_pos hgw] at heq ⊢
    rw [ne_eq, isLocalIPLoop_eq]
    exact fun hall => hall i (List.mem_range.2 hi) heq
  · rw [if_neg hgw] at heq ⊢
    rw [ne_eq, isLocalIPLoop_eq]
    exact fun hall => hall i (List.mem_range.2 hi) heq

theorem freeSlotLoop_spec (ip : UInt32) : ∀ (is : List ℕ) (pos : Option ℕ),
    match freeSlotLoop r ip is pos with
    | none => ∃ i ∈ is, InUse r i ∧ r.ip i = ip
    | some res => (∀ i ∈ is, InUse r i → r.ip i ≠ ip) ∧
        (res = pos ∧ (∀ i ∈ is, InUse r i) ∨ ∃ i ∈ is, res = some i ∧ ¬ InUse r i) := by
  intro is
  induction is with
  | nil =>
    intro pos
    exact ⟨by simp, .inl ⟨rfl, by simp⟩⟩
  | cons i is ih =>
    intro pos
    by_cases hi : InUse r i
    · by_cases hip : ip = r.ip i
      · rw [freeSlotLoop, if_pos hi, if_pos hip]
        exact ⟨i, List.mem_cons_self, hi, hip.symm⟩
      · rw [freeSlotLoop, if_pos hi, if_neg hip]
        have := ih pos
        cases hloop : freeSlotLoop r ip is pos with
        | none =>
          rw [hloop] at this
          obtain ⟨j, hj, hrest⟩ := this
          exact ⟨j, List.mem_cons_of_mem _ hj, hrest⟩
        | some res =>
          rw [hloop] at this
          obtain ⟨hne, hres⟩ := this
          refine ⟨List.forall_mem_cons.2 ⟨fun _ h => hip h.symm, hne⟩, ?_⟩
          rcases hres with ⟨hres, hall⟩ | ⟨j, hj, hrest⟩
          · exact .inl ⟨hres, List.forall_mem_cons.2 ⟨hi, hall⟩⟩
          · exact .inr ⟨j, List.mem_cons_of_mem _ hj, hrest⟩
    · rw [freeSlotLoop, if_neg hi]
      have := ih (some i)
      cases hloop : freeSlotLoop r ip is (some i) with
      | none =>
        rw [hloop] at this
        obtain ⟨j, hj, hrest⟩ := this
        exact ⟨j, List.mem_cons_of_mem _ hj, hrest⟩
      | some res =>
        rw [hloop] at this
        obtain ⟨hne, hres⟩ := this
        refine ⟨List.forall_mem_cons.2 ⟨fun h => absurd h hi, hne⟩, .inr ?_⟩
        rcases hres with ⟨hres, -⟩ | ⟨j, hj, hrest⟩
        · exact ⟨i, List.mem_cons_self, hres, hi⟩
        · exact ⟨j, List.mem_cons_of_mem _ hj, hrest⟩

/-! ### The invariant -/

/-- `Stored`, with what its proof needs: a rule leads to a slot in use, and the slots in use store
different networks, each of them masked. -/
structure StoredInv (rules : L → UInt32 → UInt8 → Option UInt32) (hist : List (Call × ℤ))
    (r : RouterState L) : Prop where
  rule_slot : ∀ {n p h}, rules r.lpm n p = some h → h.toNat < maxRules ∧ InUse r h.toNat ∧
    r.ip h.toNat = n ∧ r.prefixLen h.toNat = p.toUInt32
  slot_rule : ∀ {i}, i < maxRules → InUse r i →
    rules r.lpm (r.ip i) (r.prefixLen i).toUInt8 = some i.toUInt32
  ip_inj : ∀ {i j}, i < maxRules → j < maxRules → InUse r i → InUse r j → r.ip i = r.ip j → i = j
  live : ∀ {ip prefixLen gw_ip}, LiveRoute hist ip prefixLen gw_ip → ∃ i < maxRules, InUse r i ∧
    r.ip i = ip &&& maskOf prefixLen ∧ r.prefixLen i = prefixLen ∧ r.gw_ip i = gw_ip ∧
    r.port_id i = (routePort r (ip &&& maskOf prefixLen) gw_ip).toNat.toUInt32

theorem StoredInv.stored (h : StoredInv rules hist r) : Stored rules hist r where
  rule_slot hr := by
    obtain ⟨h1, -, h2, h3⟩ := h.rule_slot hr
    exact ⟨h1, h2, h3⟩
  rule_inj {n p n' p' hop} hr hr' := by
    obtain ⟨-, -, hn, hp⟩ := h.rule_slot hr
    obtain ⟨-, -, hn', hp'⟩ := h.rule_slot hr'
    refine ⟨hn.symm.trans hn', ?_⟩
    have : p.toUInt32 = p'.toUInt32 := hp.symm.trans hp'
    apply UInt8.toNat_inj.1
    rw [← UInt8.toNat_toUInt32, this, UInt8.toNat_toUInt32]
  slot_rule := h.slot_rule
  live := h.live

theorem storedInv_empty (h : EmptyTable rules r) : StoredInv rules [] r := by
  have hfree : ∀ i, ¬ InUse r i := by
    intro i hi
    obtain ⟨h1, h2, h3, h4⟩ := h.1 i
    exact hi (by simp [isRoute, h1, h2, h3, h4])
  refine ⟨fun {n p hop} hr => ?_, fun {i} _ hi => absurd hi (hfree i), fun {i j} _ _ hi =>
    absurd hi (hfree i), fun hl => ?_⟩
  · rw [h.2 n p] at hr
    cases hr
  · obtain ⟨pre, post, hnil, -⟩ := hl
    simp at hnil

/-- The routes that are live after one more call. -/
theorem LiveRoute.concat {e : Call × ℤ} (h : LiveRoute (hist ++ [e]) ip prefixLen gw_ip) :
    e = (.addRoute ip prefixLen gw_ip, 1) ∨ (LiveRoute hist ip prefixLen gw_ip ∧
      ∀ ip', e = (.delRoute ip' prefixLen, 1) → ip' &&& maskOf prefixLen ≠ ip &&& maskOf prefixLen) := by
  obtain ⟨pre, post, heq, hno⟩ := h
  rcases List.eq_nil_or_concat' post with rfl | ⟨post, e', rfl⟩
  · obtain ⟨-, he⟩ := List.append_inj' heq rfl
    exact .inl (List.singleton_inj.1 he)
  · rw [← List.cons_append, ← List.append_assoc] at heq
    obtain ⟨hpre, he⟩ := List.append_inj' heq rfl
    have he := List.singleton_inj.1 he
    right
    refine ⟨⟨pre, post, hpre, fun ip' hm => hno ip' (List.mem_append_left _ hm)⟩, ?_⟩
    rintro ip' rfl
    exact hno ip' (by rw [← he]; simp)

/-! ### Adding a route -/

section SetRoute

variable {pos i : ℕ} {p g q : UInt32}

/-- Every slot but the one that is written stays as it is. -/
theorem setRoute_of_ne (h : i ≠ pos) :
    (r.setRoute pos ip p g q).ip i = r.ip i ∧ (r.setRoute pos ip p g q).prefixLen i = r.prefixLen i ∧
      (r.setRoute pos ip p g q).gw_ip i = r.gw_ip i ∧
      (r.setRoute pos ip p g q).port_id i = r.port_id i := by
  simp [RouterState.setRoute, h]

theorem setRoute_self (r : RouterState L) (pos : ℕ) (ip p g q : UInt32) :
    (r.setRoute pos ip p g q).ip pos = ip ∧ (r.setRoute pos ip p g q).prefixLen pos = p ∧
      (r.setRoute pos ip p g q).gw_ip pos = g ∧ (r.setRoute pos ip p g q).port_id pos = q := by
  simp [RouterState.setRoute]

theorem isRoute_setRoute_of_ne (h : i ≠ pos) :
    isRoute (r.setRoute pos ip p g q) i = isRoute r i := by
  simp [isRoute, RouterState.setRoute, h]

theorem isRoute_setRoute_self : isRoute (r.setRoute pos ip p g q) pos = q + g + ip + p := by
  simp [isRoute, RouterState.setRoute]

end SetRoute

theorem addRoute_ignored (lpm : RteLpm L) (r : RouterState L) (ip prefixLen gw_ip : UInt32) :
    addRoute lpm .ignored r ip prefixLen gw_ip = .ok (addRouteLocked lpm r ip prefixLen gw_ip) := rfl

/-- An `addRoute` that finds a slot. -/
theorem addRouteLocked_eq (spec : LpmSpec lpm rules) (hp : 1 ≤ prefixLen ∧ prefixLen ≤ 32)
    (hsub : InSubnet r (if gw_ip = 0 then ip &&& maskOf prefixLen else gw_ip)) {pos : ℕ}
    (hpos : freeSlotLoop r (ip &&& maskOf prefixLen) (List.range maxRules) none = some (some pos)) :
    ∃ table, addRouteLocked lpm r ip prefixLen gw_ip =
        (1, ({ r with lpm := table } : RouterState L).setRoute pos (ip &&& maskOf prefixLen) prefixLen
          gw_ip (routePort r (ip &&& maskOf prefixLen) gw_ip).toNat.toUInt32) ∧
      ∀ n p, rules table n p = if n = ip &&& maskOf prefixLen ∧ p = prefixLen.toUInt8 then
        some pos.toUInt32 else rules r.lpm n p := by
  obtain ⟨h1, h32⟩ := toUInt8_range hp.1 hp.2
  obtain ⟨hret, hrules⟩ := spec.add r.lpm (ip &&& maskOf prefixLen) prefixLen.toUInt8 pos.toUInt32
    h1 h32 (by rw [toUInt8_toUInt32 hp.2, and_mask])
  refine ⟨_, ?_, hrules⟩
  have hport : routePort ({ r with lpm := (lpm.add r.lpm (ip &&& maskOf prefixLen) prefixLen.toUInt8
      pos.toUInt32).2 } : RouterState L) (ip &&& maskOf prefixLen) gw_ip ≠ -1 := routePort_ne hsub
  simp only [addRouteLocked, hpos, hret, if_true, and_mask]
  rw [if_neg hport]
  rfl

/-- What an `addRoute` that succeeds writes: the route, in a free slot, and a rule that leads to it. No
slot in use has stored its network. -/
structure Fills (rules : L → UInt32 → UInt8 → Option UInt32) (r r' : RouterState L) (pos : ℕ)
    (net p g q : UInt32) : Prop where
  lt : pos < maxRules
  free : ¬ InUse r pos
  fresh : ∀ i < maxRules, InUse r i → r.ip i ≠ net
  le : p ≤ 32
  sum : q + g + net + p ≠ 0
  eq : ∃ table, r' = ({ r with lpm := table } : RouterState L).setRoute pos net p g q
  rule : ∀ n p', rules r'.lpm n p' =
    if n = net ∧ p' = p.toUInt8 then some pos.toUInt32 else rules r.lpm n p'

section Fills

variable {pos i j : ℕ} {net p g q : UInt32} (hf : Fills rules r r' pos net p g q)

include hf

theorem Fills.self : r'.ip pos = net ∧ r'.prefixLen pos = p ∧ r'.gw_ip pos = g ∧ r'.port_id pos = q := by
  obtain ⟨table, rfl⟩ := hf.eq
  exact setRoute_self _ _ _ _ _ _

theorem Fills.other (h : i ≠ pos) : r'.ip i = r.ip i ∧ r'.prefixLen i = r.prefixLen i ∧
    r'.gw_ip i = r.gw_ip i ∧ r'.port_id i = r.port_id i := by
  obtain ⟨table, rfl⟩ := hf.eq
  exact setRoute_of_ne h

theorem Fills.inUse : InUse r' pos := by
  obtain ⟨table, rfl⟩ := hf.eq
  rw [InUse, isRoute_setRoute_self]
  exact hf.sum

theorem Fills.inUse_iff (h : i ≠ pos) : InUse r' i ↔ InUse r i := by
  obtain ⟨table, rfl⟩ := hf.eq
  rw [InUse, isRoute_setRoute_of_ne h]
  rfl

/-- A slot in use is another one. -/
theorem Fills.ne (h : InUse r i) : i ≠ pos := by
  rintro rfl
  exact hf.free h

theorem Fills.routePort_eq (ip gw_ip : UInt32) : routePort r' ip gw_ip = routePort r ip gw_ip := by
  obtain ⟨table, rfl⟩ := hf.eq
  rfl

theorem Fills.rule_slot (h : StoredInv rules hist r) {n : UInt32} {p' : UInt8} {hop : UInt32}
    (hr : rules r'.lpm n p' = some hop) :
    hop.toNat < maxRules ∧ InUse r' hop.toNat ∧ r'.ip hop.toNat = n ∧
      r'.prefixLen hop.toNat = p'.toUInt32 := by
  rw [hf.rule] at hr
  split at hr
  · next hnp =>
    cases hr
    obtain ⟨rfl, rfl⟩ := hnp
    obtain ⟨hip, hpl, -⟩ := hf.self
    rw [toNat_toUInt32 hf.lt, hip, hpl, toUInt8_toUInt32 hf.le]
    exact ⟨hf.lt, hf.inUse, rfl, rfl⟩
  · obtain ⟨h1, h2, h3, h4⟩ := h.rule_slot hr
    obtain ⟨e1, e2, -⟩ := hf.other (hf.ne h2)
    rw [e1, e2, hf.inUse_iff (hf.ne h2)]
    exact ⟨h1, h2, h3, h4⟩

theorem Fills.slot_rule (h : StoredInv rules hist r) (hi : i < maxRules) (huse : InUse r' i) :
    rules r'.lpm (r'.ip i) (r'.prefixLen i).toUInt8 = some i.toUInt32 := by
  rw [hf.rule]
  by_cases hipos : i = pos
  · subst hipos
    obtain ⟨hip, hpl, -⟩ := hf.self
    rw [hip, hpl, if_pos ⟨rfl, rfl⟩]
  · rw [hf.inUse_iff hipos] at huse
    obtain ⟨e1, e2, -⟩ := hf.other hipos
    rw [e1, e2, if_neg fun hc => hf.fresh i hi huse hc.1]
    exact h.slot_rule hi huse

/-- No other slot stores the new network. -/
theorem Fills.eq_pos (hi : i < maxRules) (huse : InUse r' i) (hip : r'.ip i = net) : i = pos := by
  by_contra hne
  rw [hf.inUse_iff hne] at huse
  rw [(hf.other hne).1] at hip
  exact hf.fresh i hi huse hip

theorem Fills.ip_inj (h : StoredInv rules hist r) (hi : i < maxRules) (hj : j < maxRules)
    (hui : InUse r' i) (huj : InUse r' j) (heq : r'.ip i = r'.ip j) : i = j := by
  by_cases hi' : i = pos
  · rw [hi', hf.self.1] at heq
    rw [hi', hf.eq_pos hj huj heq.symm]
  · by_cases hj' : j = pos
    · rw [hj', hf.self.1] at heq
      exact absurd (hf.eq_pos hi hui heq) hi'
    · rw [(hf.other hi').1, (hf.other hj').1] at heq
      rw [hf.inUse_iff hi'] at hui
      rw [hf.inUse_iff hj'] at huj
      exact h.ip_inj hi hj hui huj heq

end Fills

/-- The invariant after a route has been written. -/
theorem StoredInv.fill {pos : ℕ} (h : StoredInv rules hist r)
    (hf : Fills rules r r' pos (ip &&& maskOf prefixLen) prefixLen gw_ip
      (routePort r (ip &&& maskOf prefixLen) gw_ip).toNat.toUInt32) :
    StoredInv rules (hist ++ [(.addRoute ip prefixLen gw_ip, 1)]) r' := by
  refine ⟨hf.rule_slot h, hf.slot_rule h, hf.ip_inj h, fun {ip' p' g'} hl => ?_⟩
  rw [hf.routePort_eq]
  rcases hl.concat with he | ⟨hl, -⟩
  · cases he
    exact ⟨pos, hf.lt, hf.inUse, hf.self⟩
  · obtain ⟨i, hi, huse, h1, h2, h3, h4⟩ := h.live hl
    obtain ⟨e1, e2, e3, e4⟩ := hf.other (hf.ne huse)
    exact ⟨i, hi, (hf.inUse_iff (hf.ne huse)).2 huse, e1.trans h1, e2.trans h2, e3.trans h3, e4.trans h4⟩

/-- A call that adds no route leaves no route to be stored. -/
theorem StoredInv.refused (h : StoredInv rules hist r) (c : Call) :
    StoredInv rules (hist ++ [(c, 0)]) r := by
  refine ⟨h.rule_slot, h.slot_rule, h.ip_inj, fun hl => ?_⟩
  rcases hl.concat with he | ⟨hl, -⟩
  · simp at he
  · exact h.live hl

theorem storedInv_addRoute (h : StoredInv rules hist r) (spec : LpmSpec lpm rules)
    (hdom : InDomain r (.addRoute ip prefixLen gw_ip)) (hsum : SumOk r (.addRoute ip prefixLen gw_ip)) :
    StoredInv rules (hist ++ [(.addRoute ip prefixLen gw_ip, (addRouteLocked lpm r ip prefixLen gw_ip).1)])
      (addRouteLocked lpm r ip prefixLen gw_ip).2 := by
  obtain ⟨hp, hsub⟩ := hdom
  have hspec := freeSlotLoop_spec (r := r) (ip &&& maskOf prefixLen) (List.range maxRules) none
  cases hloop : freeSlotLoop r (ip &&& maskOf prefixLen) (List.range maxRules) none with
  | none =>
    have hadd : addRouteLocked lpm r ip prefixLen gw_ip = (0, r) := by simp only [addRouteLocked, hloop]
    rw [hadd]
    exact h.refused _
  | some res =>
    rw [hloop] at hspec
    obtain ⟨hne, hres⟩ := hspec
    rcases hres with ⟨rfl, -⟩ | ⟨pos, hpos, rfl, hfree⟩
    · have hadd : addRouteLocked lpm r ip prefixLen gw_ip = (0, r) := by
        simp only [addRouteLocked, hloop]
      rw [hadd]
      exact h.refused _
    · have hlt : pos < maxRules := List.mem_range.1 hpos
      have hfresh : ∀ i < maxRules, InUse r i → r.ip i ≠ ip &&& maskOf prefixLen := fun i hi =>
        hne i (List.mem_range.2 hi)
      obtain ⟨table, hadd, hrules⟩ := addRouteLocked_eq spec hp hsub hloop
      have hsum : (routePort r (ip &&& maskOf prefixLen) gw_ip).toNat.toUInt32 + gw_ip +
          (ip &&& maskOf prefixLen) + prefixLen ≠ 0 := by
        rcases hsum with ⟨i, hi, huse, heq⟩ | hall | hsum
        · exact absurd heq (hfresh i hi huse)
        · exact absurd (hall pos hlt) hfree
        · exact hsum
      rw [hadd]
      exact h.fill ⟨hlt, hfree, hfresh, hp.2, hsum, ⟨table, rfl⟩, hrules⟩

/-! ### Deleting a route -/

/-- The invariant does not depend on how the library represents its rules. -/
theorem StoredInv.congr (h : StoredInv rules hist r) {table : L}
    (ht : ∀ n p, rules table n p = rules r.lpm n p) : StoredInv rules hist { r with lpm := table } where
  rule_slot {n p hop} hr := by
    replace hr : rules table n p = some hop := hr
    rw [ht] at hr
    exact h.rule_slot hr
  slot_rule hi huse := (ht _ _).trans (h.slot_rule hi huse)
  ip_inj := h.ip_inj
  live := h.live

/-- A slot that stores the network: the library is asked for its rule. -/
theorem delRouteLoop_found {net : UInt32} {i : ℕ} {slots : List ℕ} (h : isRoute r i ≠ 0 ∧ net = r.ip i) :
    delRouteLoop lpm .ignored net prefixLen (i :: slots) r =
      if (lpm.delete r.lpm net prefixLen.toUInt8).1 = 0 then
        .ok (1, ({ r with lpm := (lpm.delete r.lpm net prefixLen.toUInt8).2 } :
          RouterState L).setRoute i 0 0 0 0)
      else delRouteLoop lpm .ignored net prefixLen slots
        { r with lpm := (lpm.delete r.lpm net prefixLen.toUInt8).2 } := by
  conv_lhs => unfold delRouteLoop
  rw [if_pos h]
  rfl

theorem delRouteLoop_other {net : UInt32} {i : ℕ} {slots : List ℕ} (h : ¬ (isRoute r i ≠ 0 ∧ net = r.ip i)) :
    delRouteLoop lpm .ignored net prefixLen (i :: slots) r =
      delRouteLoop lpm .ignored net prefixLen slots r := by
  conv_lhs => unfold delRouteLoop
  rw [if_neg h]

/-- The search deletes the one slot that stores the route, or leaves every slot and rule alone. -/
theorem delRouteLoop_spec (spec : LpmSpec lpm rules) (hp : 1 ≤ prefixLen ∧ prefixLen ≤ 32) {net : UInt32}
    (hnet : net &&& maskOf prefixLen = net) : ∀ (slots : List ℕ) (r : RouterState L),
    StoredInv rules hist r → (∀ i ∈ slots, i < maxRules) →
    (∃ table, delRouteLoop lpm .ignored net prefixLen slots r = .ok (0, { r with lpm := table }) ∧
      ∀ n q, rules table n q = rules r.lpm n q) ∨
    ∃ table i, delRouteLoop lpm .ignored net prefixLen slots r =
        .ok (1, ({ r with lpm := table } : RouterState L).setRoute i 0 0 0 0) ∧ i < maxRules ∧
      InUse r i ∧ r.ip i = net ∧ r.prefixLen i = prefixLen ∧
      ∀ n q, rules table n q =
        if n = net ∧ q = prefixLen.toUInt8 then none else rules r.lpm n q := by
  intro slots
  induction slots with
  | nil => exact fun r _ _ => .inl ⟨r.lpm, rfl, fun _ _ => rfl⟩
  | cons i slots ih =>
    intro r h hlt
    have hlt' : ∀ j ∈ slots, j < maxRules := fun j hj => hlt j (List.mem_cons_of_mem _ hj)
    by_cases hi : isRoute r i ≠ 0 ∧ net = r.ip i
    · obtain ⟨h1, h32⟩ := toUInt8_range hp.1 hp.2
      obtain ⟨hret, hrules⟩ := spec.delete r.lpm net prefixLen.toUInt8 h1 h32
        (by rw [toUInt8_toUInt32 hp.2, hnet])
      rw [delRouteLoop_found hi]
      by_cases hzero : (lpm.delete r.lpm net prefixLen.toUInt8).1 = 0
      · rw [if_pos hzero]
        right
        -- the rule leads to the slot of its network, which is this one
        obtain ⟨hop, hhop⟩ := Option.isSome_iff_exists.1 (hret.1 hzero)
        obtain ⟨g1, g2, g3, g4⟩ := h.rule_slot hhop
        have hieq : hop.toNat = i := h.ip_inj g1 (hlt i List.mem_cons_self) g2 hi.1 (g3.trans hi.2)
        rw [hieq, toUInt8_toUInt32 hp.2] at g4
        exact ⟨_, i, rfl, hlt i List.mem_cons_self, hi.1, hi.2.symm, g4, hrules⟩
      · rw [if_neg hzero]
        -- the library does not have the rule: another prefix length of the same network
        have hno : rules r.lpm net prefixLen.toUInt8 = none :=
          Option.not_isSome_iff_eq_none.1 fun hs => hzero (hret.2 hs)
        have hsame : ∀ n q, rules (lpm.delete r.lpm net prefixLen.toUInt8).2 n q = rules r.lpm n q := by
          intro n q
          rw [hrules]
          split
          · next hnq => rw [hnq.1, hnq.2, hno]
          · rfl
        rcases ih _ (h.congr hsame) hlt' with ⟨table, hloop, ht⟩ | ⟨table, j, hloop, hj⟩
        · exact .inl ⟨table, hloop, fun n q => (ht n q).trans (hsame n q)⟩
        · obtain ⟨hjlt, huse, hjip, hjp, ht⟩ := hj
          refine .inr ⟨table, j, hloop, hjlt, huse, hjip, hjp, fun n q => ?_⟩
          rw [ht]
          split
          · rfl
          · exact hsame n q
    · rw [delRouteLoop_other hi]
      exact ih r h hlt'

theorem delRoute_ignored (lpm : RteLpm L) (r : RouterState L) (ip prefixLen : UInt32) :
    delRoute lpm .ignored r ip prefixLen =
      delRouteLoop lpm .ignored (ip &&& maskOf prefixLen) prefixLen (List.range maxRules) r := by
  show Except.bind (delRouteLoop lpm .ignored (ip &&& maskOf prefixLen) prefixLen
    (List.range maxRules) r) _ = _
  cases delRouteLoop lpm .ignored (ip &&& maskOf prefixLen) prefixLen (List.range maxRules) r <;> rfl

theorem storedInv_delRoute (h : StoredInv rules hist r) (spec : LpmSpec lpm rules) (ip : UInt32)
    (hp : 1 ≤ prefixLen ∧ prefixLen ≤ 32) :
    ∃ ret r', delRoute lpm .ignored r ip prefixLen = .ok (ret, r') ∧
      r'.localPortInfo = r.localPortInfo ∧
      StoredInv rules (hist ++ [(.delRoute ip prefixLen, ret)]) r' := by
  rw [delRoute_ignored]
  rcases delRouteLoop_spec spec hp (and_mask ip (maskOf prefixLen)) (List.range maxRules) r h
    (fun i hi => List.mem_range.1 hi) with ⟨table, hloop, ht⟩ | ⟨table, pos, hloop, hlt, huse, hip, hpl, ht⟩
  · refine ⟨0, _, hloop, rfl, ?_⟩
    exact (h.congr ht).refused _
  · refine ⟨1, _, hloop, rfl, ?_⟩
    set r₁ : RouterState L := { r with lpm := table }
    have hne : ∀ {i}, InUse (r₁.setRoute pos 0 0 0 0) i → i ≠ pos := by
      rintro i hi rfl
      rw [InUse, isRoute_setRoute_self] at hi
      exact hi rfl
    have hold : ∀ {i}, InUse (r₁.setRoute pos 0 0 0 0) i → InUse r i := by
      intro i hi
      have hn := hne hi
      rwa [InUse, isRoute_setRoute_of_ne hn] at hi
    refine ⟨fun {n p hop} hr => ?_, fun {i} hi hui => ?_, fun {i j} hi hj hui huj heq => ?_,
      fun {ip' p' g'} hl => ?_⟩
    · replace hr : rules table n p = some hop := hr
      rw [ht] at hr
      split at hr
      · cases hr
      · next hnp =>
        obtain ⟨h1, h2, h3, h4⟩ := h.rule_slot hr
        have hhop : hop.toNat ≠ pos := by
          intro hc
          rw [hc] at h3 h4
          refine hnp ⟨h3.symm.trans hip, ?_⟩
          have : p.toUInt32 = prefixLen := h4.symm.trans hpl
          apply UInt8.toNat_inj.1
          rw [← UInt8.toNat_toUInt32, this, UInt32.toNat_toUInt8]
          have : prefixLen.toNat ≤ 32 := UInt32.le_iff_toNat_le.1 hp.2
          omega
        obtain ⟨e1, e2, -, -⟩ := setRoute_of_ne (r := r₁) hhop
        rw [e1, e2, InUse, isRoute_setRoute_of_ne hhop]
        exact ⟨h1, h2, h3, h4⟩
    · obtain ⟨e1, e2, -, -⟩ := setRoute_of_ne (r := r₁) (hne hui)
      show rules table _ _ = _
      rw [ht, e1, e2, if_neg]
      · exact h.slot_rule hi (hold hui)
      · rintro ⟨hc, -⟩
        exact hne hui (h.ip_inj hi hlt (hold hui) huse (hc.trans hip.symm))
    · obtain ⟨e1, -⟩ := setRoute_of_ne (r := r₁) (hne hui)
      obtain ⟨e2, -⟩ := setRoute_of_ne (r := r₁) (hne huj)
      rw [e1, e2] at heq
      exact h.ip_inj hi hj (hold hui) (hold huj) heq
    · rcases hl.concat with he | ⟨hl, hno⟩
      · simp at he
      · obtain ⟨i, hi, hui, h1, h2, h3, h4⟩ := h.live hl
        have hipos : i ≠ pos := by
          rintro rfl
          rw [h2] at hpl
          subst hpl
          exact hno ip rfl (hip.symm.trans h1)
        obtain ⟨e1, e2, e3, e4⟩ := setRoute_of_ne (r := r₁) hipos
        refine ⟨i, hi, ?_, e1.trans h1, e2.trans h2, e3.trans h3, e4.trans h4⟩
        rw [InUse, isRoute_setRoute_of_ne hipos]
        exact hui

/-! ### Runs -/

/-- A call of a run, with what it returns. -/
def Step (lpm : RteLpm L) (r : RouterState L) (e : Call × ℤ) (r' : RouterState L) : Prop :=
  InDomain r e.1 ∧ e.1.run lpm .ignored r = .ok (e.2, r')

theorem step_addRoute (hdom : InDomain r (.addRoute ip prefixLen gw_ip)) {ret : ℤ}
    (hret : (addRouteLocked lpm r ip prefixLen gw_ip).1 = ret) :
    Step lpm r (.addRoute ip prefixLen gw_ip, ret) (addRouteLocked lpm r ip prefixLen gw_ip).2 := by
  refine ⟨hdom, ?_⟩
  show addRoute lpm .ignored r ip prefixLen gw_ip = _
  rw [addRoute_ignored, ← hret]

/-- **One call** keeps the invariant. -/
theorem storedInv_step (spec : LpmSpec lpm rules) {e : Call × ℤ} (h : StoredInv rules hist r)
    (hstep : Step lpm r e r') (hsum : SumOk r e.1) : StoredInv rules (hist ++ [e]) r' := by
  obtain ⟨c, ret⟩ := e
  obtain ⟨hdom, hrun⟩ := hstep
  cases c with
  | addRoute ip prefixLen gw_ip =>
    have hrun : addRoute lpm .ignored r ip prefixLen gw_ip = .ok (ret, r') := hrun
    rw [addRoute_ignored] at hrun
    have hinv := storedInv_addRoute h spec hdom hsum
    rw [Except.ok.inj hrun] at hinv
    exact hinv
  | delRoute ip prefixLen =>
    obtain ⟨ret', r'', hdel, -, hinv⟩ := storedInv_delRoute h spec ip hdom
    have hrun : delRoute lpm .ignored r ip prefixLen = .ok (ret, r') := hrun
    rw [hrun] at hdel
    cases hdel
    exact hinv
  | findRoute => exact hdom.elim
  | dumpRoute => exact hdom.elim
  | ifconfig => exact hdom.elim

/-- **Rules and slots stay in bijection**, and every live route is stored, in every run none of
whose new routes sums up to 0. -/
theorem run_stored (lpm : RteLpm L) (rules : L → UInt32 → UInt8 → Option UInt32)
    (spec : LpmSpec lpm rules) (r₀ r : RouterState L) (hempty : EmptyTable rules r₀)
    (hist : List (Call × ℤ))
    (hrun : Trace (fun r e r' => Step lpm r e r' ∧ SumOk r e.1) r₀ hist r) :
    Stored rules hist r := by
  have hinv : StoredInv rules hist r := by
    refine Trace.inv_events (fun hist s e s' hs hstep => ?_) hrun (storedInv_empty hempty)
    exact storedInv_step spec hs hstep.1 hstep.2
  exact hinv.stored

/-! ### Two routes -/

/-- An empty table behind a port with the address 63.87.54.1/24. -/
def onePort : RouterState (List LpmRule) :=
  { registRoutingModule [] with
    localPortInfo := fun i =>
      if i = 0 then { name := "dpdk0", ip := 0x3F573601, prefixLen := 24 } else { name := "dpdk1" } }

theorem onePort_empty : EmptyTable ruleOf onePort :=
  ⟨fun _ => ⟨rfl, rfl, rfl, rfl⟩, fun _ _ => rfl⟩

/-- 10.1.0.0/16 via 63.87.54.2. -/
theorem run_stored_onePort :
    Stored ruleOf [(.addRoute 0x0A010000 16 0x3F573602, 1)]
      (addRouteLocked lpmRules onePort 0x0A010000 16 0x3F573602).2 := by
  have hdom : InDomain onePort (.addRoute 0x0A010000 16 0x3F573602) :=
    ⟨⟨by decide, by decide⟩, 0, by decide, by decide +kernel⟩
  have hsum : SumOk onePort (.addRoute 0x0A010000 16 0x3F573602) := .inr (.inr (by decide +kernel))
  exact run_stored lpmRules ruleOf lpmRules_spec onePort _ onePort_empty _
    (Trace.single ⟨step_addRoute hdom (by decide +kernel), hsum⟩)

/-- 192.168.201.0/24 via 63.87.54.232 at port 0: the words of this route sum up to 0, and the next
route takes its slot. -/
theorem zero_sum_route_lost :
    ¬ ∀ (hist : List (Call × ℤ)) (r : RouterState (List LpmRule)),
      Trace (Step lpmRules) onePort hist r → Stored ruleOf hist r := by
  intro hall
  set r₁ := (addRouteLocked lpmRules onePort 0xC0A8C900 24 0x3F5736E8).2 with hr₁
  set r₂ := (addRouteLocked lpmRules r₁ 0x0A010000 16 0x3F573602).2 with hr₂
  have hdom₁ : InDomain onePort (.addRoute 0xC0A8C900 24 0x3F5736E8) :=
    ⟨⟨by decide, by decide⟩, 0, by decide, by decide +kernel⟩
  have hdom₂ : InDomain r₁ (.addRoute 0x0A010000 16 0x3F573602) :=
    ⟨⟨by decide, by decide⟩, 0, by decide, by decide +kernel⟩
  have hstored := hall [(.addRoute 0xC0A8C900 24 0x3F5736E8, 1), (.addRoute 0x0A010000 16 0x3F573602, 1)]
    r₂ (.cons (step_addRoute hdom₁ (by decide +kernel))
      (.cons (step_addRoute hdom₂ (by decide +kernel)) (.nil _)))
  have hlost : ¬ ∃ i < maxRules, r₂.ip i = 0xC0A8C900 &&& maskOf 24 := by decide +kernel
  obtain ⟨i, hi, -, hip, -⟩ := hstored.live
    (show LiveRoute _ 0xC0A8C900 24 0x3F5736E8 from ⟨[], _, rfl, by simp⟩)
  exact hlost ⟨i, hi, hip⟩

end FlowQoS.Router
