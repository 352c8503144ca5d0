import FlowQoS.Router.Slots
import FlowQoS.Router.Locks

/-!
# What an addition leaves behind

`flowQoS_router_addRoute` puts the rule into the LPM table before it looks at the gateway, and takes it out
again nowhere: a call that fails because the gateway is in the network of no port leaves its rule behind
(`addRoute_atomic_iff`), which leads to the slot the next route is stored in.

The search of `addRoute` compares networks only, so a network has one route at a time, whatever the prefix
length (`addRoute_succeeds_iff`). Where the network is new, `delRoute` takes out exactly the route that has
been added, unless its words sum up to 0 or the lookup waits for the lock of its caller (`coexists_iff`).

The library may refuse a rule (`LpmLaws`).
-/

namespace FlowQoS.Router

variable {L : Type} {lpm : RteLpm L} {rules : L → UInt32 → UInt8 → Option UInt32} {sem : Locking}
  {r r' : RouterState L} {ip prefixLen gw_ip : UInt32}

/-! ### The exits of an addition -/

/-- A slot in use stores the network. -/
def StoresNet (r : RouterState L) (net : UInt32) : Prop := ∃ i < maxRules, InUse r i ∧ r.ip i = net

/-- The free slot that `addRoute` finds: the last one. -/
def lastFree (r : RouterState L) : Option ℕ :=
  ((List.range maxRules).filter fun i => decide (¬ InUse r i)).getLast?

theorem freeSlotLoop_eq (net : UInt32) : ∀ (is : List ℕ) (pos : Option ℕ),
    ((∃ i ∈ is, InUse r i ∧ r.ip i = net) → freeSlotLoop r net is pos = none) ∧
    ((∀ i ∈ is, InUse r i → r.ip i ≠ net) → freeSlotLoop r net is pos =
      some ((is.filter fun i => decide (¬ InUse r i)).getLast?.or pos)) := by
  intro is
  induction is with
  | nil => simp [freeSlotLoop]
  | cons i is ih =>
    intro pos
    by_cases hi : InUse r i
    · by_cases hip : net = r.ip i
      · rw [freeSlotLoop, if_pos hi, if_pos hip]
        exact ⟨fun _ => rfl, fun hall => absurd hip.symm (hall i List.mem_cons_self hi)⟩
      · rw [freeSlotLoop, if_pos hi, if_neg hip, List.filter_cons_of_neg (by simpa using hi)]
        refine ⟨?_, fun hall => (ih pos).2 fun j hj => hall j (List.mem_cons_of_mem _ hj)⟩
        rintro ⟨j, hj, huse, heq⟩
        rcases List.mem_cons.1 hj with rfl | hj
        · exact absurd heq.symm hip
        · exact (ih pos).1 ⟨j, hj, huse, heq⟩
    · rw [freeSlotLoop, if_neg hi, List.filter_cons_of_pos (by simpa using hi), List.getLast?_cons]
      refine ⟨?_, fun hall => ?_⟩
      · rintro ⟨j, hj, huse, heq⟩
        rcases List.mem_cons.1 hj with rfl | hj
        · exact absurd huse hi
        · exact (ih _).1 ⟨j, hj, huse, heq⟩
      · rw [(ih _).2 fun j hj => hall j (List.mem_cons_of_mem _ hj)]
        cases (is.filter fun i => decide (¬ InUse r i)).getLast? <;> rfl

theorem freeSlotLoop_stores {net : UInt32} (h : StoresNet r net) :
    freeSlotLoop r net (List.range maxRules) none = none := by
  obtain ⟨i, hi, hrest⟩ := h
  exact (freeSlotLoop_eq net (List.range maxRules) none).1 ⟨i, List.mem_range.2 hi, hrest⟩

theorem freeSlotLoop_new {net : UInt32} (h : ¬ StoresNet r net) :
    freeSlotLoop r net (List.range maxRules) none = some (lastFree r) := by
  rw [(freeSlotLoop_eq net (List.range maxRules) none).2, Option.or_none]
  · rfl
  · exact fun i hi huse heq => h ⟨i, List.mem_range.1 hi, huse, heq⟩

theorem lastFree_spec {pos : ℕ} (h : lastFree r = some pos) : pos < maxRules ∧ ¬ InUse r pos := by
  have hmem := List.mem_of_getLast? h
  rw [List.mem_filter, List.mem_range] at hmem
  exact ⟨hmem.1, of_decide_eq_true hmem.2⟩

theorem routePort_eq_iff (net : UInt32) :
    routePort r net gw_ip = -1 ↔ ¬ InSubnet r (if gw_ip = 0 then net else gw_ip) := by
  have hloop : ∀ tip, isLocalIP r tip = -1 ↔ ¬ InSubnet r tip := by
    intro tip
    unfold isLocalIP InSubnet
    rw [isLocalIPLoop_eq]
    constructor
    · rintro h ⟨i, hi, heq⟩
      exact h i (List.mem_range.2 hi) heq
    · exact fun h i hi heq => h ⟨i, List.mem_range.1 hi, heq⟩
  unfold routePort
  split
  · exact hloop net
  · exact hloop gw_ip

/-- The gateway, or the network of a route without one, is in the network of a port. -/
def Local (r : RouterState L) (ip prefixLen gw_ip : UInt32) : Prop :=
  InSubnet r (if gw_ip = 0 then ip &&& maskOf prefixLen else gw_ip)

/-- What the library answers to the rule of a route. -/
abbrev added (lpm : RteLpm L) (r : RouterState L) (ip prefixLen : UInt32) (pos : ℕ) : ℤ × L :=
  lpm.add r.lpm (ip &&& maskOf prefixLen) prefixLen.toUInt8 pos.toUInt32

/-- **The exits** of `flowQoS_router_addRoute`: the network has a route or no slot is free, the library
refuses the rule, the gateway is not local, and success. -/
inductive Exit (lpm : RteLpm L) (r : RouterState L) (ip prefixLen gw_ip : UInt32) :
    ℤ × RouterState L → Prop
  | early : StoresNet r (ip &&& maskOf prefixLen) ∨ lastFree r = none → Exit lpm r ip prefixLen gw_ip (0, r)
  | refused {pos : ℕ} : ¬ StoresNet r (ip &&& maskOf prefixLen) → lastFree r = some pos →
    (added lpm r ip prefixLen pos).1 ≠ 0 →
    Exit lpm r ip prefixLen gw_ip (0, { r with lpm := (added lpm r ip prefixLen pos).2 })
  | notLocal {pos : ℕ} : ¬ StoresNet r (ip &&& maskOf prefixLen) → lastFree r = some pos →
    (added lpm r ip prefixLen pos).1 = 0 → ¬ Local r ip prefixLen gw_ip →
    Exit lpm r ip prefixLen gw_ip (0, { r with lpm := (added lpm r ip prefixLen pos).2 })
  | ok {pos : ℕ} : ¬ StoresNet r (ip &&& maskOf prefixLen) → lastFree r = some pos →
    (added lpm r ip prefixLen pos).1 = 0 → Local r ip prefixLen gw_ip →
    Exit lpm r ip prefixLen gw_ip
      (1, ({ r with lpm := (added lpm r ip prefixLen pos).2 } : RouterState L).setRoute pos
        (ip &&& maskOf prefixLen) prefixLen gw_ip
        (routePort r (ip &&& maskOf prefixLen) gw_ip).toNat.toUInt32)

theorem addRouteLocked_exit (lpm : RteLpm L) (r : RouterState L) (ip prefixLen gw_ip : UInt32) :
    Exit lpm r ip prefixLen gw_ip (addRouteLocked lpm r ip prefixLen gw_ip) := by
  unfold addRouteLocked
  by_cases hnet : StoresNet r (ip &&& maskOf prefixLen)
  · simp only [freeSlotLoop_stores hnet]
    exact .early (.inl hnet)
  · simp only [freeSlotLoop_new hnet]
    cases hpos : lastFree r with
    | none => exact .early (.inr hpos)
    | some pos =>
      by_cases hret : (added lpm r ip prefixLen pos).1 = 0
      · have hport : routePort ({ r with lpm := (added lpm r ip prefixLen pos).2 } : RouterState L)
            (ip &&& maskOf prefixLen) gw_ip = routePort r (ip &&& maskOf prefixLen) gw_ip := rfl
        simp only [hret, if_true, hport, and_mask]
        by_cases hlocal : Local r ip prefixLen gw_ip
        · have hne : routePort r (ip &&& maskOf prefixLen) gw_ip ≠ -1 := routePort_ne hlocal
          rw [if_neg hne]
          exact .ok hnet hpos hret hlocal
        · rw [if_pos ((routePort_eq_iff _).2 hlocal)]
          exact .notLocal hnet hpos hret hlocal
      · simp only [if_neg hret]
        exact .refused hnet hpos hret

/-! ### Additions that fail -/

/-- The rules and the route arrays are the same. -/
structure SameTable (rules : L → UInt32 → UInt8 → Option UInt32) (r r' : RouterState L) : Prop where
  rules : ∀ n p, rules r'.lpm n p = rules r.lpm n p
  ip : r'.ip = r.ip
  prefixLen : r'.prefixLen = r.prefixLen
  gw_ip : r'.gw_ip = r.gw_ip
  port_id : r'.port_id = r.port_id

/-- The addition leaves its rule behind: a slot is free for a new network, the library takes the rule and
did not have it, and the gateway is not local. -/
def LeavesRule (lpm : RteLpm L) (rules : L → UInt32 → UInt8 → Option UInt32) (r : RouterState L)
    (ip prefixLen gw_ip : UInt32) : Prop :=
  ¬ StoresNet r (ip &&& maskOf prefixLen) ∧ ¬ Local r ip prefixLen gw_ip ∧
    ∃ pos, lastFree r = some pos ∧ (added lpm r ip prefixLen pos).1 = 0 ∧
      rules r.lpm (ip &&& maskOf prefixLen) prefixLen.toUInt8 ≠ some pos.toUInt32

section Laws

variable (laws : LpmLaws lpm rules) (hp : 1 ≤ prefixLen ∧ prefixLen ≤ 32)

include laws hp

theorem added_ok {pos : ℕ} (h : (added lpm r ip prefixLen pos).1 = 0) (n : UInt32) (p : UInt8) :
    rules (added lpm r ip prefixLen pos).2 n p =
      if n = ip &&& maskOf prefixLen ∧ p = prefixLen.toUInt8 then some pos.toUInt32
      else rules r.lpm n p := by
  obtain ⟨h1, h32⟩ := toUInt8_range hp.1 hp.2
  exact laws.add_ok _ _ _ _ h1 h32 (by rw [toUInt8_toUInt32 hp.2, and_mask]) h n p

theorem added_fail {pos : ℕ} (h : (added lpm r ip prefixLen pos).1 ≠ 0) (n : UInt32) (p : UInt8) :
    rules (added lpm r ip prefixLen pos).2 n p = rules r.lpm n p := by
  obtain ⟨h1, h32⟩ := toUInt8_range hp.1 hp.2
  exact laws.add_fail _ _ _ _ h1 h32 (by rw [toUInt8_toUInt32 hp.2, and_mask]) h n p

/-- An addition that fails changes nothing exactly if it leaves no rule behind. -/
theorem Exit.sameTable_iff {x : ℤ × RouterState L} (h : Exit lpm r ip prefixLen gw_ip x) :
    (x.1 = 0 → SameTable rules r x.2) ↔ ¬ LeavesRule lpm rules r ip prefixLen gw_ip := by
  cases h with
  | early hno =>
    refine ⟨fun _ hleaves => ?_, fun _ _ => ⟨fun _ _ => rfl, rfl, rfl, rfl, rfl⟩⟩
    obtain ⟨hnet, -, pos, hpos, -⟩ := hleaves
    rcases hno with h | h
    · exact hnet h
    · rw [h] at hpos
      cases hpos
  | refused hnet hpos hret =>
    refine ⟨fun _ hleaves => ?_, fun _ _ => ⟨added_fail laws hp hret, rfl, rfl, rfl, rfl⟩⟩
    obtain ⟨-, -, pos', hpos', hret', -⟩ := hleaves
    rw [hpos] at hpos'
    cases hpos'
    exact hret hret'
  | @notLocal pos hnet hpos hret hlocal =>
    have hrules := added_ok laws hp hret
    constructor
    · rintro hsame ⟨-, -, pos', hpos', -, hne⟩
      rw [hpos] at hpos'
      cases hpos'
      have hnew := (hsame rfl).rules (ip &&& maskOf prefixLen) prefixLen.toUInt8
      change rules (added lpm r ip prefixLen pos).2 _ _ = _ at hnew
      rw [hrules, if_pos ⟨rfl, rfl⟩] at hnew
      exact hne hnew.symm
    · intro hno _
      have hold : rules r.lpm (ip &&& maskOf prefixLen) prefixLen.toUInt8 = some pos.toUInt32 := by
        by_contra hne
        exact hno ⟨hnet, hlocal, pos, hpos, hret, hne⟩
      refine ⟨fun n p => ?_, rfl, rfl, rfl, rfl⟩
      show rules (added lpm r ip prefixLen pos).2 n p = rules r.lpm n p
      rw [hrules]
      split
      · next h =>
        rw [h.1, h.2, hold]
      · rfl
  | ok _ _ _ hlocal =>
    exact ⟨fun _ hleaves => hleaves.2.1 hlocal, fun _ hone => by cases hone⟩

end Laws

theorem addRoute_eq_ok {ret : ℤ} (h : addRoute lpm sem r ip prefixLen gw_ip = .ok (ret, r')) :
    ∃ lock, sem.writeLock r.lock = .ok lock ∧
      ret = (addRouteLocked lpm { r with lock := lock } ip prefixLen gw_ip).1 ∧
      r' = { (addRouteLocked lpm { r with lock := lock } ip prefixLen gw_ip).2 with
        lock := sem.writeUnlock
          (addRouteLocked lpm { r with lock := lock } ip prefixLen gw_ip).2.lock } := by
  unfold addRoute at h
  obtain ⟨lock, hlock, h⟩ := bind_eq_ok.1 h
  cases h
  exact ⟨lock, hlock, rfl, rfl⟩

/-- **Failing additions.** In every state an addition that fails leaves rules and routes as they were,
exactly if its rule is not left behind for a gateway that is not local. -/
theorem addRoute_atomic_iff (laws : LpmLaws lpm rules) (hp : 1 ≤ prefixLen ∧ prefixLen ≤ 32) {ret : ℤ}
    (hrun : addRoute lpm sem r ip prefixLen gw_ip = .ok (ret, r')) :
    (ret = 0 → SameTable rules r r') ↔ ¬ LeavesRule lpm rules r ip prefixLen gw_ip := by
  obtain ⟨lock, -, rfl, rfl⟩ := addRoute_eq_ok hrun
  have hexit := addRouteLocked_exit lpm { r with lock := lock } ip prefixLen gw_ip
  have hiff := hexit.sameTable_iff laws hp
  refine Iff.trans ⟨fun h hzero => ?_, fun h hzero => ?_⟩ hiff
  · obtain ⟨h1, h2, h3, h4, h5⟩ := h hzero
    exact ⟨h1, h2, h3, h4, h5⟩
  · obtain ⟨h1, h2, h3, h4, h5⟩ := h hzero
    exact ⟨h1, h2, h3, h4, h5⟩

/-- What a call returns, and the state after it. -/
def outcome (x : Except Fault (ℤ × RouterState L)) (r : RouterState L) : ℤ × RouterState L :=
  match x with
  | .ok y => y
  | .error _ => (-1, r)

theorem outcome_eq {x : Except Fault (ℤ × RouterState L)} (h : (outcome x r).1 ≠ -1) :
    x = .ok ((outcome x r).1, (outcome x r).2) := by
  cases x with
  | ok y => rfl
  | error e => exact absurd rfl h

/-- 10.1.0.0/16 via 10.9.9.9, which is in the network of no port. -/
def strayRoute : ℤ × RouterState (List LpmRule) :=
  outcome (addRoute lpmRules .rwlock onePort 0x0A010000 16 0x0A090909) onePort

theorem strayRoute_eq : addRoute lpmRules .rwlock onePort 0x0A010000 16 0x0A090909 =
    .ok (strayRoute.1, strayRoute.2) :=
  outcome_eq (show strayRoute.1 ≠ -1 by decide +kernel)

theorem addRoute_atomic_iff_onePort : strayRoute.1 = 0 ∧ ((strayRoute.1 = 0 →
    SameTable ruleOf onePort strayRoute.2) ↔
      ¬ LeavesRule lpmRules ruleOf onePort 0x0A010000 16 0x0A090909) :=
  ⟨by decide +kernel, addRoute_atomic_iff lpmRules_spec.laws (by decide) strayRoute_eq⟩

/-- The addition fails and leaves its rule behind: after the next addition, of 10.2.0.0/16 via 63.87.54.2,
an address in 10.1.0.0/16 has a route, the one to 10.2.0.0/16. -/
theorem stray_rule_reused :
    let added := outcome (addRoute lpmRules .rwlock strayRoute.2 0x0A020000 16 0x3F573602) strayRoute.2
    strayRoute.1 = 0 ∧ ¬ SameTable ruleOf onePort strayRoute.2 ∧ added.1 = 1 ∧
      (findRoute lpmRules .rwlock onePort 0x0A010101).map (fun x => x.1.ret) = .ok 0 ∧
      (findRoute lpmRules .rwlock added.2 0x0A010101).map (fun x => (x.1.ret, x.1.gw_ip)) =
        .ok (1, 0x3F573602) := by
  refine ⟨by decide +kernel, fun hsame => ?_, by decide +kernel, rfl, by decide +kernel⟩
  have hrule := hsame.rules 0x0A010000 16
  revert hrule
  decide +kernel

/-! ### Routes of one network -/

/-- The route that a slot in use stores. -/
structure StoredRoute where
  ip : UInt32
  prefixLen : UInt32
  gw_ip : UInt32
  port_id : UInt32

def routeAt (r : RouterState L) (i : ℕ) : Option StoredRoute :=
  if InUse r i then some ⟨r.ip i, r.prefixLen i, r.gw_ip i, r.port_id i⟩ else none

/-- A route that is not stored, with a local gateway, which a free slot and the library can take; nobody
holds the lock. -/
structure Admissible (lpm : RteLpm L) (r : RouterState L) (ip prefixLen gw_ip : UInt32) : Prop where
  range : 1 ≤ prefixLen ∧ prefixLen ≤ 32
  isLocal : Local r ip prefixLen gw_ip
  room : ((List.range maxRules).filter fun i => decide (InUse r i)).length < maxRules
  new : ∀ i < maxRules, InUse r i → ¬ (r.ip i = ip &&& maskOf prefixLen ∧ r.prefixLen i = prefixLen)
  accepted : ∀ pos, lastFree r = some pos → (added lpm r ip prefixLen pos).1 = 0
  free : r.lock = 0

/-- The one route that goes is that of the network with the prefix length; its rule goes with it. -/
structure RemovesOne (rules : L → UInt32 → UInt8 → Option UInt32) (r r' : RouterState L)
    (net prefixLen : UInt32) : Prop where
  stored : ∃ i < maxRules, ∃ x, routeAt r i = some x ∧ x.ip = net ∧ x.prefixLen = prefixLen
  slots : ∀ i < maxRules, routeAt r' i =
    (routeAt r i).filter fun x => !(x.ip == net && x.prefixLen == prefixLen)
  rules : ∀ n p, rules r'.lpm n p =
    if n = net ∧ p = prefixLen.toUInt8 then none else rules r.lpm n p

/-- The route can be added, and the deletion takes out just it. -/
def Coexists (lpm : RteLpm L) (rules : L → UInt32 → UInt8 → Option UInt32) (sem : Locking)
    (r : RouterState L) (ip prefixLen gw_ip : UInt32) : Prop :=
  ∃ r₁, addRoute lpm sem r ip prefixLen gw_ip = .ok (1, r₁) ∧
    ∃ r₂, delRoute lpm sem r₁ ip prefixLen = .ok (1, r₂) ∧
      RemovesOne rules r₁ r₂ (ip &&& maskOf prefixLen) prefixLen

/-- What `isRoute` sums up for the new route. -/
def newSum (r : RouterState L) (ip prefixLen gw_ip : UInt32) : UInt32 :=
  (routePort r (ip &&& maskOf prefixLen) gw_ip).toNat.toUInt32 + gw_ip + (ip &&& maskOf prefixLen) +
    prefixLen

theorem lastFree_isSome
    (h : ((List.range maxRules).filter fun i => decide (InUse r i)).length < maxRules) :
    ∃ pos, lastFree r = some pos := by
  unfold lastFree
  cases hlast : ((List.range maxRules).filter fun i => decide (¬ InUse r i)).getLast? with
  | some pos => exact ⟨pos, rfl⟩
  | none =>
    rw [List.getLast?_eq_none_iff, List.filter_eq_nil_iff] at hlast
    have hall : ((List.range maxRules).filter fun i => decide (InUse r i)) = List.range maxRules := by
      rw [List.filter_eq_self]
      intro i hi
      simpa using hlast i hi
    rw [hall, List.length_range] at h
    exact absurd h (Nat.lt_irrefl _)

theorem writeLock_free (sem : Locking) : ∃ lock, sem.writeLock 0 = .ok lock ∧ sem.writeUnlock lock = 0 := by
  cases sem with
  | rwlock => exact ⟨-1, rfl, rfl⟩
  | ignored => exact ⟨0, rfl, rfl⟩

/-- **An addition succeeds** exactly if no route to the network is stored, of whatever prefix length. -/
theorem addRoute_admissible (sem : Locking) (h : Admissible lpm r ip prefixLen gw_ip) :
    (StoresNet r (ip &&& maskOf prefixLen) → addRoute lpm sem r ip prefixLen gw_ip = .ok (0, r)) ∧
    (¬ StoresNet r (ip &&& maskOf prefixLen) → ∃ pos, lastFree r = some pos ∧
      addRoute lpm sem r ip prefixLen gw_ip = .ok (1,
        ({ r with lpm := (added lpm r ip prefixLen pos).2 } : RouterState L).setRoute pos
          (ip &&& maskOf prefixLen) prefixLen gw_ip
          (routePort r (ip &&& maskOf prefixLen) gw_ip).toNat.toUInt32)) := by
  obtain ⟨lock, hlock, hunlock⟩ := writeLock_free sem
  obtain ⟨pos, hpos⟩ := lastFree_isSome h.room
  have hrun : addRoute lpm sem r ip prefixLen gw_ip =
      .ok ((addRouteLocked lpm { r with lock := lock } ip prefixLen gw_ip).1,
        { (addRouteLocked lpm { r with lock := lock } ip prefixLen gw_ip).2 with lock := 0 }) := by
    unfold addRoute
    rw [h.free, hlock]
    simp only [bind, Except.bind, pure, Except.pure, (addRouteLocked_frame lpm _ ip prefixLen gw_ip).1,
      hunlock]
  have hexit := addRouteLocked_exit lpm { r with lock := lock } ip prefixLen gw_ip
  have hzero : ({ r with lock := 0 } : RouterState L) = r := by
    rw [← h.free]
  rw [hrun]
  generalize addRouteLocked lpm { r with lock := lock } ip prefixLen gw_ip = x at hexit
  constructor
  · intro hnet
    cases hexit with
    | early => simp only [hzero]
    | refused hno => exact absurd hnet hno
    | notLocal hno => exact absurd hnet hno
    | ok hno => exact absurd hnet hno
  · intro hnet
    refine ⟨pos, hpos, ?_⟩
    cases hexit with
    | early hno =>
      rcases hno with hno | hno
      · exact absurd hno hnet
      · change lastFree r = none at hno
        rw [hpos] at hno
        cases hno
    | @refused pos' _ hpos' hret => exact absurd (h.accepted pos' hpos') hret
    | notLocal _ _ _ hlocal => exact absurd h.isLocal hlocal
    | @ok pos' _ hpos' =>
      change lastFree r = some pos' at hpos'
      rw [hpos] at hpos'
      cases hpos'
      have hlock' : r.lock = 0 := h.free
      simp only [RouterState.setRoute, ← hlock']
      rfl

/-- The search comes to the one slot that stores the network, whose rule the library deletes. -/
theorem delRouteLoop_one {net : UInt32} {pos : ℕ} (huse : InUse r pos) (hip : r.ip pos = net)
    (hret : (lpm.delete r.lpm net prefixLen.toUInt8).1 = 0) : ∀ slots : List ℕ, pos ∈ slots →
    (∀ i ∈ slots, InUse r i → r.ip i = net → i = pos) →
    delRouteLoop lpm .ignored net prefixLen slots r =
      .ok (1, ({ r with lpm := (lpm.delete r.lpm net prefixLen.toUInt8).2 } :
        RouterState L).setRoute pos 0 0 0 0) := by
  intro slots
  induction slots with
  | nil => exact fun hmem => absurd hmem List.not_mem_nil
  | cons i slots ih =>
    intro hmem hone
    by_cases hi : isRoute r i ≠ 0 ∧ net = r.ip i
    · have heq : i = pos := hone i List.mem_cons_self hi.1 hi.2.symm
      subst heq
      rw [delRouteLoop_found hi, if_pos hret]
    · rw [delRouteLoop_other hi]
      have hne : pos ≠ i := by
        rintro rfl
        exact hi ⟨huse, hip.symm⟩
      rcases List.mem_cons.1 hmem with heq | hmem
      · exact absurd heq hne
      · exact ih hmem fun j hj => hone j (List.mem_cons_of_mem _ hj)

theorem delRoute_ignored_miss (h : ¬ Hit r ip prefixLen (List.range maxRules)) :
    delRoute lpm .ignored r ip prefixLen = .ok (0, r) := by
  rw [delRoute_ignored]
  exact delRouteLoop_miss lpm .ignored _ h

section NewRoute

variable {pos : ℕ} {r₁ : RouterState L}

/-- The state after the addition of a route to a new network. -/
def newRoute (lpm : RteLpm L) (r : RouterState L) (ip prefixLen gw_ip : UInt32) (pos : ℕ) :
    RouterState L :=
  ({ r with lpm := (added lpm r ip prefixLen pos).2 } : RouterState L).setRoute pos
    (ip &&& maskOf prefixLen) prefixLen gw_ip
    (routePort r (ip &&& maskOf prefixLen) gw_ip).toNat.toUInt32

/-- The slot of the new route is the only one that may store its network, and does if the words do not sum
up to 0. -/
theorem newRoute_stores (lpm : RteLpm L) (gw_ip : UInt32) (pos : ℕ)
    (hnet : ¬ StoresNet r (ip &&& maskOf prefixLen)) :
    (InUse (newRoute lpm r ip prefixLen gw_ip pos) pos ↔ newSum r ip prefixLen gw_ip ≠ 0) ∧
    ∀ i < maxRules, InUse (newRoute lpm r ip prefixLen gw_ip pos) i →
      (newRoute lpm r ip prefixLen gw_ip pos).ip i = ip &&& maskOf prefixLen → i = pos := by
  unfold newRoute
  constructor
  · rw [InUse, isRoute_setRoute_self]
    rfl
  · intro i hi huse heq
    by_contra hne
    rw [InUse, isRoute_setRoute_of_ne hne] at huse
    rw [(setRoute_of_ne hne).1] at heq
    exact hnet ⟨i, hi, huse, heq⟩

theorem newRoute_hit (lpm : RteLpm L) (gw_ip : UInt32)
    (hnet : ¬ StoresNet r (ip &&& maskOf prefixLen)) (hpos : lastFree r = some pos) :
    Hit (newRoute lpm r ip prefixLen gw_ip pos) ip prefixLen (List.range maxRules) ↔
      newSum r ip prefixLen gw_ip ≠ 0 := by
  obtain ⟨hiff, hone⟩ := newRoute_stores lpm gw_ip pos hnet
  constructor
  · rintro ⟨i, hi, huse, heq⟩
    rw [← hiff]
    have hi' : i = pos := hone i (List.mem_range.1 hi) huse heq.symm
    rw [hi'] at huse
    exact huse
  · intro hsum
    refine ⟨pos, List.mem_range.2 (lastFree_spec hpos).1, hiff.2 hsum, ?_⟩
    exact (setRoute_self _ _ _ _ _ _).1.symm

/-- The deletion takes out the new route and its rule. -/
theorem delRoute_newRoute (laws : LpmLaws lpm rules) (h : Admissible lpm r ip prefixLen gw_ip)
    (hnet : ¬ StoresNet r (ip &&& maskOf prefixLen)) (hpos : lastFree r = some pos)
    (hsum : newSum r ip prefixLen gw_ip ≠ 0) :
    ∃ r₂, delRoute lpm .ignored (newRoute lpm r ip prefixLen gw_ip pos) ip prefixLen = .ok (1, r₂) ∧
      RemovesOne rules (newRoute lpm r ip prefixLen gw_ip pos) r₂ (ip &&& maskOf prefixLen) prefixLen := by
  obtain ⟨hlt, hfree⟩ := lastFree_spec hpos
  obtain ⟨hiff, hone⟩ := newRoute_stores lpm gw_ip pos hnet
  set r₁ := newRoute lpm r ip prefixLen gw_ip pos with hr₁
  obtain ⟨hip, hpl, -, -⟩ := setRoute_self ({ r with lpm := (added lpm r ip prefixLen pos).2 } :
    RouterState L) pos (ip &&& maskOf prefixLen) prefixLen gw_ip
    (routePort r (ip &&& maskOf prefixLen) gw_ip).toNat.toUInt32
  change r₁.ip pos = _ at hip
  change r₁.prefixLen pos = _ at hpl
  obtain ⟨h1, h32⟩ := toUInt8_range h.range.1 h.range.2
  obtain ⟨hdel, hrules⟩ := laws.delete r₁.lpm (ip &&& maskOf prefixLen) prefixLen.toUInt8 h1 h32
    (by rw [toUInt8_toUInt32 h.range.2, and_mask])
  have hret : (lpm.delete r₁.lpm (ip &&& maskOf prefixLen) prefixLen.toUInt8).1 = 0 := by
    rw [hdel]
    have hrule : rules (added lpm r ip prefixLen pos).2 (ip &&& maskOf prefixLen) prefixLen.toUInt8 = _ :=
      added_ok laws h.range (h.accepted pos hpos) _ _
    rw [if_pos ⟨rfl, rfl⟩] at hrule
    exact Option.isSome_iff_exists.2 ⟨_, hrule⟩
  refine ⟨_, (delRoute_ignored lpm r₁ ip prefixLen).trans (delRouteLoop_one (hiff.2 hsum) hip hret _
    (List.mem_range.2 hlt) fun i hi => hone i (List.mem_range.1 hi)), ?_, fun i hi => ?_, hrules⟩
  · exact ⟨pos, hlt, _, if_pos (hiff.2 hsum), hip, hpl⟩
  · unfold routeAt
    by_cases hi' : i = pos
    · subst hi'
      rw [if_pos (hiff.2 hsum), if_neg]
      · simp [Option.filter, hip, hpl]
      · rw [InUse, isRoute_setRoute_self]
        exact fun hne => hne rfl
    · simp only [InUse, isRoute_setRoute_of_ne hi', (setRoute_of_ne hi').1, (setRoute_of_ne hi').2.1,
        (setRoute_of_ne hi').2.2.1, (setRoute_of_ne hi').2.2.2]
      show (if InUse r₁ i then _ else _) = Option.filter _ (if InUse r₁ i then _ else _)
      by_cases huse : InUse r₁ i
      · have hne : r₁.ip i ≠ ip &&& maskOf prefixLen := fun heq => hi' (hone i hi huse heq)
        simp [huse, Option.filter, hne]
      · simp [huse]

end NewRoute

/-- **Routes side by side.** A route that is not stored can be added exactly if no slot in use stores its
network, and the deletion then takes out just it exactly if, besides, its words do not sum up to 0 and the
lookup does not wait for the lock of its caller. -/
theorem coexists_iff (laws : LpmLaws lpm rules) (sem : Locking)
    (h : Admissible lpm r ip prefixLen gw_ip) :
    ((∃ r₁, addRoute lpm sem r ip prefixLen gw_ip = .ok (1, r₁)) ↔
      ¬ StoresNet r (ip &&& maskOf prefixLen)) ∧
    (Coexists lpm rules sem r ip prefixLen gw_ip ↔ ¬ StoresNet r (ip &&& maskOf prefixLen) ∧
      newSum r ip prefixLen gw_ip ≠ 0 ∧ sem = .ignored) := by
  obtain ⟨hold, hnew⟩ := addRoute_admissible sem h
  have hadd : (∃ r₁, addRoute lpm sem r ip prefixLen gw_ip = .ok (1, r₁)) ↔
      ¬ StoresNet r (ip &&& maskOf prefixLen) := by
    refine ⟨?_, fun hnet => ?_⟩
    · rintro ⟨r₁, hrun⟩ hnet
      rw [hold hnet] at hrun
      cases hrun
    · obtain ⟨pos, -, hrun⟩ := hnew hnet
      exact ⟨_, hrun⟩
  refine ⟨hadd, ?_⟩
  by_cases hnet : StoresNet r (ip &&& maskOf prefixLen)
  · refine ⟨?_, fun hc => absurd hnet hc.1⟩
    rintro ⟨r₁, hrun, -⟩
    exact absurd hnet (hadd.1 ⟨r₁, hrun⟩)
  · obtain ⟨pos, hpos, hrun⟩ := hnew hnet
    change addRoute lpm sem r ip prefixLen gw_ip = .ok (1, newRoute lpm r ip prefixLen gw_ip pos) at hrun
    have hhit := newRoute_hit lpm gw_ip hnet hpos
    constructor
    · rintro ⟨r₁, hrun', r₂, hdel, -⟩
      rw [hrun] at hrun'
      cases hrun'
      have hsum : newSum r ip prefixLen gw_ip ≠ 0 := by
        rw [← hhit]
        by_contra hmiss
        cases sem with
        | rwlock =>
          rw [delRoute_miss lpm (show (newRoute lpm r ip prefixLen gw_ip pos).lock = 0 from h.free)
            hmiss] at hdel
          cases hdel
        | ignored =>
          rw [delRoute_ignored_miss hmiss] at hdel
          cases hdel
      refine ⟨hnet, hsum, ?_⟩
      cases sem with
      | rwlock =>
        rw [delRoute_hit lpm (show (newRoute lpm r ip prefixLen gw_ip pos).lock = 0 from h.free)
          (hhit.2 hsum)] at hdel
        cases hdel
      | ignored => rfl
    · rintro ⟨-, hsum, rfl⟩
      exact ⟨_, hrun, delRoute_newRoute laws h hnet hpos hsum⟩

theorem admissible_onePort : Admissible lpmRules onePort 0x0A000000 8 0x3F573602 where
  range := by decide
  isLocal := ⟨0, by decide, by decide +kernel⟩
  room := by decide +kernel
  new i _ huse := absurd huse (by simp [InUse, isRoute, onePort, registRoutingModule])
  accepted pos _ := by simp [added, lpmRules, onePort, registRoutingModule]
  free := rfl

/-- 10.0.0.0/8 via 63.87.54.2. -/
theorem coexists_onePort : (∃ r₁, addRoute lpmRules .rwlock onePort 0x0A000000 8 0x3F573602 = .ok (1, r₁)) ∧
    Coexists lpmRules ruleOf .ignored onePort 0x0A000000 8 0x3F573602 := by
  have hnet : ¬ StoresNet onePort (0x0A000000 &&& maskOf 8) := by
    rintro ⟨i, -, huse, -⟩
    exact absurd huse (by simp [InUse, isRoute, onePort, registRoutingModule])
  refine ⟨(coexists_iff lpmRules_spec.laws .rwlock admissible_onePort).1.2 hnet, ?_⟩
  exact (coexists_iff lpmRules_spec.laws .ignored admissible_onePort).2.2
    ⟨hnet, by decide +kernel, rfl⟩

/-- 10.0.0.0/8 is stored: 10.0.0.0/16 cannot be added, although it is another route. -/
theorem nested_network_refused :
    let r₁ := outcome (addRoute lpmRules .ignored onePort 0x0A000000 8 0x3F573602) onePort
    r₁.1 = 1 ∧ Admissible lpmRules r₁.2 0x0A000000 16 0x3F573602 ∧
      ¬ Coexists lpmRules ruleOf .ignored r₁.2 0x0A000000 16 0x3F573602 := by
  intro r₁
  have hadm : Admissible lpmRules r₁.2 0x0A000000 16 0x3F573602 := by
    refine ⟨by decide, ⟨0, by decide, by decide +kernel⟩, by decide +kernel, by decide +kernel,
      fun pos _ => ?_, by decide +kernel⟩
    simp [added, lpmRules]
  refine ⟨by decide +kernel, hadm, ?_⟩
  rintro ⟨r₂, hrun, -⟩
  have hnet : StoresNet r₁.2 (0x0A000000 &&& maskOf 16) := by
    unfold StoresNet
    decide +kernel
  rw [(addRoute_admissible .ignored hadm).1 hnet] at hrun
  cases hrun

end FlowQoS.Router
