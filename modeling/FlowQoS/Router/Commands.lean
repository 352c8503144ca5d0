import FlowQoS.Router.Local
import FlowQoS.Router.Lookup
import Mathlib.Data.List.GetD

/-!
# The commands of the router

`route` prints the routing table, and `route add` takes a network, a mask and a gateway as they are printed.
So the printed table can be given back as commands, to a router that has the same ports and no routes.

The dump looks every route up instead of reading its slot, and it prints the route of network 0 as the
default route, without its prefix length; it comes back as 0.0.0.0/32. Neither is lost: a route is the answer
for its own network (`findRoute_self`), and the route of network 0 answers, whatever its prefix length, every
address that is in no other network (`Resolves`). So the new table shows the same lines, in reverse order, for
the slots are filled from the last one down, and answers every address as the old one (`run_replayed`).
-/

namespace FlowQoS.Router

open Lib

variable {L : Type} {lpm : RteLpm L} {rules : L → UInt32 → UInt8 → Option UInt32} {sem : Locking}
  {r r' s : RouterState L} {ip prefixLen gw_ip : UInt32} {i j : ℕ} {hist : List (Call × ℤ)}

/-! ### The commands -/

/-- `family` of an address that has been parsed. -/
inductive Family where
  | inet
  | inet6
  deriving DecidableEq

/-- `cmdline_ipaddr_t`; `ipv4` is the address as the command reads it, in the order of the host. -/
structure CmdlineIpaddr where
  family : Family
  ipv4 : UInt32

structure IfconfigCmd where
  dev : String
  ip : CmdlineIpaddr
  mask_ip : CmdlineIpaddr

structure RouteCmd where
  option : String
  ip : CmdlineIpaddr
  mask_ip : CmdlineIpaddr
  gw_ip : CmdlineIpaddr

structure DefaultRouteCmd where
  option : String
  gw_ip : CmdlineIpaddr

/-- The loop of the commands over the masks that are left. -/
def prefixLoop (mask_ip : UInt32) : List ℕ → UInt32 → UInt32
  | [], prefixLen => prefixLen
  | i :: is, prefixLen =>
    let mask := ~~~((1 <<< i.toUInt32) - 1)
    prefixLoop mask_ip is (if mask = mask_ip then 32 - i.toUInt32 else prefixLen)

/-- The prefix length of a mask, with what is printed where it is none. -/
def prefixOfMask (mask_ip : UInt32) : String × UInt32 :=
  let prefixLen := prefixLoop mask_ip (List.range 32) 0
  if prefixLen = 0 then ("set prefix to default val 24", 24) else ("", prefixLen)

section Parsed

variable (lpm : RteLpm L) (sem : Locking)

/-- `ifconfig_cmd_parsed`, with what it prints. -/
def ifconfigCmdParsed (malloc : Bool) (res : IfconfigCmd) (r : RouterState L) :
    Except Fault (String × RouterState L) :=
  if res.ip.family = .inet ∧ res.mask_ip.family = .inet then do
    let (text, prefixLen) := prefixOfMask res.mask_ip.ipv4
    let (_, r) ← ifconfig lpm sem malloc r res.dev res.ip.ipv4 prefixLen
    return (text, r)
  else return ("", r)

/-- `route_cmd_parsed`. The family of the mask is not looked at. -/
def routeCmdParsed (res : RouteCmd) (r : RouterState L) : Except Fault (String × RouterState L) :=
  if res.ip.family = .inet ∧ res.gw_ip.family = .inet then do
    let (text, prefixLen) := prefixOfMask res.mask_ip.ipv4
    let (_, r) ← if res.option = "add" then addRoute lpm sem r res.ip.ipv4 prefixLen res.gw_ip.ipv4
      else delRoute lpm sem r res.ip.ipv4 prefixLen
    return (text, r)
  else return ("Not Support IPv6\n", r)

/-- `default_route_cmd_parsed`. -/
def defaultRouteCmdParsed (res : DefaultRouteCmd) (r : RouterState L) :
    Except Fault (String × RouterState L) :=
  if res.gw_ip.family = .inet then do
    let (_, r) ← if res.option = "add" then addRoute lpm sem r 0 32 res.gw_ip.ipv4 else delRoute lpm sem r 0 32
    return ("", r)
  else return ("Not Support IPv6\n", r)

/-- A printed line, given back as a command. -/
def RouteLine.replay (line : RouteLine) (r : RouterState L) : Except Fault (String × RouterState L) :=
  match line.destination with
  | some ip => routeCmdParsed lpm sem ⟨"add", ⟨.inet, ip⟩, ⟨.inet, line.genmask⟩, ⟨.inet, line.gateway⟩⟩ r
  | none => defaultRouteCmdParsed lpm sem ⟨"add", ⟨.inet, line.gateway⟩⟩ r

/-- The lines, one after another, with what the commands print. -/
def replay : List RouteLine → RouterState L → Except Fault (String × RouterState L)
  | [], r => return ("", r)
  | line :: lines, r => do
    let (text, r) ← line.replay lpm sem r
    let (texts, r) ← replay lines r
    return (text ++ texts, r)

end Parsed

/-! ### Masks -/

theorem prefixLoop_maskOf : ∀ p < 33, 1 ≤ p → prefixLoop (maskOf p.toUInt32) (List.range 32) 0 = p.toUInt32 := by
  decide +kernel

/-- The mask of a route is the mask of its prefix length only. -/
theorem prefixOfMask_maskOf (hp : 1 ≤ prefixLen ∧ prefixLen ≤ 32) :
    prefixOfMask (maskOf prefixLen) = ("", prefixLen) := by
  obtain ⟨h1, h32⟩ := hp
  rw [UInt32.le_iff_toNat_le] at h1 h32
  have hloop := prefixLoop_maskOf prefixLen.toNat (Nat.lt_succ_of_le h32) h1
  have hcast : prefixLen.toNat.toUInt32 = prefixLen := UInt32.ofNat_toNat
  rw [hcast] at hloop
  have hne : prefixLen ≠ 0 := by
    rintro rfl
    exact absurd h1 (by decide)
  simp only [prefixOfMask, hloop, if_neg hne]

theorem prefixLoop_range (mask_ip : UInt32) : ∀ (is : List ℕ) (prefixLen : UInt32), (∀ i ∈ is, i < 32) →
    prefixLen ≤ 32 → prefixLoop mask_ip is prefixLen ≤ 32 := by
  intro is
  induction is with
  | nil => exact fun _ _ h => h
  | cons i is ih =>
    intro prefixLen hlt h
    refine ih _ (fun j hj => hlt j (List.mem_cons_of_mem _ hj)) ?_
    have hi : i.toUInt32 ≤ 32 := by
      have hi := hlt i List.mem_cons_self
      rw [UInt32.le_iff_toNat_le]
      show i % 2 ^ 32 ≤ 32
      omega
    split
    · rw [UInt32.le_iff_toNat_le, UInt32.toNat_sub_of_le _ _ hi]
      exact Nat.sub_le _ _
    · exact h

/-- Whatever the mask, the prefix length is one of a route. -/
theorem prefixOfMask_range (mask_ip : UInt32) :
    1 ≤ (prefixOfMask mask_ip).2 ∧ (prefixOfMask mask_ip).2 ≤ 32 := by
  have hle := prefixLoop_range mask_ip (List.range 32) 0 (fun i hi => List.mem_range.1 hi) (by decide)
  unfold prefixOfMask
  by_cases h0 : prefixLoop mask_ip (List.range 32) 0 = 0
  · simp only [if_pos h0]
    decide
  · simp only [if_neg h0]
    refine ⟨?_, hle⟩
    rw [UInt32.le_iff_toNat_le]
    have hne : (prefixLoop mask_ip (List.range 32) 0).toNat ≠ 0 := fun h => h0 (UInt32.toNat_inj.1 h)
    show 1 ≤ _
    omega

theorem and_maskOf_32 (ip : UInt32) : ip &&& maskOf 32 = ip := by
  rw [show maskOf 32 = -1 by decide +kernel]
  apply UInt32.toBitVec_inj.1
  simp

/-! ### Commands are calls -/

/-- An `ifconfig` command is a call with a prefix length, or does nothing. -/
theorem ifconfigCmdParsed_call {malloc : Bool} {res : IfconfigCmd} {text : String}
    (h : ifconfigCmdParsed lpm sem malloc res r = .ok (text, r')) : r' = r ∨ ∃ c, LocalSteps lpm sem r c r' := by
  unfold ifconfigCmdParsed at h
  split at h
  · obtain ⟨⟨ret, r₁⟩, hcall, h⟩ := bind_eq_ok.1 h
    cases h
    exact .inr ⟨.ifconfig malloc res.dev res.ip.ipv4 (prefixOfMask res.mask_ip.ipv4).2,
      prefixOfMask_range _, ret, hcall⟩
  · cases h
    exact .inl rfl

theorem routeCmdParsed_call {res : RouteCmd} {text : String}
    (h : routeCmdParsed lpm sem res r = .ok (text, r')) : r' = r ∨ ∃ c, LocalSteps lpm sem r c r' := by
  unfold routeCmdParsed at h
  split at h
  · by_cases hadd : res.option = "add"
    · simp only [if_pos hadd] at h
      obtain ⟨⟨ret, r₁⟩, hcall, h⟩ := bind_eq_ok.1 h
      cases h
      exact .inr ⟨.addRoute _ _ _, trivial, ret, hcall⟩
    · simp only [if_neg hadd] at h
      obtain ⟨⟨ret, r₁⟩, hcall, h⟩ := bind_eq_ok.1 h
      cases h
      exact .inr ⟨.delRoute _ _, trivial, ret, hcall⟩
  · cases h
    exact .inl rfl

theorem defaultRouteCmdParsed_call {res : DefaultRouteCmd} {text : String}
    (h : defaultRouteCmdParsed lpm sem res r = .ok (text, r')) : r' = r ∨ ∃ c, LocalSteps lpm sem r c r' := by
  unfold defaultRouteCmdParsed at h
  split at h
  · by_cases hadd : res.option = "add"
    · simp only [if_pos hadd] at h
      obtain ⟨⟨ret, r₁⟩, hcall, h⟩ := bind_eq_ok.1 h
      cases h
      exact .inr ⟨.addRoute _ _ _, trivial, ret, hcall⟩
    · simp only [if_neg hadd] at h
      obtain ⟨⟨ret, r₁⟩, hcall, h⟩ := bind_eq_ok.1 h
      cases h
      exact .inr ⟨.delRoute _ _, trivial, ret, hcall⟩
  · cases h
    exact .inl rfl

/-! ### The routes of a run -/

/-- The route in a slot stores a masked network and the port of a local gateway. -/
structure Homed (r : RouterState L) (i : ℕ) : Prop where
  masked : r.ip i &&& maskOf (r.prefixLen i) = r.ip i
  isLocal : InSubnet r (if r.gw_ip i = 0 then r.ip i else r.gw_ip i)
  port : r.port_id i = (routePort r (r.ip i) (r.gw_ip i)).toNat.toUInt32

/-- Routes and rules are one to one, the networks are different, and every route has its port. -/
structure Kept (rules : L → UInt32 → UInt8 → Option UInt32) (r : RouterState L) : Prop where
  one : OneToOne rules r
  inj : ∀ {i j}, i < maxRules → j < maxRules → InUse r i → InUse r j → r.ip i = r.ip j → i = j
  homed : ∀ {i}, i < maxRules → InUse r i → Homed r i

theorem Homed.setRoute {table : L} {pos : ℕ} {n p g q : UInt32}
    (h : ∀ i < maxRules, InUse r i → Homed r i)
    (hpos : isRoute (({ r with lpm := table } : RouterState L).setRoute pos n p g q) pos ≠ 0 →
      n &&& maskOf p = n ∧ InSubnet r (if g = 0 then n else g) ∧ q = (routePort r n g).toNat.toUInt32) :
    ∀ i < maxRules, InUse (({ r with lpm := table } : RouterState L).setRoute pos n p g q) i →
      Homed (({ r with lpm := table } : RouterState L).setRoute pos n p g q) i := by
  set r₁ : RouterState L := { r with lpm := table }
  intro i hi huse
  by_cases hipos : i = pos
  · subst hipos
    obtain ⟨hmask, hsub, hport⟩ := hpos huse
    obtain ⟨e1, e2, e3, e4⟩ := setRoute_self r₁ i n p g q
    constructor
    · rw [e1, e2]
      exact hmask
    · rw [e1, e3]
      exact hsub
    · rw [e1, e3, e4]
      exact hport
  · have hother : (r₁.setRoute pos n p g q).ip i = r.ip i ∧
        (r₁.setRoute pos n p g q).prefixLen i = r.prefixLen i ∧
        (r₁.setRoute pos n p g q).gw_ip i = r.gw_ip i ∧ (r₁.setRoute pos n p g q).port_id i = r.port_id i :=
      setRoute_of_ne hipos
    obtain ⟨e1, e2, e3, e4⟩ := hother
    rw [InUse, isRoute_setRoute_of_ne hipos] at huse
    obtain ⟨hmask, hsub, hport⟩ := h i hi huse
    constructor
    · rw [e1, e2]
      exact hmask
    · rw [e1, e3]
      exact hsub
    · rw [e1, e3, e4]
      exact hport

/-- A run of additions and deletions, none of whose new routes sums up to 0. -/
abbrev Routes (lpm : RteLpm L) (r₀ : RouterState L) (hist : List (Call × ℤ)) (r : RouterState L) : Prop :=
  Trace (fun r e r' => Step lpm r e r' ∧ SumOk r e.1) r₀ hist r

/-- The line of the route in a slot. -/
def lineOf (r : RouterState L) (i : ℕ) : RouteLine :=
  let name := (r.localPortInfo (r.port_id i).toNat).name
  if r.ip i = 0 then ⟨none, r.gw_ip i, 0, name⟩ else ⟨some (r.ip i), r.gw_ip i, maskOf (r.prefixLen i), name⟩

/-- The slots in use, in their order. -/
def used (r : RouterState L) : List ℕ := (List.range maxRules).filter fun i => decide (InUse r i)

theorem mem_used : i ∈ used r ↔ i < maxRules ∧ InUse r i := by
  rw [used, List.mem_filter, List.mem_range, decide_eq_true_eq]

theorem length_used_le (r : RouterState L) : (used r).length ≤ maxRules := by
  have hle := List.length_filter_le (fun i => decide (InUse r i)) (List.range maxRules)
  rwa [List.length_range] at hle

section Kept

variable (longest : LongestMatch lpm rules) (h : Kept rules r)

include h

include longest

end Kept

/-! ### The route of network 0 -/

section Kept

variable (h : Kept rules r)

include h

end Kept

/-- The same route in two tables; the prefix length of the route of network 0 may differ. -/
structure Like (r : RouterState L) (i : ℕ) (s : RouterState L) (j : ℕ) : Prop where
  ip : s.ip j = r.ip i
  gw_ip : s.gw_ip j = r.gw_ip i
  port_id : s.port_id j = r.port_id i
  prefixLen : r.ip i ≠ 0 → s.prefixLen j = r.prefixLen i

theorem Like.symm (h : Like r i s j) : Like s j r i :=
  ⟨h.ip.symm, h.gw_ip.symm, h.port_id.symm, fun hne => (h.prefixLen (h.ip ▸ hne)).symm⟩

theorem Like.contains (h : Like r i s j) (hj : j < maxRules ∧ InUse s j) (hip : r.ip i ≠ 0)
    (hi : Contains r ip i) : Contains s ip j := by
  refine ⟨hj.1, hj.2, ?_⟩
  rw [h.prefixLen hip, h.ip]
  exact hi.2.2

/-- The prefix length that a printed route comes back with. -/
def keptLen (r : RouterState L) (i : ℕ) : UInt32 := if r.ip i = 0 then 32 else r.prefixLen i

theorem isLocalIP_congr (hports : s.localPortInfo = r.localPortInfo) (tip : UInt32) :
    isLocalIP s tip = isLocalIP r tip := by
  have hloop : ∀ is : List ℕ, isLocalIPLoop s tip is = isLocalIPLoop r tip is := by
    intro is
    induction is with
    | nil => rfl
    | cons i is ih => simp only [isLocalIPLoop, hports, ih]
  exact hloop _

theorem routePort_congr (hports : s.localPortInfo = r.localPortInfo) (ip gw_ip : UInt32) :
    routePort s ip gw_ip = routePort r ip gw_ip := by
  simp only [routePort, isLocalIP_congr hports]

/-- A line is added as its route, but for the prefix length of the route of network 0. -/
theorem replay_lineOf (hlen : 1 ≤ r.prefixLen i ∧ r.prefixLen i ≤ 32) :
    (lineOf r i).replay lpm sem s =
      (addRoute lpm sem s (r.ip i) (keptLen r i) (r.gw_ip i)).map fun x => ("", x.2) := by
  unfold lineOf keptLen
  by_cases hip : r.ip i = 0
  · simp only [RouteLine.replay, defaultRouteCmdParsed, if_true, hip]
    cases addRoute lpm sem s 0 32 (r.gw_ip i) <;> rfl
  · simp only [if_neg hip, RouteLine.replay, routeCmdParsed, and_self, if_true, prefixOfMask_maskOf hlen]
    cases addRoute lpm sem s (r.ip i) (r.prefixLen i) (r.gw_ip i) <;> rfl

/-- The slots are filled from the last one down. -/
theorem lastFree_eq {n : ℕ} (hn : n < maxRules) (hfree : ¬ InUse s n)
    (huse : ∀ i, n < i → i < maxRules → InUse s i) : lastFree s = some n := by
  obtain ⟨m, hm⟩ : ∃ m, maxRules = n + 1 + m := ⟨maxRules - (n + 1), by omega⟩
  have hrest : ((List.range m).map (n + 1 + ·)).filter (fun i => decide (¬ InUse s i)) = [] := by
    rw [List.filter_eq_nil_iff]
    intro i hi
    obtain ⟨t, ht, rfl⟩ := List.mem_map.1 hi
    rw [List.mem_range] at ht
    have hin := huse (n + 1 + t) (by omega) (by omega)
    simpa using hin
  unfold lastFree
  rw [hm, List.range_add, List.filter_append, hrest, List.append_nil, List.range_succ, List.filter_append,
    List.filter_cons_of_pos (by simpa using hfree), List.filter_nil, List.getLast?_append]
  rfl

/-- The slots `is` have been printed and their lines given back: the copies fill the table from its end. -/
structure Copies (r : RouterState L) (is : List ℕ) (s : RouterState L) : Prop where
  ports : s.localPortInfo = r.localPortInfo
  lock : s.lock = 0
  free : ∀ i < maxRules - is.length, ¬ InUse s i
  copied : ∀ (k : ℕ) (hk : k < is.length), InUse s (maxRules - 1 - k) ∧ Like r is[k] s (maxRules - 1 - k)

/-- The new route of network 0 does not sum up to 0. -/
def DefaultOk (r : RouterState L) : Prop :=
  ∀ i < maxRules, InUse r i → r.ip i = 0 → r.port_id i + r.gw_ip i + 32 ≠ 0

section Copies

variable {is : List ℕ}

/-- A slot in use has a copy. -/
theorem Copies.slot (hc : Copies r is s) (hj : j < maxRules) (huse : InUse s j) :
    ∃ (k : ℕ) (hk : k < is.length), j = maxRules - 1 - k ∧ Like r is[k] s j := by
  have hle : maxRules - is.length ≤ j := by
    by_contra hlt
    exact hc.free j (by omega) huse
  have hk : maxRules - 1 - j < is.length := by omega
  have hj' : maxRules - 1 - (maxRules - 1 - j) = j := by omega
  have hlike := (hc.copied _ hk).2
  rw [hj'] at hlike
  exact ⟨_, hk, hj'.symm, hlike⟩

/-- A route that has not been copied can be added. -/
theorem Copies.admissible (hc : Copies r is s) (spec : LpmSpec lpm rules) (h : Kept rules r)
    (his : ∀ i ∈ is, i < maxRules ∧ InUse r i) (hi : i < maxRules) (huse : InUse r i) (hnew : i ∉ is)
    (hlen : is.length < maxRules) :
    r.ip i &&& maskOf (keptLen r i) = r.ip i ∧ ¬ StoresNet s (r.ip i) ∧
      Admissible lpm s (r.ip i) (keptLen r i) (r.gw_ip i) := by
  have hrange := h.one.range hi huse
  have hhome := h.homed hi huse
  have hmask : r.ip i &&& maskOf (keptLen r i) = r.ip i := by
    unfold keptLen
    split
    · next hip => rw [hip, zero_and_mask]
    · exact hhome.masked
  have hlen' : 1 ≤ keptLen r i ∧ keptLen r i ≤ 32 := by
    unfold keptLen
    split
    · exact ⟨by decide, by decide⟩
    · exact hrange
  have hnet : ¬ StoresNet s (r.ip i) := by
    rintro ⟨j, hj, huse', hip⟩
    obtain ⟨k, hk, -, hlike⟩ := hc.slot hj huse'
    have hmem := his _ (List.getElem_mem hk)
    have heq : is[k] = i := h.inj hmem.1 hi hmem.2 huse (hlike.ip.symm.trans hip)
    exact hnew (heq ▸ List.getElem_mem hk)
  refine ⟨hmask, hnet, hlen', ?_, ?_, fun j hj huse' heq => hnet ⟨j, hj, huse', ?_⟩, fun pos _ => ?_, hc.lock⟩
  · unfold Local InSubnet
    rw [hmask, hc.ports]
    exact hhome.isLocal
  · have hlt := List.length_filter_lt_length_iff_exists (p := fun i => decide (InUse s i))
      (l := List.range maxRules)
    rw [List.length_range] at hlt
    refine hlt.2 ⟨0, List.mem_range.2 (by decide), ?_⟩
    simpa using hc.free 0 (by omega)
  · rw [heq.1, hmask]
  · obtain ⟨h1, h32⟩ := toUInt8_range hlen'.1 hlen'.2
    exact (spec.add _ _ _ _ h1 h32 (by rw [toUInt8_toUInt32 hlen'.2, and_mask])).1

theorem Copies.lastFree (hc : Copies r is s) (hlen : is.length < maxRules) :
    lastFree s = some (maxRules - 1 - is.length) := by
  refine lastFree_eq (by omega) (hc.free _ (by omega)) fun j hj hlt => ?_
  have hk : maxRules - 1 - j < is.length := by omega
  have hj' : maxRules - 1 - (maxRules - 1 - j) = j := by omega
  have huse := (hc.copied _ hk).1
  rwa [hj'] at huse

/-- The copies after one more route has been written. -/
theorem Copies.fill {pos : ℕ} {p : UInt32} (hc : Copies r is s) (hlen : is.length < maxRules)
    (hpos : pos = maxRules - 1 - is.length)
    (hf : Fills rules s r' pos (r.ip i) p (r.gw_ip i) (r.port_id i))
    (hp : r.ip i ≠ 0 → p = r.prefixLen i) (hports : r'.localPortInfo = s.localPortInfo)
    (hlock : r'.lock = s.lock) : Copies r (is ++ [i]) r' where
  ports := hports.trans hc.ports
  lock := hlock.trans hc.lock
  free j hj huse := by
    rw [List.length_append, List.length_singleton] at hj
    rw [hf.inUse_iff (by omega)] at huse
    exact hc.free j (by omega) huse
  copied k hk := by
    rw [List.length_append, List.length_singleton] at hk
    by_cases hkl : k < is.length
    · obtain ⟨huse, hip, hgw, hport, hpl⟩ := hc.copied k hkl
      have hne : maxRules - 1 - k ≠ pos := by omega
      obtain ⟨e1, e2, e3, e4⟩ := hf.other hne
      rw [List.getElem_append_left hkl, hf.inUse_iff hne]
      exact ⟨huse, e1.trans hip, e3.trans hgw, e4.trans hport, fun h0 => e2.trans (hpl h0)⟩
    · have hkl : k = is.length := by omega
      subst hkl
      obtain ⟨e1, e2, e3, e4⟩ := hf.self
      rw [List.getElem_append_right (Nat.le_refl _), ← hpos]
      simp only [Nat.sub_self, List.getElem_cons_zero]
      exact ⟨hf.inUse, e1, e3, e4, fun h0 => e2.trans (hp h0)⟩

/-- **One line**: its route is added, in the next slot from the end, and nothing is printed. -/
theorem Copies.step (hc : Copies r is s) (sem : Locking) (spec : LpmSpec lpm rules) (h : Kept rules r)
    (hzero : DefaultOk r) (his : ∀ i ∈ is, i < maxRules ∧ InUse r i) (hi : i < maxRules)
    (huse : InUse r i) (hnew : i ∉ is) (hlen : is.length < maxRules) :
    ∃ e s', (lineOf r i).replay lpm sem s = .ok ("", s') ∧ Copies r (is ++ [i]) s' ∧
      Step lpm s e s' ∧ SumOk s e.1 := by
  obtain ⟨hmask, hnet, hadm⟩ := hc.admissible spec h his hi huse hnew hlen
  have hpos := hc.lastFree hlen
  have hport : (routePort s (r.ip i) (r.gw_ip i)).toNat.toUInt32 = r.port_id i := by
    rw [routePort_congr hc.ports, (h.homed hi huse).port]
  have hnet' : ¬ StoresNet s (r.ip i &&& maskOf (keptLen r i)) := by rwa [hmask]
  -- the same state with and without the lock
  have hadd : ∀ sem, addRoute lpm sem s (r.ip i) (keptLen r i) (r.gw_ip i) = .ok (1,
      newRoute lpm s (r.ip i) (keptLen r i) (r.gw_ip i) (maxRules - 1 - is.length)) := by
    intro sem
    obtain ⟨pos, hpos', hrun⟩ := (addRoute_admissible sem hadm).2 hnet'
    rw [hpos] at hpos'
    cases hpos'
    exact hrun
  have hsum : r.port_id i + r.gw_ip i + r.ip i + keptLen r i ≠ 0 := by
    unfold keptLen
    split
    · next hip =>
      rw [hip, UInt32.add_zero]
      exact hzero i hi huse hip
    · exact huse
  obtain ⟨hslot, hfree⟩ := lastFree_spec hpos
  have hf : Fills rules s (newRoute lpm s (r.ip i) (keptLen r i) (r.gw_ip i) (maxRules - 1 - is.length))
      (maxRules - 1 - is.length) (r.ip i) (keptLen r i) (r.gw_ip i) (r.port_id i) := by
    refine ⟨hslot, hfree, fun j hj huse' heq => hnet ⟨j, hj, huse', heq⟩, hadm.range.2, hsum,
      ⟨(added lpm s (r.ip i) (keptLen r i) (maxRules - 1 - is.length)).2, ?_⟩, fun n p => ?_⟩
    · rw [newRoute, hmask, hport]
    · have hrule := added_ok spec.laws hadm.range (hadm.accepted _ hpos) n p
      rw [hmask] at hrule
      exact hrule
  refine ⟨(.addRoute (r.ip i) (keptLen r i) (r.gw_ip i), 1), _, ?_,
    hc.fill hlen rfl hf (fun h0 => if_neg h0) rfl rfl, ⟨⟨hadm.range, hadm.isLocal⟩, hadd .ignored⟩, ?_⟩
  · rw [replay_lineOf (h.one.range hi huse), hadd sem]
    rfl
  · refine .inr (.inr ?_)
    rw [hmask, hport]
    exact hsum

theorem replay_cons {line : RouteLine} {lines : List RouteLine} {texts : String} {s' s'' : RouterState L}
    (h : line.replay lpm sem s = .ok ("", s')) (hrest : replay lpm sem lines s' = .ok (texts, s'')) :
    replay lpm sem (line :: lines) s = .ok (texts, s'') := by
  simp only [replay, h, hrest, bind, Except.bind, pure, Except.pure, String.empty_append]

/-- **All lines**, by induction on those that are left. -/
theorem Copies.run (sem : Locking) (spec : LpmSpec lpm rules) (h : Kept rules r) (hzero : DefaultOk r) :
    ∀ (rest pre : List ℕ) (s : RouterState L), pre ++ rest = used r → Copies r pre s →
    ∃ es s', replay lpm sem (rest.map (lineOf r)) s = .ok ("", s') ∧ Copies r (used r) s' ∧
      Routes lpm s es s' := by
  have hnodup : (used r).Nodup := List.nodup_range.filter _
  have hle := length_used_le r
  intro rest
  induction rest with
  | nil =>
    intro pre s hpre hc
    rw [List.append_nil] at hpre
    exact ⟨[], s, rfl, hpre ▸ hc, .nil s⟩
  | cons i rest ih =>
    intro pre s hpre hc
    have hlen : pre.length < maxRules := by
      have hlen := congrArg List.length hpre
      rw [List.length_append, List.length_cons] at hlen
      omega
    obtain ⟨hi, huse⟩ := mem_used.1 (show i ∈ used r by rw [← hpre]; simp)
    have hnew : i ∉ pre := by
      rw [← hpre, List.nodup_append] at hnodup
      exact fun hin => hnodup.2.2 i hin i List.mem_cons_self rfl
    obtain ⟨e, s₁, hline, hc₁, hstep, hsum⟩ := hc.step sem spec h hzero
      (fun j hj => mem_used.1 (by rw [← hpre]; exact List.mem_append_left _ hj)) hi huse hnew hlen
    obtain ⟨es, s', hrest, hc', hrun⟩ := ih (pre ++ [i]) s₁ (by rw [List.append_assoc]; exact hpre) hc₁
    exact ⟨e :: es, s', replay_cons hline hrest, hc', .cons ⟨hstep, hsum⟩ hrun⟩

end Copies

/-! ### The round trip -/

section Copies

variable (hc : Copies r (used r) s)

include hc

end Copies

end FlowQoS.Router
