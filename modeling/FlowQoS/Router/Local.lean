import FlowQoS.Router.Arp
import FlowQoS.Router.Atomic

/-!
# Local addresses

`flowQoS_router_isLocalIP` goes through the ports whether they have been configured or not. A port that has
not been configured has the prefix length 0: its mask takes a shift by 32, and where a shift uses the low
five bits of its amount the port has the one address 0. So the answer is exact where the loop comes to
configured ports only (`loopExact_iff`, `isLocalIP_exact_iff`), and then an addition accepts only gateways
of configured ports (`LocalExact.gateway`) and the `arp` command writes only to their tables
(`LocalExact.arp`).
-/

namespace FlowQoS.Router

open Lib

variable {L : Type} {lpm : RteLpm L} {sem : Locking} {r r' : RouterState L} {ip prefixLen gw_ip tip : UInt32}
  {i : ℕ} {ret : ℤ} {cs : List Call}

/-! ### Configurations -/

/-- The name that `initLocalPortInfo` gives a port. -/
def portName (i : ℕ) : String := "dpdk" ++ toString i

/-- What a call sets for a port. -/
def Call.config (i : ℕ) : Call → Option (UInt32 × UInt32)
  | .ifconfig _ name ip prefixLen => if name = portName i then some (ip, prefixLen) else none
  | _ => none

/-- The last configuration of a port, if it has been configured. -/
def configOf (cs : List Call) (i : ℕ) : Option (UInt32 × UInt32) := (cs.filterMap (Call.config i)).getLast?

/-- The port has been configured and the address is in its subnet. -/
def InPort (cs : List Call) (i : ℕ) (tip : UInt32) : Prop :=
  i < portNum ∧ ∃ ip prefixLen, configOf cs i = some (ip, prefixLen) ∧
    tip &&& maskOf prefixLen = ip &&& maskOf prefixLen

/-- A call whose prefix length, where it configures a port, is from 1 to 32. -/
def PrefixOk : Call → Prop
  | .ifconfig _ _ _ prefixLen => 1 ≤ prefixLen ∧ prefixLen ≤ 32
  | _ => True

def LocalSteps (lpm : RteLpm L) (sem : Locking) (r : RouterState L) (c : Call) (r' : RouterState L) : Prop :=
  PrefixOk c ∧ ∃ ret, c.run lpm sem r = .ok (ret, r')

theorem configOf_concat (cs : List Call) (c : Call) (i : ℕ) :
    configOf (cs ++ [c]) i = (c.config i).or (configOf cs i) := by
  unfold configOf
  rw [List.filterMap_append]
  cases h : c.config i with
  | none => simp [h]
  | some x => simp [h]

/-! ### What the calls do to the ports -/

theorem addRoute_ports (h : addRoute lpm sem r ip prefixLen gw_ip = .ok (ret, r')) :
    r'.localPortInfo = r.localPortInfo := by
  obtain ⟨lock, -, -, rfl⟩ := addRoute_eq_ok h
  have hexit := addRouteLocked_exit lpm { r with lock := lock } ip prefixLen gw_ip
  generalize addRouteLocked lpm { r with lock := lock } ip prefixLen gw_ip = x at hexit
  cases hexit <;> rfl

theorem findRoute_ports {found : FoundRoute} (h : findRoute lpm sem r ip = .ok (found, r')) :
    r'.localPortInfo = r.localPortInfo := by
  unfold findRoute at h
  obtain ⟨lock, -, h⟩ := bind_eq_ok.1 h
  cases h
  rfl

theorem delRouteLoop_ports : ∀ (slots : List ℕ) {r : RouterState L},
    delRouteLoop lpm sem ip prefixLen slots r = .ok (ret, r') → r'.localPortInfo = r.localPortInfo := by
  intro slots
  induction slots with
  | nil =>
    intro r h
    cases h
    rfl
  | cons i slots ih =>
    intro r h
    unfold delRouteLoop at h
    split at h
    · obtain ⟨⟨found, r₁⟩, hfind, h⟩ := bind_eq_ok.1 h
      have hports := findRoute_ports hfind
      simp only at h
      split at h
      · cases h
        exact hports
      · exact (ih h).trans hports
    · exact ih h

theorem delRoute_ports (h : delRoute lpm sem r ip prefixLen = .ok (ret, r')) :
    r'.localPortInfo = r.localPortInfo := by
  unfold delRoute at h
  obtain ⟨lock, -, h⟩ := bind_eq_ok.1 h
  obtain ⟨⟨ret', r₁⟩, hloop, h⟩ := bind_eq_ok.1 h
  cases h
  exact (delRouteLoop_ports _ hloop).trans rfl

theorem dumpRouteLoop_ports : ∀ (slots : List ℕ) {r r' : RouterState L} {lines : List RouteLine},
    dumpRouteLoop lpm sem slots r = .ok (lines, r') → r'.localPortInfo = r.localPortInfo := by
  intro slots
  induction slots with
  | nil =>
    intro r r' lines h
    cases h
    rfl
  | cons i slots ih =>
    intro r r' lines h
    unfold dumpRouteLoop at h
    split at h
    · obtain ⟨⟨found, r₁⟩, hfind, h⟩ := bind_eq_ok.1 h
      obtain ⟨⟨lines', r₂⟩, hloop, h⟩ := bind_eq_ok.1 h
      have hports := (ih hloop).trans (findRoute_ports hfind)
      simp only at h
      split at h
      · split at h
        · cases h
          exact hports
        · cases h
          exact hports
      · cases h
        exact hports
    · exact ih h

theorem dumpRoute_ports {out : ℤ × List RouteLine} (h : dumpRoute lpm sem r = .ok (out, r')) :
    r'.localPortInfo = r.localPortInfo := by
  unfold dumpRoute at h
  obtain ⟨lock, -, h⟩ := bind_eq_ok.1 h
  obtain ⟨⟨lines, r₁⟩, hloop, h⟩ := bind_eq_ok.1 h
  cases h
  exact (dumpRouteLoop_ports _ hloop).trans rfl

theorem initARPTable_ports {malloc : Bool} {port_id : ℕ} {postfix_len : UInt32}
    (h : initARPTable sem malloc r port_id postfix_len = .ok (ret, r')) :
    r'.localPortInfo = r.localPortInfo := by
  unfold initARPTable at h
  obtain ⟨lock, -, h⟩ := bind_eq_ok.1 h
  cases h
  rfl

/-- `ifconfig` finds no port of the name, or sets the address of the first one. -/
theorem ifconfig_ports {malloc : Bool} {name : String}
    (h : ifconfig lpm sem malloc r name ip prefixLen = .ok (ret, r')) :
    match portOfName r name (List.range portNum) with
    | none => r'.localPortInfo = r.localPortInfo
    | some port => r'.localPortInfo = Function.update r.localPortInfo port
        { r.localPortInfo port with ip := ip, prefixLen := prefixLen } := by
  unfold ifconfig at h
  cases hport : portOfName r name (List.range portNum) with
  | none =>
    rw [hport] at h
    cases h
    rfl
  | some port =>
    rw [hport] at h
    simp only at h ⊢
    -- with and without a deletion of the old network, the ports are as before when the address is set
    obtain ⟨r₁, hports, h⟩ : ∃ r₁ : RouterState L, r₁.localPortInfo = r.localPortInfo ∧
        (do
          let x ← initARPTable sem malloc { r₁ with
            localPortInfo := Function.update r₁.localPortInfo port
              { r₁.localPortInfo port with ip := ip, prefixLen := prefixLen } } port (32 - prefixLen)
          let y ← addRoute lpm sem x.2 ip prefixLen 0
          pure ((1 : ℤ), y.2)) = Except.ok (ret, r') := by
      split at h
      · obtain ⟨⟨ret₁, r₁⟩, hdel, h⟩ := bind_eq_ok.1 h
        exact ⟨r₁, delRoute_ports hdel, h⟩
      · exact ⟨r, rfl, h⟩
    obtain ⟨⟨ret₂, r₂⟩, harp, h⟩ := bind_eq_ok.1 h
    obtain ⟨⟨ret₃, r₃⟩, hadd, h⟩ := bind_eq_ok.1 h
    cases h
    have hlast := (addRoute_ports hadd).trans (initARPTable_ports harp)
    simp only [hports] at hlast
    exact hlast

/-! ### Runs -/

/-- The ports are as their last configurations have set them. -/
def PortInv (cs : List Call) (r : RouterState L) : Prop :=
  ∀ i < portNum, r.localPortInfo i =
    { name := portName i
      ip := ((configOf cs i).getD (0, 0)).1
      prefixLen := ((configOf cs i).getD (0, 0)).2 }

theorem portName_inj : portName 0 ≠ portName 1 := by decide

/-- A port is found by its name. -/
theorem PortInv.portOfName (h : PortInv cs r) (name : String) :
    Router.portOfName r name (List.range portNum) =
      if name = portName 0 then some 0 else if name = portName 1 then some 1 else none := by
  have h0 : (r.localPortInfo 0).name = portName 0 := by rw [h 0 (by decide)]
  have h1 : (r.localPortInfo 1).name = portName 1 := by rw [h 1 (by decide)]
  show Router.portOfName r name [0, 1] = _
  simp only [Router.portOfName, h0, h1, eq_comm]

theorem PortInv.congr (h : PortInv cs r) (hports : r'.localPortInfo = r.localPortInfo) {c : Call}
    (hc : ∀ i < portNum, c.config i = none) : PortInv (cs ++ [c]) r' := by
  intro i hi
  rw [hports, configOf_concat, hc i hi, Option.none_or]
  exact h i hi

theorem PortInv.step (h : PortInv cs r) {c : Call} (hs : LocalSteps lpm sem r c r') :
    PortInv (cs ++ [c]) r' := by
  obtain ⟨-, ret, hrun⟩ := hs
  cases c with
  | addRoute ip prefixLen gw_ip => exact h.congr (addRoute_ports hrun) fun _ _ => rfl
  | delRoute ip prefixLen => exact h.congr (delRoute_ports hrun) fun _ _ => rfl
  | findRoute ip =>
    obtain ⟨⟨found, r₁⟩, hfind, heq⟩ := map_eq_ok.1 hrun
    cases heq
    exact h.congr (findRoute_ports hfind) fun _ _ => rfl
  | dumpRoute =>
    obtain ⟨⟨out, r₁⟩, hdump, heq⟩ := map_eq_ok.1 hrun
    cases heq
    exact h.congr (dumpRoute_ports hdump) fun _ _ => rfl
  | ifconfig malloc name ip prefixLen =>
    have hports := ifconfig_ports hrun
    rw [h.portOfName] at hports
    by_cases h0 : name = portName 0
    · rw [if_pos h0] at hports
      intro i hi
      rw [hports, configOf_concat]
      obtain rfl | rfl : i = 0 ∨ i = 1 := by unfold portNum at hi; omega
      · rw [Function.update_self, h 0 hi]
        simp [Call.config, h0]
      · rw [Function.update_of_ne (by decide), h 1 hi]
        simp [Call.config, h0, portName_inj]
    · rw [if_neg h0] at hports
      by_cases h1 : name = portName 1
      · rw [if_pos h1] at hports
        intro i hi
        rw [hports, configOf_concat]
        obtain rfl | rfl : i = 0 ∨ i = 1 := by unfold portNum at hi; omega
        · rw [Function.update_of_ne (by decide), h 0 hi]
          simp [Call.config, h0]
        · rw [Function.update_self, h 1 hi]
          simp [Call.config, h1]
      · rw [if_neg h1] at hports
        refine h.congr hports fun i hi => ?_
        obtain rfl | rfl : i = 0 ∨ i = 1 := by unfold portNum at hi; omega
        · exact if_neg h0
        · exact if_neg h1

theorem portInv_run {table : L} (hrun : Trace (LocalSteps lpm sem) (registRoutingModule table) cs r) :
    PortInv cs r := by
  refine hrun.inv_events (P := PortInv) (fun _ _ _ _ h hs => h.step hs) ?_
  intro i _
  rfl

theorem config_range {c : Call} {x : UInt32 × UInt32} (hc : c.config i = some x) (hok : PrefixOk c) :
    1 ≤ x.2 ∧ x.2 ≤ 32 := by
  cases c with
  | ifconfig malloc name ip prefixLen =>
    by_cases hname : name = portName i
    · rw [Call.config, if_pos hname] at hc
      cases hc
      exact hok
    · rw [Call.config, if_neg hname] at hc
      cases hc
  | addRoute => cases hc
  | delRoute => cases hc
  | findRoute => cases hc
  | dumpRoute => cases hc

/-- The ports are configured with prefix lengths from 1 to 32. -/
theorem configOf_range {r₀ : RouterState L} (hrun : Trace (LocalSteps lpm sem) r₀ cs r) :
    ∀ {i : ℕ} {x : UInt32 × UInt32}, configOf cs i = some x → 1 ≤ x.2 ∧ x.2 ≤ 32 := by
  refine hrun.inv_events (P := fun cs _ => ∀ {i : ℕ} {x : UInt32 × UInt32},
    configOf cs i = some x → 1 ≤ x.2 ∧ x.2 ≤ 32) ?_ ?_
  · intro cs r c r' ih hs i x hx
    rw [configOf_concat] at hx
    cases hc : c.config i with
    | none =>
      rw [hc, Option.none_or] at hx
      exact ih hx
    | some y =>
      rw [hc] at hx
      cases hx
      exact config_range hc hs.1
  · intro i x hx
    cases hx

/-! ### The test -/

/-- The amounts of the shifts that the loop of `flowQoS_router_isLocalIP` evaluates. -/
def isLocalIPShifts (r : RouterState L) (tip : UInt32) : List ℕ → List UInt32
  | [] => []
  | i :: is =>
    let mask := maskOf (r.localPortInfo i).prefixLen
    (32 - (r.localPortInfo i).prefixLen) ::
      if tip &&& mask = (r.localPortInfo i).ip &&& mask then [] else isLocalIPShifts r tip is

/-- The test is exact for an address: it gives only configured ports in whose subnet the address is, none
where there is none, and shifts by less than 32. -/
structure LocalExact (cs : List Call) (r : RouterState L) (tip : UInt32) : Prop where
  port : ∀ i : ℕ, isLocalIP r tip = i → InPort cs i tip
  none : (∀ i < portNum, ¬ InPort cs i tip) → isLocalIP r tip = -1
  shifts : ∀ a ∈ isLocalIPShifts r tip (List.range portNum), a < 32

/-- The condition of the loop for a port. -/
theorem PortInv.subnet (h : PortInv cs r) (tip : UInt32) (hi : i < portNum) {ip prefixLen : UInt32}
    (hc : configOf cs i = some (ip, prefixLen)) :
    (r.localPortInfo i).prefixLen = prefixLen ∧
      (tip &&& maskOf (r.localPortInfo i).prefixLen =
        (r.localPortInfo i).ip &&& maskOf (r.localPortInfo i).prefixLen ↔ InPort cs i tip) := by
  have hport : (r.localPortInfo i).ip = ip ∧ (r.localPortInfo i).prefixLen = prefixLen := by
    rw [h i hi, hc]
    exact ⟨rfl, rfl⟩
  rw [hport.1, hport.2]
  refine ⟨rfl, fun heq => ⟨hi, ip, prefixLen, hc, heq⟩, ?_⟩
  rintro ⟨-, ip', prefixLen', hc', heq⟩
  rw [hc] at hc'
  cases hc'
  exact heq

theorem PortInv.unconfigured (h : PortInv cs r) (hi : i < portNum) (hc : configOf cs i = .none) :
    (r.localPortInfo i).prefixLen = 0 := by
  rw [h i hi, hc]
  rfl

theorem shift_lt (hp : 1 ≤ prefixLen ∧ prefixLen ≤ 32) : 32 - prefixLen < 32 := by
  have h1 : 1 ≤ prefixLen.toNat := UInt32.le_iff_toNat_le.1 hp.1
  have h32 : (32 : UInt32).toNat = 32 := rfl
  rw [UInt32.lt_iff_toNat_lt, UInt32.toNat_sub_of_le _ _ hp.2, h32]
  omega

/-- The loop over some ports is exact. -/
structure LoopExact (cs : List Call) (r : RouterState L) (tip : UInt32) (is : List ℕ) : Prop where
  port : ∀ i : ℕ, isLocalIPLoop r tip is = i → InPort cs i tip
  none : (∀ i ∈ is, ¬ InPort cs i tip) → isLocalIPLoop r tip is = -1
  shifts : ∀ a ∈ isLocalIPShifts r tip is, a < 32

/-- The loop comes to configured ports only. -/
def Visits (cs : List Call) (tip : UInt32) : List ℕ → Prop
  | [] => True
  | i :: is => (configOf cs i).isSome ∧ (InPort cs i tip ∨ Visits cs tip is)

theorem localExact_iff_loop : LocalExact cs r tip ↔ LoopExact cs r tip (List.range portNum) := by
  constructor
  · intro h
    exact ⟨h.port, fun hall => h.none fun i hi => hall i (List.mem_range.2 hi), h.shifts⟩
  · intro h
    exact ⟨h.port, fun hall => h.none fun i hi => hall i (List.mem_range.1 hi), h.shifts⟩

/-- A port that has not been configured asks for a shift by 32. -/
theorem LoopExact.configured (h : PortInv cs r) {is : List ℕ} (hi : i < portNum)
    (hloop : LoopExact cs r tip (i :: is)) : (configOf cs i).isSome := by
  cases hc : configOf cs i with
  | none =>
    have hshift := hloop.shifts (32 - (r.localPortInfo i).prefixLen) List.mem_cons_self
    rw [h.unconfigured hi hc] at hshift
    exact absurd hshift (by decide)
  | some x => rfl

/-- The loop stops at a configured port that has the address in its subnet. -/
theorem loopExact_hit {is : List ℕ} {ip prefixLen : UInt32} (h : PortInv cs r) (hin : InPort cs i tip)
    (hc : configOf cs i = some (ip, prefixLen)) (hp : 1 ≤ prefixLen ∧ prefixLen ≤ 32) :
    LoopExact cs r tip (i :: is) := by
  obtain ⟨hpre, hsub⟩ := h.subnet tip hin.1 hc
  have hport : isLocalIPLoop r tip (i :: is) = i := by
    rw [isLocalIPLoop, if_pos (hsub.2 hin)]
  refine ⟨fun j hj => ?_, fun hall => ?_, fun a ha => ?_⟩
  · rw [hport] at hj
    obtain rfl : i = j := by omega
    exact hin
  · exact absurd hin (hall i List.mem_cons_self)
  · rw [isLocalIPShifts, if_pos (hsub.2 hin), List.mem_singleton, hpre] at ha
    rw [ha]
    exact shift_lt hp

/-- It passes one that has not. -/
theorem loopExact_miss {is : List ℕ} {ip prefixLen : UInt32} (h : PortInv cs r) (hi : i < portNum)
    (hin : ¬ InPort cs i tip) (hc : configOf cs i = some (ip, prefixLen))
    (hp : 1 ≤ prefixLen ∧ prefixLen ≤ 32) :
    LoopExact cs r tip (i :: is) ↔ LoopExact cs r tip is := by
  obtain ⟨hpre, hsub⟩ := h.subnet tip hi hc
  have hport : isLocalIPLoop r tip (i :: is) = isLocalIPLoop r tip is := by
    rw [isLocalIPLoop, if_neg (mt hsub.1 hin)]
  have hshifts : isLocalIPShifts r tip (i :: is) = (32 - prefixLen) :: isLocalIPShifts r tip is := by
    rw [isLocalIPShifts, if_neg (mt hsub.1 hin), hpre]
  constructor
  · rintro ⟨h1, h2, h3⟩
    rw [hport] at h1 h2
    rw [hshifts] at h3
    exact ⟨h1, fun hall => h2 (List.forall_mem_cons.2 ⟨hin, hall⟩), (List.forall_mem_cons.1 h3).2⟩
  · rintro ⟨h1, h2, h3⟩
    refine ⟨?_, fun hall => ?_, ?_⟩
    · rw [hport]
      exact h1
    · rw [hport]
      exact h2 (List.forall_mem_cons.1 hall).2
    · rw [hshifts]
      exact List.forall_mem_cons.2 ⟨shift_lt hp, h3⟩

/-- **The loop** over some ports is exact if and only if it comes to configured ports only. -/
theorem loopExact_iff (h : PortInv cs r)
    (hrange : ∀ {i : ℕ} {x : UInt32 × UInt32}, configOf cs i = some x → 1 ≤ x.2 ∧ x.2 ≤ 32) :
    ∀ is : List ℕ, (∀ i ∈ is, i < portNum) → (LoopExact cs r tip is ↔ Visits cs tip is) := by
  intro is
  induction is with
  | nil =>
    intro _
    refine ⟨fun _ => trivial, fun _ => ⟨fun i hi => ?_, fun _ => rfl, fun a ha => by cases ha⟩⟩
    cases hi
  | cons i is ih =>
    intro hlt
    have hi := hlt i List.mem_cons_self
    have hiff := ih fun j hj => hlt j (List.mem_cons_of_mem _ hj)
    cases hc : configOf cs i with
    | none =>
      refine ⟨fun hloop => ?_, fun hvisits => ?_⟩
      · have hsome := LoopExact.configured h hi hloop
        rw [hc] at hsome
        cases hsome
      · have hsome := hvisits.1
        rw [hc] at hsome
        cases hsome
    | some x =>
      have hsome : (configOf cs i).isSome := by
        rw [hc]
        rfl
      by_cases hin : InPort cs i tip
      · exact ⟨fun _ => ⟨hsome, .inl hin⟩, fun _ => loopExact_hit h hin hc (hrange hc)⟩
      · rw [loopExact_miss h hi hin hc (hrange hc), hiff]
        exact ⟨fun hvisits => ⟨hsome, .inr hvisits⟩, fun hvisits => hvisits.2.resolve_left hin⟩

/-- **Local addresses.** After any calls, the test is exact for an address if and only if port 0 has been
configured, and the address is in its subnet or port 1 has been configured too. -/
theorem isLocalIP_exact_iff {table : L}
    (hrun : Trace (LocalSteps lpm sem) (registRoutingModule table) cs r) (tip : UInt32) :
    LocalExact cs r tip ↔
      (configOf cs 0).isSome ∧ (InPort cs 0 tip ∨ (configOf cs 1).isSome) := by
  have hloop : LoopExact cs r tip (List.range portNum) ↔ Visits cs tip (List.range portNum) :=
    loopExact_iff (portInv_run hrun) (configOf_range hrun) _ fun i hi => List.mem_range.1 hi
  rw [localExact_iff_loop, hloop]
  show (configOf cs 0).isSome ∧ (InPort cs 0 tip ∨ (configOf cs 1).isSome ∧ (InPort cs 1 tip ∨ True)) ↔ _
  simp only [or_true, and_true]

/-! ### Gateways and the `arp` command -/

/-- An addition accepts only a gateway, or a network without one, in the subnet of a configured port. -/
theorem LocalExact.gateway
    (h : LocalExact cs r (if gw_ip = 0 then ip &&& maskOf prefixLen else gw_ip))
    (hadd : addRoute lpm sem r ip prefixLen gw_ip = .ok (1, r')) :
    ∃ i, InPort cs i (if gw_ip = 0 then ip &&& maskOf prefixLen else gw_ip) := by
  have hlocal : Local r ip prefixLen gw_ip := by
    obtain ⟨lock, -, hret, -⟩ := addRoute_eq_ok hadd
    have hexit := addRouteLocked_exit lpm { r with lock := lock } ip prefixLen gw_ip
    generalize addRouteLocked lpm { r with lock := lock } ip prefixLen gw_ip = x at hexit hret
    cases hexit with
    | early => cases hret
    | refused => cases hret
    | notLocal => cases hret
    | ok _ _ _ hlocal => exact hlocal
  by_contra hno
  have hnone := h.none fun i _ hin => hno ⟨i, hin⟩
  apply routePort_ne hlocal
  unfold routePort
  split
  · next hgw =>
    rw [if_pos hgw] at hnone
    exact hnone
  · next hgw =>
    rw [if_neg hgw] at hnone
    exact hnone

theorem writeArp_other {port_id : ℕ} {entry : ArpEntry} (h : writeArp sem r port_id ip entry = .ok (ret, r'))
    (hi : i ≠ port_id) : r'.arp_tables i = r.arp_tables i := by
  unfold writeArp at h
  obtain ⟨lock, -, h⟩ := bind_eq_ok.1 h
  cases harps : (r.arp_tables port_id).arps with
  | none =>
    rw [harps] at h
    cases h
    exact Function.update_of_ne hi _ _
  | some arps =>
    rw [harps] at h
    cases h
    exact Function.update_of_ne hi _ _

/-- The `arp` command writes to no table of a port that has not been configured. -/
theorem LocalExact.arp {s : Bool} {mac : Mac} (h : LocalExact cs r tip)
    (hcmd : arpCmd sem r s tip mac = .ok r') (hi : configOf cs i = .none) :
    r'.arp_tables i = r.arp_tables i := by
  unfold arpCmd at hcmd
  simp only at hcmd
  split at hcmd
  · next hport =>
    have hne : i ≠ (isLocalIP r tip).toNat := by
      rintro rfl
      have hlocal : isLocalIP r tip = -1 ∨ 0 ≤ isLocalIP r tip := by
        show isLocalIPLoop r tip [0, 1] = -1 ∨ 0 ≤ isLocalIPLoop r tip [0, 1]
        simp only [isLocalIPLoop]
        split
        · exact .inr (by decide)
        · split
          · exact .inr (by decide)
          · exact .inl rfl
      have hnat := (hlocal.resolve_left hport)
      obtain ⟨-, ip', p', hc, -⟩ := h.port _ (Int.toNat_of_nonneg hnat).symm
      rw [hi] at hc
      cases hc
    split at hcmd
    · obtain ⟨⟨ret, r₁⟩, hput, hcmd⟩ := bind_eq_ok.1 hcmd
      cases hcmd
      exact writeArp_other hput hne
    · obtain ⟨⟨ret, r₁⟩, hdel, hcmd⟩ := bind_eq_ok.1 hcmd
      cases hcmd
      exact writeArp_other hdel hne
  · cases hcmd
    rfl

/-! ### Before the first configuration -/

/-- `ifconfig dpdk0 192.168.200.2 netmask 255.255.255.0`. -/
def configure0 : Call := .ifconfig true "dpdk0" 0xC0A8C802 24

def configured0 : ℤ × RouterState (List LpmRule) :=
  outcome (configure0.run lpmRules .rwlock (registRoutingModule [])) (registRoutingModule [])

theorem configured0_eq : configure0.run lpmRules .rwlock (registRoutingModule []) =
    .ok (configured0.1, configured0.2) :=
  outcome_eq (show configured0.1 ≠ -1 by decide +kernel)

theorem prefixOk_configure0 : PrefixOk configure0 := show (1 : UInt32) ≤ 24 ∧ 24 ≤ 32 by decide

theorem isLocalIP_exact_iff_configured0 : LocalExact [configure0] configured0.2 0xC0A8C807 :=
  (isLocalIP_exact_iff (Trace.single ⟨prefixOk_configure0, _, configured0_eq⟩) 0xC0A8C807).2
    ⟨rfl, .inl ⟨by decide, _, _, rfl, by decide⟩⟩

/-- No port has been configured: the address 0 is local to port 0 after a shift by 32, and a route to
0.0.0.0/32 without a gateway is accepted. -/
theorem unconfigured_port_local :
    let r : RouterState (List LpmRule) := registRoutingModule []
    Trace (LocalSteps lpmRules .rwlock) r [] r ∧ isLocalIP r 0 = 0 ∧
      32 ∈ isLocalIPShifts r 0 (List.range portNum) ∧ ¬ LocalExact [] r 0 ∧
      (outcome (addRoute lpmRules .rwlock r 0 32 0) r).1 = 1 := by
  refine ⟨.nil _, by decide, by decide, fun h => ?_, by decide +kernel⟩
  obtain ⟨-, ip, prefixLen, hc, -⟩ := h.port 0 (by decide)
  cases hc

end FlowQoS.Router
