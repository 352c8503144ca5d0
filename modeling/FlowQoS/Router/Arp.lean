import FlowQoS.Router.Defs
import FlowQoS.Lib.SlotMap
import FlowQoS.Lib.Trace

/-!
# The ARP tables (`flowQoS_router.c`)

A port's table has a slot for each pattern of the low bits of an address; a slot whose address is 0 is
empty. `flowQoS_router_get_arp` gives the MAC of the slot it comes to without a look at the address that is
stored there, so addresses with the same low bits are answered with each other's MACs
(`getArp_exact_iff`).

The slots are those of `Lib.SlotMap`: `arpSlots_run` says that a slot holds what the last call on one of
its addresses has left there.
-/

namespace FlowQoS.Router

open Lib

variable {L : Type} {sem : Locking} {r r' r₀ r₁ : RouterState L} {port_id : ℕ}

/-- The six bytes of an address. -/
abbrev Mac := Vector UInt8 6

/-! ### The operations -/

/-- A port with another entry in a slot of its table. -/
def RouterState.setArp (r : RouterState L) (port_id : ℕ) (lock : ℤ) (arps : Option (ℕ → ArpEntry)) :
    RouterState L :=
  { r with arp_tables :=
      Function.update r.arp_tables port_id { r.arp_tables port_id with arps := arps, lock := lock } }

/-- The slot of an address. -/
def arpPos (r : RouterState L) (port_id : ℕ) (ip : UInt32) : ℕ := (ip &&& (r.arp_tables port_id).mask).toNat

/-- The body of `flowQoS_router_put_arp` and `flowQoS_router_del_arp`: the slot of `ip` is written. -/
def writeArp (sem : Locking) (r : RouterState L) (port_id : ℕ) (ip : UInt32) (entry : ArpEntry) :
    Except Fault (ℤ × RouterState L) := do
  let lock ← sem.writeLock (r.arp_tables port_id).lock
  match (r.arp_tables port_id).arps with
  | none => return (0, r.setArp port_id (sem.writeUnlock lock) none)
  | some arps =>
    return (1, r.setArp port_id (sem.writeUnlock lock)
      (some (Function.update arps (arpPos r port_id ip) entry)))

/-- `flowQoS_router_put_arp`. -/
def putArp (sem : Locking) (r : RouterState L) (port_id : ℕ) (ip : UInt32) (mac : Mac) :
    Except Fault (ℤ × RouterState L) := writeArp sem r port_id ip { ip := ip, mac := mac.toList }

/-- `flowQoS_router_del_arp`. -/
def delArp (sem : Locking) (r : RouterState L) (port_id : ℕ) (ip : UInt32) :
    Except Fault (ℤ × RouterState L) := writeArp sem r port_id ip {}

/-- `flowQoS_router_get_arp`: the MAC, where it returns 1. -/
def getArp (sem : Locking) (r : RouterState L) (port_id : ℕ) (ip : UInt32) :
    Except Fault (Option (List UInt8) × RouterState L) := do
  let lock ← sem.readLock (r.arp_tables port_id).lock
  let found := match (r.arp_tables port_id).arps with
    | none => none
    | some arps =>
      if (arps (arpPos r port_id ip)).ip = 0 then none else some (arps (arpPos r port_id ip)).mac
  return (found, r.setArp port_id (sem.readUnlock lock) (r.arp_tables port_id).arps)

/-- `arp_cmd_parsed` for the option `-s`, or another one. -/
def arpCmd (sem : Locking) (r : RouterState L) (s : Bool) (tip : UInt32) (mac : Mac) :
    Except Fault (RouterState L) := do
  let port := isLocalIP r tip
  if port ≠ -1 then
    if s then return (← putArp sem r port.toNat tip mac).2
    else return (← delArp sem r port.toNat tip).2
  else return r

/-! ### Runs -/

/-- A call that changes the table. -/
abbrev ArpOp := MapOp UInt32 Mac

def ArpSteps (sem : Locking) (port_id : ℕ) (r : RouterState L) : ArpOp → RouterState L → Prop
  | .put ip mac, r' => ∃ ret, putArp sem r port_id ip mac = .ok (ret, r')
  | .del ip, r' => ∃ ret, delArp sem r port_id ip = .ok (ret, r')

/-- What a slot holds after the last call on one of its addresses. -/
def arpContent : Option ArpOp → ArpEntry
  | some (.put ip mac) => { ip := ip, mac := mac.toList }
  | _ => {}

theorem writeArp_eq_ok {ip : UInt32} {entry : ArpEntry} {ret : ℤ}
    (h : writeArp sem r port_id ip entry = .ok (ret, r')) :
    (r'.arp_tables port_id).mask = (r.arp_tables port_id).mask ∧
      (r'.arp_tables port_id).arps = (r.arp_tables port_id).arps.map fun arps =>
        Function.update arps (arpPos r port_id ip) entry := by
  unfold writeArp at h
  obtain ⟨lock, -, h⟩ := bind_eq_ok.1 h
  cases harps : (r.arp_tables port_id).arps with
  | none =>
    rw [harps] at h
    cases h
    simp [RouterState.setArp]
  | some arps =>
    rw [harps] at h
    cases h
    simp [RouterState.setArp]

theorem ArpSteps.eq {op : ArpOp} (h : ArpSteps sem port_id r op r') :
    (r'.arp_tables port_id).mask = (r.arp_tables port_id).mask ∧
      (r'.arp_tables port_id).arps = (r.arp_tables port_id).arps.map fun arps =>
        Function.update arps (arpPos r port_id op.key) (arpContent (some op)) := by
  cases op with
  | put ip mac =>
    obtain ⟨ret, h⟩ := h
    exact writeArp_eq_ok h
  | del ip =>
    obtain ⟨ret, h⟩ := h
    exact writeArp_eq_ok h

/-- The table after some calls: each slot holds what the last call on it has left. -/
structure ArpSlots (mask : UInt32) (ops : List ArpOp) (r : RouterState L) (port_id : ℕ) : Prop where
  mask_eq : (r.arp_tables port_id).mask = mask
  slots : ∃ arps, (r.arp_tables port_id).arps = some arps ∧
    ∀ pos, arps pos = arpContent (lastOp (fun ip : UInt32 => (ip &&& mask).toNat) ops pos)

theorem arpSlots_init {postfix_len : UInt32} {ret : ℤ}
    (h : initARPTable sem true r₀ port_id postfix_len = .ok (ret, r₁)) :
    ArpSlots ((1 <<< postfix_len) - 1) [] r₁ port_id := by
  unfold initARPTable at h
  obtain ⟨lock, -, h⟩ := bind_eq_ok.1 h
  cases h
  refine ⟨by simp, fun _ => {}, by simp, fun pos => rfl⟩

theorem ArpSlots.step {mask : UInt32} {ops : List ArpOp} {op : ArpOp} (h : ArpSlots mask ops r port_id)
    (hs : ArpSteps sem port_id r op r') : ArpSlots mask (ops ++ [op]) r' port_id := by
  obtain ⟨arps, harps, hcontent⟩ := h.slots
  obtain ⟨hmask, harps'⟩ := hs.eq
  refine ⟨hmask.trans h.mask_eq, _, by rw [harps', harps]; rfl, fun pos => ?_⟩
  show Function.update arps (arpPos r port_id op.key) (arpContent (some op)) pos = _
  rw [lastOp_concat, Function.update_apply, arpPos, h.mask_eq]
  by_cases hpos : pos = (op.key &&& mask).toNat
  · rw [if_pos hpos, if_pos hpos.symm]
  · rw [if_neg hpos, if_neg fun heq => hpos heq.symm]
    exact hcontent pos

theorem arpSlots_run {postfix_len : UInt32} {ret : ℤ} {ops : List ArpOp}
    (hinit : initARPTable sem true r₀ port_id postfix_len = .ok (ret, r₁))
    (hrun : Trace (ArpSteps sem port_id) r₁ ops r) :
    ArpSlots ((1 <<< postfix_len) - 1) ops r port_id :=
  hrun.inv_events (P := fun ops r => ArpSlots ((1 <<< postfix_len) - 1) ops r port_id)
    (fun _ _ _ _ h hs => h.step hs) (arpSlots_init hinit)

/-- A slot is one of those there are. -/
theorem arpPos_lt {postfix_len : UInt32} (hp : postfix_len < 32)
    (hmask : (r.arp_tables port_id).mask = (1 <<< postfix_len) - 1) (ip : UInt32) :
    arpPos r port_id ip < ((1 : UInt32) <<< postfix_len).toNat := by
  have hp' : postfix_len.toNat < 32 := UInt32.lt_iff_toNat_lt.1 hp
  have hpow : 2 ^ postfix_len.toNat < 2 ^ 32 := Nat.pow_lt_pow_right (by decide) hp'
  have hone : ((1 : UInt32) <<< postfix_len).toNat = 2 ^ postfix_len.toNat := by
    rw [UInt32.toNat_shiftLeft, Nat.mod_eq_of_lt hp', Nat.shiftLeft_eq, UInt32.toNat_one, Nat.one_mul,
      Nat.mod_eq_of_lt hpow]
  have hpos : 0 < 2 ^ postfix_len.toNat := Nat.pow_pos (by decide)
  have hle : (1 : UInt32) ≤ 1 <<< postfix_len := by
    rw [UInt32.le_iff_toNat_le, hone]
    exact hpos
  unfold arpPos
  rw [hmask, UInt32.toNat_and, UInt32.toNat_sub_of_le _ _ hle, hone]
  have hand := Nat.and_le_right (n := ip.toNat) (m := 2 ^ postfix_len.toNat - UInt32.toNat 1)
  rw [UInt32.toNat_one] at hand ⊢
  omega

/-! ### Lookups -/

/-- The slot of an address in a table with so many low bits. -/
def arpSlot (postfix_len ip : UInt32) : ℕ := (ip &&& ((1 <<< postfix_len) - 1)).toNat

/-- The MAC that is given is that of the latest put of the address, which no later deletion has taken out. -/
def ArpExact (ops : List ArpOp) (ip : UInt32) (found : Option (List UInt8)) : Prop :=
  ∀ mac, found = some mac → ∃ m : Mac, lastPut ops ip = some m ∧ mac = m.toList

/-- A lookup gives the MAC of the last put into the slot, if its address is not 0. -/
theorem ArpSlots.get {postfix_len ip : UInt32} {ops : List ArpOp} {found : Option (List UInt8)}
    (h : ArpSlots ((1 <<< postfix_len) - 1) ops r port_id)
    (hget : getArp sem r port_id ip = .ok (found, r')) (mac : List UInt8) :
    found = some mac ↔ ∃ q m, lastOp (arpSlot postfix_len) ops (arpSlot postfix_len ip) =
      some (.put q m) ∧ q ≠ 0 ∧ mac = m.toList := by
  obtain ⟨arps, harps, hcontent⟩ := h.slots
  unfold getArp at hget
  obtain ⟨lock, -, hget⟩ := bind_eq_ok.1 hget
  rw [harps] at hget
  cases hget
  have hslot : arps (arpPos r port_id ip) =
      arpContent (lastOp (arpSlot postfix_len) ops (arpSlot postfix_len ip)) := by
    unfold arpPos
    rw [h.mask_eq]
    exact hcontent _
  show (if (arps (arpPos r port_id ip)).ip = 0 then none else some (arps (arpPos r port_id ip)).mac) =
    some mac ↔ _
  rw [hslot]
  cases lastOp (arpSlot postfix_len) ops (arpSlot postfix_len ip) with
  | none => simp [arpContent]
  | some op =>
    cases op with
    | put q m =>
      by_cases hq : q = 0
      · simp [arpContent, hq]
      · simp [arpContent, hq, eq_comm]
    | del q => simp [arpContent]

/-- **ARP lookups.** After any calls of put and del on a table, a lookup is exact if and only if the last
call on the slot of the address, where it puts an address other than 0, is for the address itself or puts
the MAC that the address has. -/
theorem getArp_exact_iff {postfix_len ip : UInt32} {ret : ℤ} {ops : List ArpOp}
    {found : Option (List UInt8)}
    (hinit : initARPTable sem true r₀ port_id postfix_len = .ok (ret, r₁))
    (hrun : Trace (ArpSteps sem port_id) r₁ ops r)
    (hget : getArp sem r port_id ip = .ok (found, r')) :
    ArpExact ops ip found ↔ ∀ q mac,
      lastOp (arpSlot postfix_len) ops (arpSlot postfix_len ip) = some (.put q mac) → q ≠ 0 →
        q = ip ∨ lastPut ops ip = some mac := by
  have hfound := (arpSlots_run hinit hrun).get hget
  have hreads : (∀ q mac, lastOp (arpSlot postfix_len) ops (arpSlot postfix_len ip) =
      some (.put q mac) → q ≠ 0 → lastPut ops ip = some mac) ↔ _ := reads_iff
  rw [← hreads]
  constructor
  · intro h q mac hlast hq
    obtain ⟨m, hput, heq⟩ := h mac.toList ((hfound _).2 ⟨q, mac, hlast, hq, rfl⟩)
    rw [hput, Vector.toList_inj.1 heq]
  · intro h mac hmac
    obtain ⟨q, m, hlast, hq, rfl⟩ := (hfound mac).1 hmac
    exact ⟨m, h q m hlast hq, rfl⟩

/-! ### Two addresses in a slot -/

def macA : Mac := #v[2, 0, 0, 0, 0, 1]

/-- 192.168.200.5 alone in a table for a /24. -/
theorem getArp_exact_iff_put : ∃ (r₁ r r' : RouterState Unit) (found : Option (List UInt8)),
    initARPTable .rwlock true (registRoutingModule ()) 0 8 = .ok (1, r₁) ∧
    Trace (ArpSteps .rwlock 0) r₁ [.put 0xC0A8C805 macA] r ∧
    getArp .rwlock r 0 0xC0A8C805 = .ok (found, r') ∧ ArpExact [.put 0xC0A8C805 macA] 0xC0A8C805 found := by
  obtain ⟨r₁, r, r', found, hinit, hrun, hget⟩ :
      ∃ (r₁ r r' : RouterState Unit) (found : Option (List UInt8)),
        initARPTable .rwlock true (registRoutingModule ()) 0 8 = .ok (1, r₁) ∧
        Trace (ArpSteps .rwlock 0) r₁ [.put 0xC0A8C805 macA] r ∧
        getArp .rwlock r 0 0xC0A8C805 = .ok (found, r') :=
    ⟨_, _, _, _, rfl, .cons ⟨1, rfl⟩ (.nil _), rfl⟩
  refine ⟨r₁, r, r', found, hinit, hrun, hget, (getArp_exact_iff hinit hrun hget).2 fun q mac hlast _ => ?_⟩
  cases hlast
  exact .inl rfl

/-- 8.8.8.5 is put into the table of 192.168.200.0/24: a lookup of 192.168.200.5 gives its MAC. -/
theorem colliding_address_answered : ∃ (r₁ r r' : RouterState Unit),
    initARPTable .rwlock true (registRoutingModule ()) 0 8 = .ok (1, r₁) ∧
    Trace (ArpSteps .rwlock 0) r₁ [.put 0x08080805 macA] r ∧
    getArp .rwlock r 0 0xC0A8C805 = .ok (some macA.toList, r') ∧
    ¬ ArpExact [.put 0x08080805 macA] 0xC0A8C805 (some macA.toList) := by
  refine ⟨_, _, _, rfl, .cons ⟨1, rfl⟩ (.nil _), rfl, fun h => ?_⟩
  obtain ⟨m, hput, -⟩ := h _ rfl
  have hnone : lastPut [.put 0x08080805 macA] (0xC0A8C805 : UInt32) = none := by decide
  rw [hnone] at hput
  cases hput

end FlowQoS.Router
