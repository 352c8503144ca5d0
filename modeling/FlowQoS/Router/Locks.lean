import FlowQoS.Router.Lpm
import FlowQoS.Lib.Trace
import Mathlib.Tactic.Ring

/-!
# The routing lock

`flowQoS_router_delRoute` looks the route up, under a read lock of its own, while it holds the write
lock. It gets there as soon as a slot in use stores the network it is called for, so it never
returns for a route that exists; neither does `ifconfig` on a port whose old network has a route.
Every other call comes back and leaves the lock free.

* `delRouteLoop_hit`, `delRouteLoop_miss`: the two ways of the search;
* `disciplined_iff`: the calls that come back, in every state that calls lead to.
-/

namespace FlowQoS.Router

open Lib

variable {L : Type} (lpm : RteLpm L) {r r' : RouterState L} {ip prefixLen gw_ip : UInt32} {ret : ℤ}

/-- No lock is held. -/
def LocksFree (r : RouterState L) : Prop := r.lock = 0 ∧ ∀ i, (r.arp_tables i).lock = 0

/-- Some slot in use stores the network that `delRoute` searches. -/
def Hit (r : RouterState L) (ip prefixLen : UInt32) (slots : List ℕ) : Prop :=
  ∃ i ∈ slots, isRoute r i ≠ 0 ∧ ip &&& maskOf prefixLen = r.ip i

instance (r : RouterState L) (ip prefixLen : UInt32) (slots : List ℕ) :
    Decidable (Hit r ip prefixLen slots) := by
  unfold Hit; infer_instance

/-- The call takes the read lock while it holds the write lock. -/
def Reenters (r : RouterState L) : Call → Prop
  | .delRoute ip prefixLen => Hit r ip prefixLen (List.range maxRules)
  | .ifconfig _ name _ _ => ∃ port ∈ portOfName r name (List.range portNum),
      (r.localPortInfo port).ip ≠ 0 ∧
        Hit r (r.localPortInfo port).ip (r.localPortInfo port).prefixLen (List.range maxRules)
  | _ => False

instance (r : RouterState L) : (c : Call) → Decidable (Reenters r c)
  | .addRoute _ _ _ => inferInstanceAs (Decidable False)
  | .delRoute ip prefixLen => inferInstanceAs (Decidable (Hit r ip prefixLen (List.range maxRules)))
  | .findRoute _ => inferInstanceAs (Decidable False)
  | .dumpRoute => inferInstanceAs (Decidable False)
  | .ifconfig _ name _ _ => inferInstanceAs (Decidable (∃ port ∈ portOfName r name
      (List.range portNum), (r.localPortInfo port).ip ≠ 0 ∧ Hit r (r.localPortInfo port).ip
        (r.localPortInfo port).prefixLen (List.range maxRules)))

/-- The call comes back, without waiting, and leaves the routing lock free. -/
def Disciplined (r : RouterState L) (c : Call) : Prop :=
  ∃ ret r', c.run lpm .rwlock r = .ok (ret, r') ∧ r'.lock = 0

/-- The states that calls lead to from the empty table. -/
def Reachable (table : L) (cs : List Call) (r : RouterState L) : Prop :=
  Trace (fun r c r' => ∃ ret, c.run lpm .rwlock r = .ok (ret, r')) (registRoutingModule table) cs r

/-! ### The functions under the lock -/

/-- A lookup under a free or a read lock. -/
theorem findRoute_read (h : 0 ≤ r.lock) (ip : UInt32) :
    ∃ found, findRoute lpm .rwlock r ip = .ok (found, r) := by
  have hlock : ¬ r.lock < 0 := by omega
  simp only [findRoute, Locking.readLock, if_neg hlock, Locking.readUnlock, bind, Except.bind, pure,
    Except.pure, add_sub_cancel_right]
  exact ⟨_, rfl⟩

/-- A lookup under the write lock waits for ever. -/
theorem findRoute_write (h : r.lock < 0) (ip : UInt32) :
    findRoute lpm .rwlock r ip = .error .deadlock := by
  simp only [findRoute, Locking.readLock, if_pos h, bind, Except.bind]

theorem addRouteLocked_frame (r : RouterState L) (ip prefixLen gw_ip : UInt32) :
    (addRouteLocked lpm r ip prefixLen gw_ip).2.lock = r.lock ∧
      (addRouteLocked lpm r ip prefixLen gw_ip).2.arp_tables = r.arp_tables := by
  simp only [addRouteLocked]
  split
  · exact ⟨rfl, rfl⟩
  · exact ⟨rfl, rfl⟩
  · split
    · split <;> exact ⟨rfl, rfl⟩
    · exact ⟨rfl, rfl⟩

theorem addRoute_free (h : LocksFree r) (ip prefixLen gw_ip : UInt32) :
    ∃ ret r', addRoute lpm .rwlock r ip prefixLen gw_ip = .ok (ret, r') ∧ LocksFree r' := by
  obtain ⟨hl, ha⟩ := addRouteLocked_frame lpm { r with lock := -1 } ip prefixLen gw_ip
  simp only [addRoute, Locking.writeLock, h.1, ne_eq, not_true_eq_false, if_false, bind, Except.bind,
    pure, Except.pure]
  refine ⟨_, _, rfl, ?_, fun i => ?_⟩
  · simp only [Locking.writeUnlock, hl]
    rfl
  · simp only [ha]
    exact h.2 i

/-- The search comes to a slot with the network: the lookup waits for the lock of its caller. -/
theorem delRouteLoop_hit (hlock : r.lock < 0) : ∀ slots : List ℕ, Hit r ip prefixLen slots →
    delRouteLoop lpm .rwlock (ip &&& maskOf prefixLen) prefixLen slots r = .error .deadlock := by
  intro slots
  induction slots with
  | nil =>
    rintro ⟨i, hi, -⟩
    exact absurd hi List.not_mem_nil
  | cons i slots ih =>
    intro hhit
    unfold delRouteLoop
    by_cases hi : isRoute r i ≠ 0 ∧ ip &&& maskOf prefixLen = r.ip i
    · rw [if_pos hi, findRoute_write lpm hlock]
      rfl
    · rw [if_neg hi]
      apply ih
      obtain ⟨j, hj, hroute⟩ := hhit
      rcases List.mem_cons.1 hj with rfl | hj
      · exact absurd hroute hi
      · exact ⟨j, hj, hroute⟩

/-- The search finds nothing and changes nothing. -/
theorem delRouteLoop_miss (sem : Locking) : ∀ slots : List ℕ, ¬ Hit r ip prefixLen slots →
    delRouteLoop lpm sem (ip &&& maskOf prefixLen) prefixLen slots r = .ok (0, r) := by
  intro slots
  induction slots with
  | nil => exact fun _ => rfl
  | cons i slots ih =>
    intro hmiss
    unfold delRouteLoop
    rw [if_neg fun hi => hmiss ⟨i, List.mem_cons_self, hi⟩]
    exact ih fun ⟨j, hj, hroute⟩ => hmiss ⟨j, List.mem_cons_of_mem _ hj, hroute⟩

theorem delRoute_hit (hlock : r.lock = 0) (h : Hit r ip prefixLen (List.range maxRules)) :
    delRoute lpm .rwlock r ip prefixLen = .error .deadlock := by
  have hloop := delRouteLoop_hit lpm (r := { r with lock := -1 }) (show (-1 : ℤ) < 0 by decide)
    (List.range maxRules) h
  simp only [delRoute, Locking.writeLock, hlock, ne_eq, not_true_eq_false, if_false, bind, Except.bind,
    hloop]

theorem delRoute_miss (hlock : r.lock = 0) (h : ¬ Hit r ip prefixLen (List.range maxRules)) :
    delRoute lpm .rwlock r ip prefixLen = .ok (0, r) := by
  have hloop := delRouteLoop_miss lpm (r := { r with lock := -1 }) .rwlock _ h
  simp only [delRoute, Locking.writeLock, hlock, ne_eq, not_true_eq_false, if_false, bind, Except.bind,
    hloop, pure, Except.pure, Locking.writeUnlock]
  rw [show (-1 : ℤ) + 1 = 0 from rfl, ← hlock]

/-- A dump reads under its own read lock. -/
theorem dumpRouteLoop_read (h : 0 ≤ r.lock) : ∀ slots : List ℕ,
    ∃ lines, dumpRouteLoop lpm .rwlock slots r = .ok (lines, r) := by
  intro slots
  induction slots with
  | nil => exact ⟨[], rfl⟩
  | cons i slots ih =>
    obtain ⟨lines, ih⟩ := ih
    unfold dumpRouteLoop
    split
    · obtain ⟨found, hfound⟩ := findRoute_read lpm h (r.ip i)
      simp only [hfound, ih, bind, Except.bind, pure, Except.pure]
      split
      · split <;> exact ⟨_, rfl⟩
      · exact ⟨_, rfl⟩
    · exact ⟨lines, ih⟩

theorem dumpRoute_free (h : r.lock = 0) : ∃ out, dumpRoute lpm .rwlock r = .ok (out, r) := by
  obtain ⟨lines, hlines⟩ := dumpRouteLoop_read lpm
    (show 0 ≤ ({ r with lock := r.lock + 1 } : RouterState L).lock by simp [h]) (List.range maxRules)
  have hlock : ¬ r.lock < 0 := by omega
  simp only [dumpRoute, Locking.readLock, if_neg hlock, bind, Except.bind, hlines, pure, Except.pure,
    Locking.readUnlock, add_sub_cancel_right]
  exact ⟨_, rfl⟩

theorem initARPTable_free (h : LocksFree r) (malloc : Bool) (port_id : ℕ) (postfix_len : UInt32) :
    ∃ ret r', initARPTable .rwlock malloc r port_id postfix_len = .ok (ret, r') ∧ LocksFree r' := by
  simp only [initARPTable, Locking.writeLock, h.2 port_id, ne_eq, not_true_eq_false, if_false, bind,
    Except.bind, pure, Except.pure]
  refine ⟨_, _, rfl, h.1, fun i => ?_⟩
  by_cases hi : i = port_id
  · simp only [hi, Function.update_self]
    rfl
  · simp only [Function.update_of_ne hi]
    exact h.2 i

/-! ### The calls -/

/-- `ifconfig` on a port without an address, or whose old network has no route. -/
theorem ifconfig_free (h : LocksFree r) (malloc : Bool) (name : String)
    (hno : ¬ Reenters r (.ifconfig malloc name ip prefixLen)) :
    ∃ ret r', ifconfig lpm .rwlock malloc r name ip prefixLen = .ok (ret, r') ∧ LocksFree r' := by
  unfold ifconfig
  cases hport : portOfName r name (List.range portNum) with
  | none => exact ⟨0, r, rfl, h⟩
  | some port =>
    obtain ⟨ret₁, r₁, harp, h₁⟩ := initARPTable_free (r := { r with
      localPortInfo := Function.update r.localPortInfo port
        { r.localPortInfo port with ip := ip, prefixLen := prefixLen } }) h malloc port (32 - prefixLen)
    obtain ⟨ret₂, r₂, hadd, h₂⟩ := addRoute_free lpm h₁ ip prefixLen 0
    refine ⟨1, r₂, ?_, h₂⟩
    by_cases hip : (r.localPortInfo port).ip ≠ 0
    · have hdel := delRoute_miss lpm h.1 fun hhit => hno ⟨port, hport, hip, hhit⟩
      simp only [if_pos hip, hdel, bind, Except.bind, harp, hadd, pure, Except.pure]
    · simp only [if_neg hip, bind, Except.bind, harp, hadd, pure, Except.pure]

theorem ifconfig_hit (h : LocksFree r) (malloc : Bool) (name : String)
    (hre : Reenters r (.ifconfig malloc name ip prefixLen)) :
    ifconfig lpm .rwlock malloc r name ip prefixLen = .error .deadlock := by
  obtain ⟨port, hport, hip, hhit⟩ := hre
  unfold ifconfig
  rw [Option.mem_def.1 hport]
  simp only [if_pos hip, delRoute_hit lpm h.1 hhit, bind, Except.bind]

/-- **One call**: it comes back and leaves every lock free unless it takes the read lock while it
holds the write lock, and then it waits for ever. -/
theorem run_free (h : LocksFree r) (c : Call) (hno : ¬ Reenters r c) :
    ∃ ret r', c.run lpm .rwlock r = .ok (ret, r') ∧ LocksFree r' := by
  cases c with
  | addRoute ip prefixLen gw_ip => exact addRoute_free lpm h ip prefixLen gw_ip
  | delRoute ip prefixLen => exact ⟨0, r, delRoute_miss lpm h.1 hno, h⟩
  | findRoute ip =>
    obtain ⟨found, hfound⟩ := findRoute_read lpm h.1.ge ip
    exact ⟨found.ret, r, by simp only [Call.run, hfound, Except.map], h⟩
  | dumpRoute =>
    obtain ⟨out, hout⟩ := dumpRoute_free lpm h.1
    exact ⟨out.1, r, by simp only [Call.run, hout, Except.map], h⟩
  | ifconfig malloc name ip prefixLen => exact ifconfig_free lpm h malloc name hno

theorem run_deadlock (h : LocksFree r) (c : Call) (hre : Reenters r c) :
    c.run lpm .rwlock r = .error .deadlock := by
  cases c with
  | addRoute => exact hre.elim
  | delRoute ip prefixLen => exact delRoute_hit lpm h.1 hre
  | findRoute => exact hre.elim
  | dumpRoute => exact hre.elim
  | ifconfig malloc name ip prefixLen => exact ifconfig_hit lpm h malloc name hre

theorem Reachable.locksFree {lpm : RteLpm L} {table : L} {cs : List Call} (h : Reachable lpm table cs r) :
    LocksFree r := by
  refine Trace.inv (fun s c s' hs hstep => ?_) h ⟨rfl, fun _ => rfl⟩
  obtain ⟨ret, hrun⟩ := hstep
  by_cases hre : Reenters s c
  · rw [run_deadlock lpm hs c hre] at hrun
    cases hrun
  · obtain ⟨ret', s'', hrun', hfree⟩ := run_free lpm hs c hre
    rw [hrun] at hrun'
    cases hrun'
    exact hfree

/-- **Which calls keep the lock discipline**, in every state that calls lead to: those that do not
take the read lock under the write lock. -/
theorem disciplined_iff (table : L) (cs : List Call) (r : RouterState L)
    (h : Reachable lpm table cs r) (c : Call) : Disciplined lpm r c ↔ ¬ Reenters r c := by
  constructor
  · rintro ⟨ret, r', hrun, -⟩ hre
    rw [run_deadlock lpm h.locksFree c hre] at hrun
    cases hrun
  · intro hno
    obtain ⟨ret, r', hrun, hfree⟩ := run_free lpm h.locksFree c hno
    exact ⟨ret, r', hrun, hfree.1⟩

/-- The empty table of rules. -/
theorem disciplined_iff_empty :
    Disciplined lpmRules (registRoutingModule []) (.delRoute 0xC0A8C900 24) ↔
      ¬ Reenters (registRoutingModule ([] : List LpmRule)) (.delRoute 0xC0A8C900 24) :=
  disciplined_iff lpmRules [] [] _ (Trace.nil _) _

/-- After `ifconfig dpdk0 192.168.200.2 netmask 255.255.255.0` the same command again waits for a
lock that it holds. -/
theorem reconfigured_port_deadlocks :
    ¬ ∀ (cs : List Call) (r : RouterState (List LpmRule)), Reachable lpmRules [] cs r →
      ∀ c, Disciplined lpmRules r c := by
  intro hall
  have hre : (match Call.run lpmRules .rwlock (.ifconfig true "dpdk0" 0xC0A8C802 24)
      (registRoutingModule []) with
    | .ok x => decide (Reenters x.2 (.ifconfig true "dpdk0" 0xC0A8C802 24))
    | .error _ => false) = true := by decide +kernel
  cases hrun : Call.run lpmRules .rwlock (.ifconfig true "dpdk0" 0xC0A8C802 24)
      (registRoutingModule []) with
  | error e =>
    rw [hrun] at hre
    cases hre
  | ok x =>
    rw [hrun] at hre
    have hreach : Reachable lpmRules [] [.ifconfig true "dpdk0" 0xC0A8C802 24] x.2 :=
      Trace.single ⟨x.1, hrun⟩
    obtain ⟨ret, r', hok, -⟩ := hall _ _ hreach (.ifconfig true "dpdk0" 0xC0A8C802 24)
    rw [run_deadlock lpmRules hreach.locksFree _ (of_decide_eq_true hre)] at hok
    cases hok

end FlowQoS.Router
