import FlowQoS.Apps.Snat
import FlowQoS.Lib.Rotation
import FlowQoS.Lib.Trace

/-!
# The load balancer (`flowQoS_l4_load_balancing.c`)

Every core has its own table of virtual servers. A new connection from the WAN gets the next real server
of its virtual server, which is the number of connections so far modulo the number of real servers, and
the index is kept in a field of the entry that the hardware does not use, for the statistics to be taken
back when the connection is aged.

The number of connections is a word of 32 bits. It drives a rotation (`Lib/Rotation.lean`), which is
even for ever only when the number of real servers divides `2 ^ 32`.

* `LbInv`: what the counter and the statistics of a virtual server are after a run;
* `run_fair_iff`: when the real servers of a virtual server have an even share.
-/

namespace FlowQoS.LoadBalancing

open Pipe Conntrack Lib

def CONN_EXPIRE : UInt64 := 3
def WAN_PORT_ID : ℕ := 1
def LAN_PORT_ID : ℕ := 0

/-- The first fields of a `SERVICE`, by which it is found. -/
structure ServiceKey where
  dport : UInt16
  proto : UInt16
  dip : UInt32
  deriving DecidableEq

/-- The other fields of a `SERVICE`. -/
structure Service where
  totalRealServers : UInt32
  totalConnections : UInt32
  flowStats : ℕ → UInt32
  rip : ℕ → UInt32
  rport : ℕ → UInt32

/-- The table `ST` of a core and its count `attr.cc`. -/
structure LbAttr where
  st : ServiceKey → Option Service
  cc : UInt64

/-- What the environment answers to a call of `newConn_handler`: the ARP table and the address of the
port to the LAN. -/
structure LbEnv where
  arp_table : Router.ArpTable
  mac : EtherAddr

/-- The key of an entry's match. -/
def keyOf (x : FlowQoSMatch) : ServiceKey where
  dport := x.dst_port
  proto := x.proto.toUInt16
  dip := x.dst_ip

/-- `newConn_handler`. -/
def newConnHandler (env : LbEnv) (newEntry : FlowQoSEntry) (attr : LbAttr) :
    Except Fault (ℤ × FlowQoSEntry × LbAttr) :=
  match newEntry.pipe with
  | none => .error .nullPointer
  | some pipe =>
    if pipe.port_id = WAN_PORT_ID then
      let newEntry := { newEntry with expireTime := CONN_EXPIRE }
      let key := keyOf newEntry.match_
      match attr.st key with
      | none => .ok (ignorePackets, newEntry, attr)
      | some ser =>
        if ser.totalRealServers = 0 then .error .divisionByZero
        else
          let Rserver := ser.totalConnections % ser.totalRealServers
          let ser := { ser with totalConnections := ser.totalConnections + 1 }
          let newEntry := { newEntry with
            action := { newEntry.action with
              dst_ip := ser.rip Rserver.toNat
              dst_port := (ser.rport Rserver.toNat).toUInt16
              src_ip := Rserver
              src_mac := env.mac } }
          match Snat.flowQoSRouterGetArp env.arp_table (Snat.beToCpu32 newEntry.action.dst_ip) with
          | some mac =>
            let ser := { ser with
              flowStats := Function.update ser.flowStats Rserver.toNat (ser.flowStats Rserver.toNat + 1) }
            .ok (LAN_PORT_ID, { newEntry with action := { newEntry.action with dst_mac := mac } },
              { st := Function.update attr.st key (some ser), cc := attr.cc + 1 })
          | none =>
            .ok (ignorePackets, newEntry, { attr with st := Function.update attr.st key (some ser) })
    else .ok (ignorePackets, newEntry, attr)

/-- `agingConn_handler`. -/
def agingConnHandler (newEntry : FlowQoSEntry) (attr : LbAttr) : Except Fault LbAttr :=
  let key := keyOf newEntry.match_
  match attr.st key with
  | none => .ok attr
  | some ser =>
    let i := newEntry.action.src_ip.toNat
    let ser := { ser with flowStats := Function.update ser.flowStats i (ser.flowStats i - 1) }
    .ok { attr with st := Function.update attr.st key (some ser) }

/-! ### Calls -/

/-- A call of `newConn_handler`, or of `agingConn_handler`. -/
inductive LbCall where
  | newConn (env : LbEnv) (newEntry : FlowQoSEntry)
  | aging (newEntry : FlowQoSEntry)

/-- The virtual server of an entry and the index of the real server that is kept in it. -/
def assignment (x : FlowQoSEntry) : ServiceKey × ℕ := (keyOf x.match_, x.action.src_ip.toNat)

/-- The tables, the assignments of all connections that were accepted, and those of the connections
that have not been aged. -/
structure LbState where
  attr : LbAttr
  assigned : List (ServiceKey × ℕ) := []
  live : List (ServiceKey × ℕ) := []

def LbCall.run (s : LbState) : LbCall → Except Fault LbState
  | .newConn env newEntry =>
    (newConnHandler env newEntry s.attr).map fun r =>
      if r.1 < 0 then { s with attr := r.2.2 }
      else
        { attr := r.2.2
          assigned := assignment r.2.1 :: s.assigned
          live := assignment r.2.1 :: s.live }
  | .aging newEntry =>
    (agingConnHandler newEntry s.attr).map fun attr =>
      { s with attr := attr, live := s.live.erase (assignment newEntry) }

/-- Every real server of the virtual server has an ARP entry. -/
def Reachable (env : LbEnv) (ser : Service) : Prop :=
  ∀ r < ser.totalRealServers.toNat,
    (Snat.flowQoSRouterGetArp env.arp_table (Snat.beToCpu32 (ser.rip r))).isSome

/-- The tracker gives a pipe with the entry of a new connection, and ages one that was accepted. -/
def LbCall.Allowed (s : LbState) : LbCall → Prop
  | .newConn env newEntry =>
    newEntry.pipe.isSome ∧ ∀ ser, s.attr.st (keyOf newEntry.match_) = some ser → Reachable env ser
  | .aging newEntry => assignment newEntry ∈ s.live

def LbStep (s : LbState) (call : LbCall) (s' : LbState) : Prop := call.Allowed s ∧ call.run s = .ok s'

/-- The virtual servers as `load_params_to_st` gets them. -/
def Fresh (attr : LbAttr) : Prop :=
  ∀ key ser, attr.st key = some ser → 1 ≤ ser.totalRealServers ∧ ser.totalRealServers ≤ 8 ∧
    ser.totalConnections = 0 ∧ ∀ r, ser.flowStats r = 0

/-- The number of connections to a virtual server. -/
def LbState.connections (s : LbState) (key : ServiceKey) : ℕ := s.assigned.countP fun a => a.1 = key

/-- The shares of any two of the `k` real servers differ by one at most. -/
def Fair (s : LbState) (key : ServiceKey) (k : ℕ) : Prop :=
  ∀ r < k, ∀ r' < k, s.assigned.count (key, r) ≤ s.assigned.count (key, r') + 1

/-- The statistics of the real servers are the numbers of their live connections, and no aging takes
them below zero. -/
def StatsRight (s : LbState) (key : ServiceKey) (k : ℕ) : Prop :=
  ∃ ser, s.attr.st key = some ser ∧ (∀ r < k, (ser.flowStats r).toNat = s.live.count (key, r)) ∧
    ∀ r < k, (key, r) ∈ s.live → ser.flowStats r ≠ 0

/-! ### One call -/

variable {s s' : LbState} {attr₀ : LbAttr} {key : ServiceKey} {ser ser₀ : Service}

/-- The real server of the next connection. -/
def Service.next (ser : Service) : ℕ := (ser.totalConnections % ser.totalRealServers).toNat

/-- A new connection has been accepted. -/
def LbState.take (s : LbState) (key : ServiceKey) (ser : Service) : LbState where
  attr :=
    { st := Function.update s.attr.st key (some { ser with
        totalConnections := ser.totalConnections + 1
        flowStats := Function.update ser.flowStats ser.next (ser.flowStats ser.next + 1) })
      cc := s.attr.cc + 1 }
  assigned := (key, ser.next) :: s.assigned
  live := (key, ser.next) :: s.live

/-- A connection to the `i`-th real server has been aged. -/
def LbState.age (s : LbState) (key : ServiceKey) (ser : Service) (i : ℕ) : LbState :=
  { s with
    attr := { s.attr with st := Function.update s.attr.st key (some { ser with
      flowStats := Function.update ser.flowStats i (ser.flowStats i - 1) }) }
    live := s.live.erase (key, i) }

theorem newConn_run {env : LbEnv} {newEntry : FlowQoSEntry} (hall : (LbCall.newConn env newEntry).Allowed s)
    (hpos : ∀ ser, s.attr.st (keyOf newEntry.match_) = some ser → ser.totalRealServers ≠ 0) :
    ((∀ pipe, newEntry.pipe = some pipe → pipe.port_id = WAN_PORT_ID →
        s.attr.st (keyOf newEntry.match_) = none) ∧ (LbCall.newConn env newEntry).run s = .ok s) ∨
    ∃ ser, s.attr.st (keyOf newEntry.match_) = some ser ∧
      (LbCall.newConn env newEntry).run s = .ok (s.take (keyOf newEntry.match_) ser) := by
  obtain ⟨hpipe, harp⟩ := hall
  obtain ⟨pipe, hpipe⟩ := Option.isSome_iff_exists.1 hpipe
  simp only [LbCall.run, newConnHandler, hpipe, Option.some_inj]
  by_cases hport : pipe.port_id = WAN_PORT_ID
  · rw [if_pos hport]
    cases hser : s.attr.st (keyOf newEntry.match_) with
    | none => exact .inl ⟨fun _ _ _ => rfl, rfl⟩
    | some ser =>
      have hne := hpos ser hser
      have hlt : ser.next < ser.totalRealServers.toNat := by
        unfold Service.next
        rw [UInt32.toNat_mod]
        exact Nat.mod_lt _ (Nat.pos_of_ne_zero fun h => hne (UInt32.toNat_inj.1 h))
      obtain ⟨mac, hmac⟩ := Option.isSome_iff_exists.1 (harp ser hser ser.next hlt)
      unfold Service.next at hmac
      refine .inr ⟨ser, rfl, ?_⟩
      simp only [if_neg hne, hmac]
      rfl
  · rw [if_neg hport]
    refine .inl ⟨?_, rfl⟩
    rintro _ rfl hwan
    exact absurd hwan hport

theorem aging_run (s : LbState) (newEntry : FlowQoSEntry) :
    (s.attr.st (keyOf newEntry.match_) = none ∧
      (LbCall.aging newEntry).run s = .ok { s with live := s.live.erase (assignment newEntry) }) ∨
    ∃ ser, s.attr.st (keyOf newEntry.match_) = some ser ∧ (LbCall.aging newEntry).run s =
      .ok (s.age (keyOf newEntry.match_) ser newEntry.action.src_ip.toNat) := by
  simp only [LbCall.run, agingConnHandler]
  cases hser : s.attr.st (keyOf newEntry.match_) with
  | none => exact .inl ⟨rfl, rfl⟩
  | some ser => exact .inr ⟨ser, rfl, rfl⟩

/-! ### The invariant -/

/-- The counter of a virtual server is the number of its connections, whose shares are those of the
rotation, and its statistics are those of the live ones, in 32 bits. -/
structure Counts (s : LbState) (key : ServiceKey) (ser₀ ser : Service) : Prop where
  real : ser.totalRealServers = ser₀.totalRealServers
  rip : ser.rip = ser₀.rip
  total : ser.totalConnections.toNat = s.connections key % 2 ^ 32
  assigned : ∀ r, s.assigned.count (key, r) =
    turns (2 ^ 32) ser₀.totalRealServers.toNat (s.connections key) r
  stats : ∀ r, (ser.flowStats r).toNat = s.live.count (key, r) % 2 ^ 32

/-- The virtual servers are those of the start. -/
structure LbInv (attr₀ : LbAttr) (s : LbState) : Prop where
  old : ∀ key ser, s.attr.st key = some ser → ∃ ser₀, attr₀.st key = some ser₀
  counts : ∀ key ser₀, attr₀.st key = some ser₀ → ∃ ser, s.attr.st key = some ser ∧ Counts s key ser₀ ser

theorem lbInv_fresh (hfresh : Fresh attr₀) : LbInv attr₀ { attr := attr₀ } := by
  refine ⟨fun key ser hser => ⟨ser, hser⟩,
    fun key ser₀ hser => ⟨ser₀, hser, rfl, rfl, ?_, fun r => rfl, fun r => ?_⟩⟩
  · rw [(hfresh key ser₀ hser).2.2.1]
    rfl
  · rw [(hfresh key ser₀ hser).2.2.2 r]
    rfl

theorem toNat_add_one (x : UInt32) {n : ℕ} (h : x.toNat = n % 2 ^ 32) : (x + 1).toNat = (n + 1) % 2 ^ 32 := by
  rw [UInt32.toNat_add, h]
  exact Nat.mod_add_mod n (2 ^ 32) 1

theorem toNat_sub_one (x : UInt32) {n : ℕ} (h : x.toNat = (n + 1) % 2 ^ 32) : (x - 1).toNat = n % 2 ^ 32 := by
  rw [UInt32.toNat_sub, h]
  show (2 ^ 32 - 1 + (n + 1) % 2 ^ 32) % 2 ^ 32 = n % 2 ^ 32
  omega

/-- What the calls for another virtual server change does not concern this one. -/
theorem Counts.congr (h : Counts s key ser₀ ser) (hassigned : ∀ r, s'.assigned.count (key, r) =
    s.assigned.count (key, r)) (hconn : s'.connections key = s.connections key)
    (hlive : ∀ r, s'.live.count (key, r) = s.live.count (key, r)) : Counts s' key ser₀ ser where
  real := h.real
  rip := h.rip
  total := by rw [hconn, h.total]
  assigned r := by rw [hassigned, hconn, h.assigned]
  stats r := by rw [hlive, h.stats]

theorem Counts.take (h : Counts s key ser₀ ser) : Counts (s.take key ser) key ser₀
    { ser with
      totalConnections := ser.totalConnections + 1
      flowStats := Function.update ser.flowStats ser.next (ser.flowStats ser.next + 1) } := by
  have hnext : ser.next = s.connections key % 2 ^ 32 % ser₀.totalRealServers.toNat := by
    unfold Service.next
    rw [UInt32.toNat_mod, h.total, h.real]
  have hconn : (s.take key ser).connections key = s.connections key + 1 := by
    simp [LbState.connections, LbState.take]
  refine ⟨h.real, h.rip, ?_, fun r => ?_, fun r => ?_⟩
  · rw [hconn]
    exact toNat_add_one _ h.total
  · rw [hconn, turns_succ, ← hnext, ← h.assigned r]
    show ((key, ser.next) :: s.assigned).count (key, r) = _
    rw [List.count_cons]
    simp
  · show (Function.update ser.flowStats ser.next _ r).toNat =
      ((key, ser.next) :: s.live).count (key, r) % 2 ^ 32
    by_cases hr : r = ser.next
    · subst hr
      rw [Function.update_self, List.count_cons_self]
      exact toNat_add_one _ (h.stats _)
    · rw [Function.update_of_ne hr, List.count_cons_of_ne (by simpa using Ne.symm hr), h.stats r]

theorem Counts.age (h : Counts s key ser₀ ser) {i : ℕ} (hi : (key, i) ∈ s.live) :
    Counts (s.age key ser i) key ser₀
      { ser with flowStats := Function.update ser.flowStats i (ser.flowStats i - 1) } := by
  refine ⟨h.real, h.rip, h.total, h.assigned, fun r => ?_⟩
  show (Function.update ser.flowStats i _ r).toNat = (s.live.erase (key, i)).count (key, r) % 2 ^ 32
  by_cases hr : r = i
  · subst hr
    have hpos : s.live.count (key, r) = (s.live.erase (key, r)).count (key, r) + 1 := by
      rw [List.count_erase_self]
      have := List.count_pos_iff.2 hi
      omega
    rw [Function.update_self]
    exact toNat_sub_one _ (by rw [← hpos]; exact h.stats r)
  · rw [Function.update_of_ne hr, List.count_erase_of_ne (by simpa using hr), h.stats r]

theorem LbInv.pos (hfresh : Fresh attr₀) (h : LbInv attr₀ s) (hser : s.attr.st key = some ser) :
    ser.totalRealServers ≠ 0 := by
  intro hzero
  obtain ⟨ser₀, hser₀⟩ := h.old _ _ hser
  obtain ⟨x, hx, hcounts⟩ := h.counts _ _ hser₀
  obtain rfl : ser = x := Option.some_inj.1 (hser.symm.trans hx)
  have hone := (hfresh _ _ hser₀).1
  rw [← hcounts.real, hzero] at hone
  exact absurd hone (by decide)

/-- **A call.** -/
theorem LbInv.step (hfresh : Fresh attr₀) (h : LbInv attr₀ s) {call : LbCall} (hs : LbStep s call s') :
    LbInv attr₀ s' := by
  obtain ⟨hall, hrun⟩ := hs
  -- the virtual server of the call changes, the others stay
  have hupdate : ∀ {key : ServiceKey} {ser ser' : Service}, s.attr.st key = some ser →
      s'.attr.st = Function.update s.attr.st key (some ser') →
      (∀ ser₀, Counts s key ser₀ ser → Counts s' key ser₀ ser') →
      (∀ k ≠ key, ∀ ser₀ ser, Counts s k ser₀ ser → Counts s' k ser₀ ser) → LbInv attr₀ s' := by
    intro key ser ser' hser hst hself hother
    refine ⟨fun k x hx => ?_, fun k ser₀ hser₀ => ?_⟩
    · by_cases hk : k = key
      · subst hk
        exact h.old k ser hser
      · rw [hst, Function.update_of_ne hk] at hx
        exact h.old k x hx
    · obtain ⟨x, hx, hcounts⟩ := h.counts k ser₀ hser₀
      by_cases hk : k = key
      · subst hk
        obtain rfl : ser = x := Option.some_inj.1 (hser.symm.trans hx)
        exact ⟨ser', by rw [hst, Function.update_self], hself ser₀ hcounts⟩
      · exact ⟨x, by rw [hst, Function.update_of_ne hk]; exact hx, hother k hk ser₀ x hcounts⟩
  cases call with
  | newConn env newEntry =>
    rcases newConn_run hall fun _ => h.pos hfresh with ⟨-, hsame⟩ | ⟨ser, hser, htake⟩
    · obtain rfl : s = s' := Except.ok.inj (hsame.symm.trans hrun)
      exact h
    · obtain rfl : s.take _ ser = s' := Except.ok.inj (htake.symm.trans hrun)
      refine hupdate hser rfl (fun ser₀ hc => hc.take) fun k hk ser₀ x hc =>
        hc.congr (fun r => ?_) ?_ fun r => ?_
      · exact List.count_cons_of_ne (by simp [Ne.symm hk])
      · simp [LbState.connections, LbState.take, Ne.symm hk]
      · exact List.count_cons_of_ne (by simp [Ne.symm hk])
  | aging newEntry =>
    rcases aging_run s newEntry with ⟨hnone, hage⟩ | ⟨ser, hser, hage⟩
    · obtain rfl := Except.ok.inj (hage.symm.trans hrun)
      refine ⟨h.old, fun k ser₀ hser₀ => ?_⟩
      obtain ⟨x, hx, hc⟩ := h.counts k ser₀ hser₀
      have hk : k ≠ keyOf newEntry.match_ := by
        rintro rfl
        rw [hnone] at hx
        cases hx
      refine ⟨x, hx, hc.congr (fun _ => rfl) rfl fun r => List.count_erase_of_ne ?_⟩
      simp [assignment, hk]
    · obtain rfl := Except.ok.inj (hage.symm.trans hrun)
      refine hupdate hser rfl (fun ser₀ hc => hc.age hall) fun k hk ser₀ x hc => ?_
      exact hc.congr (fun _ => rfl) rfl fun r => List.count_erase_of_ne (by simp [hk])

/-- No allowed call fails. -/
theorem LbInv.run_ok (hfresh : Fresh attr₀) (h : LbInv attr₀ s) {call : LbCall} (hall : call.Allowed s) :
    ∃ s', call.run s = .ok s' := by
  cases call with
  | newConn env newEntry =>
    rcases newConn_run hall fun _ => h.pos hfresh with ⟨-, hsame⟩ | ⟨ser, -, htake⟩
    · exact ⟨_, hsame⟩
    · exact ⟨_, htake⟩
  | aging newEntry =>
    rcases aging_run s newEntry with ⟨-, hage⟩ | ⟨ser, -, hage⟩
    · exact ⟨_, hage⟩
    · exact ⟨_, hage⟩

/-! ### Every run -/

theorem Counts.fair_iff (h : Counts s key ser₀ ser) (hpos : 1 ≤ ser₀.totalRealServers) :
    Fair s key ser₀.totalRealServers.toNat ↔ ser₀.totalRealServers.toNat ∣ 2 ^ 32 ∨
      s.connections key < 2 ^ 32 ∨
      s.connections key < 2 * 2 ^ 32 ∧ ser₀.totalRealServers.toNat ∣ s.connections key - 2 ^ 32 := by
  have hk : 0 < ser₀.totalRealServers.toNat := UInt32.le_iff_toNat_le.1 hpos
  unfold Fair
  simp only [h.assigned]
  exact turns_fair_iff hk (by decide)

theorem Counts.stats_iff (h : Counts s key ser₀ ser) (hser : s.attr.st key = some ser) (k : ℕ) :
    StatsRight s key k ↔ ∀ r < k, s.live.count (key, r) < 2 ^ 32 := by
  constructor
  · rintro ⟨x, hx, hstats, -⟩ r hr
    rw [← hstats r hr]
    exact UInt32.toNat_lt _
  · intro hlt
    have hstats : ∀ r < k, (ser.flowStats r).toNat = s.live.count (key, r) := by
      intro r hr
      rw [h.stats, Nat.mod_eq_of_lt (hlt r hr)]
    refine ⟨ser, hser, hstats, fun r hr hmem hzero => ?_⟩
    have hpos := List.count_pos_iff.2 hmem
    rw [← hstats r hr, hzero] at hpos
    exact absurd hpos (Nat.lt_irrefl 0)

/-- **Fairness.** In every run of the handlers on a core, from counters and statistics of zero, with an ARP
entry for every real server: the shares of the real servers of a virtual server differ by one at most,
and its statistics are the numbers of their live connections, exactly when the number of real servers
divides `2 ^ 32`, or there were fewer than `2 ^ 32` connections, or the counter has wrapped once and the
rotation is at its start; and when each real server has fewer than `2 ^ 32` live connections. No allowed
call fails. -/
theorem run_fair_iff (attr₀ : LbAttr) (hfresh : Fresh attr₀) (calls : List LbCall) (s : LbState)
    (hrun : Trace LbStep { attr := attr₀ } calls s) (key : ServiceKey) (ser₀ : Service)
    (hser : attr₀.st key = some ser₀) :
    ((Fair s key ser₀.totalRealServers.toNat ∧ StatsRight s key ser₀.totalRealServers.toNat) ↔
      (ser₀.totalRealServers.toNat ∣ 2 ^ 32 ∨ s.connections key < 2 ^ 32 ∨
        s.connections key < 2 * 2 ^ 32 ∧ ser₀.totalRealServers.toNat ∣ s.connections key - 2 ^ 32) ∧
      ∀ r < ser₀.totalRealServers.toNat, s.live.count (key, r) < 2 ^ 32) ∧
    ∀ call : LbCall, call.Allowed s → ∃ s', call.run s = .ok s' := by
  have hinv := hrun.inv (fun _ _ _ h hs => LbInv.step hfresh h hs) (lbInv_fresh hfresh)
  obtain ⟨ser, hnow, hcounts⟩ := hinv.counts key ser₀ hser
  refine ⟨?_, fun call hall => hinv.run_ok hfresh hall⟩
  rw [hcounts.fair_iff (hfresh key ser₀ hser).1, hcounts.stats_iff hnow]

/-! ### Three real servers -/

def webKey : ServiceKey := ⟨0x5000, 6, 0x02c9a8c0⟩

/-- The real servers are 192.168.200.102 and the next two addresses. -/
def webService : Service where
  totalRealServers := 3
  totalConnections := 0
  flowStats _ := 0
  rip r := (0x66c8a8c0 : UInt32) + r.toUInt32 <<< 24
  rport _ := 0x5000

def threeServers : LbAttr where
  st key := if key = webKey then some webService else none
  cc := 0

/-- The network of the real servers, with all its addresses known. -/
def lanEnv : LbEnv where
  arp_table :=
    { mask := 255
      arps := some fun i => { ip := (0xc0a8c800 : UInt32) + i.toUInt32, mac := [1, 2, 3, 4, 5, 6] } }
  mac := 0

/-- The entry of a connection to the virtual server, with the index of its real server. -/
def webEntry (i : UInt32) : FlowQoSEntry where
  match_ := { dst_ip := 0x02c9a8c0, dst_port := 0x5000, proto := 6 }
  pipe := some (buildPipe WAN_PORT_ID 0 0)
  action := { src_ip := i }

/-- `n` connections, each of them aged before the next one comes. -/
def oneByOne : ℕ → List LbCall
  | 0 => []
  | n + 1 => oneByOne n ++ [.newConn lanEnv (webEntry 0), .aging (webEntry (n % 2 ^ 32 % 3).toUInt32)]

theorem fresh_threeServers : Fresh threeServers := by
  intro key ser hser
  simp only [threeServers, Option.ite_none_right_eq_some, Option.some_inj] at hser
  obtain ⟨-, rfl⟩ := hser
  exact ⟨by decide, by decide, rfl, fun _ => rfl⟩

theorem oneByOne_run (n : ℕ) : ∃ s, Trace LbStep { attr := threeServers } (oneByOne n) s ∧
    s.connections webKey = n ∧ s.live = [] := by
  induction n with
  | zero => exact ⟨_, .nil _, rfl, rfl⟩
  | succ n ih =>
    obtain ⟨s, htrace, hconn, hlive⟩ := ih
    have hinv := htrace.inv (fun _ _ _ h hs => LbInv.step fresh_threeServers h hs)
      (lbInv_fresh fresh_threeServers)
    obtain ⟨ser, hser, hcounts⟩ := hinv.counts webKey webService rfl
    have hall : (LbCall.newConn lanEnv (webEntry 0)).Allowed s := by
      refine ⟨rfl, fun x hx => ?_⟩
      obtain rfl : ser = x := Option.some_inj.1 (hser.symm.trans hx)
      unfold Reachable
      rw [hcounts.real, hcounts.rip]
      decide
    rcases newConn_run hall fun _ => hinv.pos fresh_threeServers with ⟨hnone, -⟩ | ⟨x, hx, htake⟩
    · exact absurd (hser.symm.trans (hnone _ rfl rfl)) nofun
    obtain rfl : ser = x := Option.some_inj.1 (hser.symm.trans hx)
    have hnext : ser.next = (n % 2 ^ 32 % 3).toUInt32.toNat := by
      unfold Service.next
      rw [UInt32.toNat_mod, hcounts.total, hconn, hcounts.real]
      have hlt : n % 2 ^ 32 % 3 < 2 ^ 32 := (Nat.mod_lt _ (by decide)).trans (by decide)
      show n % 2 ^ 32 % 3 = (UInt32.ofNat (n % 2 ^ 32 % 3)).toNat
      rw [UInt32.toNat_ofNat_of_lt' hlt]
    have hmem : (LbCall.aging (webEntry (n % 2 ^ 32 % 3).toUInt32)).Allowed (s.take webKey ser) := by
      show (webKey, (n % 2 ^ 32 % 3).toUInt32.toNat) ∈ (webKey, ser.next) :: s.live
      rw [hnext]
      exact List.mem_cons_self
    rcases aging_run (s.take webKey ser) (webEntry (n % 2 ^ 32 % 3).toUInt32) with ⟨hnone, -⟩ | ⟨x, -, hage⟩
    · have htaken : (s.take webKey ser).attr.st webKey ≠ none := by simp [LbState.take]
      exact absurd hnone htaken
    refine ⟨_, htrace.append (.cons ⟨hall, htake⟩ (.single ⟨hmem, hage⟩)), ?_, ?_⟩
    · show ((webKey, ser.next) :: s.assigned).countP _ = n + 1
      rw [List.countP_cons_of_pos (by simp)]
      exact congrArg (· + 1) hconn
    · show ((webKey, ser.next) :: s.live).erase (webKey, (n % 2 ^ 32 % 3).toUInt32.toNat) = []
      rw [hnext, List.erase_cons_head, hlive]

/-- Four connections. -/
theorem run_fair_four : ∃ s, Trace LbStep { attr := threeServers } (oneByOne 4) s ∧
    Fair s webKey 3 ∧ StatsRight s webKey 3 := by
  obtain ⟨s, htrace, hconn, hlive⟩ := oneByOne_run 4
  have hiff := (run_fair_iff threeServers fresh_threeServers _ s htrace webKey webService rfl).1
  refine ⟨s, htrace, hiff.2 ⟨.inr (.inl ?_), fun r _ => ?_⟩⟩
  · rw [hconn]
    decide
  · rw [hlive]
    exact Nat.two_pow_pos 32

/-- When the counter has wrapped, the first real server gets two connections in a row. -/
theorem unfair_after_wrap : ∃ s, Trace LbStep { attr := threeServers } (oneByOne (2 ^ 32 + 1)) s ∧
    ¬ Fair s webKey 3 := by
  obtain ⟨s, htrace, hconn, -⟩ := oneByOne_run (2 ^ 32 + 1)
  refine ⟨s, htrace, fun hfair => ?_⟩
  have hinv := htrace.inv (fun _ _ _ h hs => LbInv.step fresh_threeServers h hs)
    (lbInv_fresh fresh_threeServers)
  obtain ⟨ser, -, hcounts⟩ := hinv.counts webKey webService rfl
  have hcases := (hcounts.fair_iff (by decide)).1 hfair
  rw [hconn] at hcases
  have hthree : webService.totalRealServers.toNat = 3 := rfl
  rw [hthree] at hcases
  omega

end FlowQoS.LoadBalancing
