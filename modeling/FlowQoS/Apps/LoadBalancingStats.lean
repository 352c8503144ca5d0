import FlowQoS.Apps.LoadBalancing
import FlowQoS.Conntrack.Dealings
import Mathlib.Data.Multiset.Count
import Mathlib.Data.Multiset.Filter

/-!
# The statistics of the load balancer on the tracker

`flowStats` counts for each real server the connections that have been assigned to it; `ipvsadm` prints it as
the active ones. The tracker tells the load balancer of the end of each connection in its table, so that in
every run the count is the number of the connections in use that go to the real server, in 32 bits, and
besides of those that were accepted and then lost, which are never taken back (`run_stats`).
-/

namespace FlowQoS.LoadBalancing

open Pipe Conntrack Lib

variable {attr attr' : LbAttr} {env : LbEnv} {e e' : FlowQoSEntry} {ret : ℤ} {key : ServiceKey}
  {flows : ℕ → UInt32} {r : ℕ}

/-- The load balancer on a core. -/
def balancing (maxConntrack GAP : ℕ) : Params LbAttr LbEnv where
  newConn_handler := some newConnHandler
  agingConn_handler := some agingConnHandler
  maxConntrack := maxConntrack
  GAP := GAP

/-- The port, with the action flags `LB_init` gives to `flowQoS_conntrack_init_port`. -/
def lbPorts : List (ℕ × UInt64) :=
  [(WAN_PORT_ID, DPORT ||| DIP ||| SMAC ||| TTL_DECREASE ||| DMAC ||| AGING)]

/-! ### The handlers -/

theorem keepsAll_balancing {maxConntrack GAP : ℕ} : KeepsAll (balancing maxConntrack GAP) := by
  have hignore : ¬ 0 ≤ ignorePackets := by decide
  intro f x e a ret e' a' hf hr hret
  cases hf
  unfold newConnHandler at hr
  split at hr
  · cases hr
  · split at hr
    · simp only at hr
      split at hr
      · cases hr
        exact absurd hret hignore
      · split at hr
        · cases hr
        · split at hr
          · cases hr
            exact ⟨rfl, rfl, rfl, rfl, rfl⟩
          · cases hr
            exact absurd hret hignore
    · cases hr
      exact absurd hret hignore

/-- The statistics of a virtual server. -/
def stats (attr : LbAttr) (key : ServiceKey) : Option (ℕ → UInt32) := (attr.st key).map Service.flowStats

theorem stats_update {st : ServiceKey → Option Service} {cc : UInt64} {ser : Service} (key : ServiceKey) :
    stats ⟨Function.update st key (some ser), cc⟩ =
      Function.update (stats ⟨st, cc⟩) key (some ser.flowStats) := by
  funext k
  unfold stats
  simp only [Function.update_apply]
  split
  · rfl
  · rfl

/-- A connection that is refused leaves the statistics alone; one that is accepted counts for the real server
that is kept in its entry. -/
theorem newConnHandler_stats (h : newConnHandler env e attr = .ok (ret, e', attr')) :
    (ret < 0 ∧ stats attr' = stats attr) ∨ 0 ≤ ret ∧ ∃ flows, stats attr (keyOf e'.match_) = some flows ∧
      stats attr' = Function.update (stats attr) (keyOf e'.match_) (some (Function.update flows
        e'.action.src_ip.toNat (flows e'.action.src_ip.toNat + 1))) := by
  have hignore : ignorePackets < 0 := by decide
  have hport : (0 : ℤ) ≤ LAN_PORT_ID := by decide
  unfold newConnHandler at h
  split at h
  · cases h
  · split at h
    · simp only at h
      split at h
      · cases h
        exact .inl ⟨hignore, rfl⟩
      · next ser hser =>
        split at h
        · cases h
        · split at h
          · cases h
            refine .inr ⟨hport, ser.flowStats, ?_, ?_⟩
            · unfold stats
              rw [hser]
              rfl
            · exact stats_update _
          · cases h
            refine .inl ⟨hignore, ?_⟩
            rw [stats_update]
            funext k
            rw [Function.update_apply]
            split
            · next heq =>
              subst heq
              unfold stats
              rw [hser]
              rfl
            · rfl
    · cases h
      exact .inl ⟨hignore, rfl⟩

theorem agingConnHandler_stats (h : agingConnHandler e attr = .ok attr') :
    (stats attr (keyOf e.match_) = none ∧ stats attr' = stats attr) ∨
      ∃ flows, stats attr (keyOf e.match_) = some flows ∧
      stats attr' = Function.update (stats attr) (keyOf e.match_) (some (Function.update flows
        e.action.src_ip.toNat (flows e.action.src_ip.toNat - 1))) := by
  unfold agingConnHandler at h
  simp only at h
  split at h
  · next hnone =>
    cases h
    refine .inl ⟨?_, rfl⟩
    unfold stats
    rw [hnone]
    rfl
  · next ser hser =>
    cases h
    refine .inr ⟨ser.flowStats, ?_, stats_update _⟩
    unfold stats
    rw [hser]
    rfl

/-! ### The account of the load balancer -/

/-- The virtual server of a connection and the index of its real server. -/
def assigned (l : Label) : ServiceKey × ℕ := (keyOf l.1, l.2.src_ip.toNat)

/-- The statistics are the numbers of the connections that are held. -/
def StatsInv (a : Account LbAttr) : Prop :=
  ∀ key flows, stats a.app key = some flows → ∀ r,
    (flows r).toNat = (a.held.map assigned).count (key, r) % 2 ^ 32

/-- The count of a real server goes up with a connection to it. -/
theorem count_cons_assigned (l : Label) (held : Multiset Label) (key : ServiceKey) (r : ℕ) :
    ((l ::ₘ held).map assigned).count (key, r) = (held.map assigned).count (key, r) +
      if keyOf l.1 = key ∧ l.2.src_ip.toNat = r then 1 else 0 := by
  rw [Multiset.map_cons, Multiset.count_cons]
  congr 1
  refine if_congr ?_ rfl rfl
  unfold assigned
  rw [Prod.mk.injEq]
  exact ⟨fun h => ⟨h.1.symm, h.2.symm⟩, fun h => ⟨h.1.symm, h.2.symm⟩⟩

/-- **A call of a handler** keeps the statistics right. -/
theorem StatsInv.dealing {n GAP : ℕ} {G : LbEnv → FlowQoSEntry → LbAttr → Prop} {conf : ConnAttr}
    {a a' : Account LbAttr} (h : StatsInv a) (hd : Dealing (balancing n GAP) G conf a a') : StatsInv a' := by
  cases hd with
  | refuse _ _ hf _ hr hneg =>
    cases hf
    rcases newConnHandler_stats hr with ⟨-, hsame⟩ | ⟨hret, -⟩
    · intro key flows hflows
      rw [hsame] at hflows
      exact h key flows hflows
    · omega
  | @accept m f x e ret e' app _ _ hf _ hr hret =>
    cases hf
    rcases newConnHandler_stats hr with ⟨hneg, -⟩ | ⟨-, flows₀, hold, hnew⟩
    · omega
    · intro key flows hflows r
      rw [count_cons_assigned]
      simp only [hnew, Function.update_apply] at hflows
      by_cases hkey : key = keyOf e'.match_
      · rw [if_pos hkey] at hflows
        cases hflows
        subst hkey
        rw [Function.update_apply]
        by_cases hr : r = e'.action.src_ip.toNat
        · subst hr
          rw [if_pos rfl, if_pos ⟨rfl, rfl⟩]
          exact toNat_add_one _ (h _ flows₀ hold _)
        · rw [if_neg hr, if_neg fun hc => hr hc.2.symm]
          exact h _ flows₀ hold r
      · rw [if_neg hkey] at hflows
        rw [if_neg fun hc => hkey hc.1.symm]
        exact h key flows hflows r
  | @finish e app hheld haging =>
    -- the connection that ends is one that is held
    have hcount : ∀ key r, (a.held.map assigned).count (key, r) =
        ((a.held.erase (label e)).map assigned).count (key, r) +
          if keyOf e.match_ = key ∧ e.action.src_ip.toNat = r then 1 else 0 := by
      intro key r
      have hcons := count_cons_assigned (label e) (a.held.erase (label e)) key r
      rwa [Multiset.cons_erase hheld] at hcons
    rcases agingConnHandler_stats (show agingConnHandler e a.app = .ok app from haging) with
      ⟨hnone, hsame⟩ | ⟨flows₀, hold, hnew⟩
    · intro key flows hflows r
      change stats app key = some flows at hflows
      rw [hsame] at hflows
      have hcons := hcount key r
      rw [if_neg] at hcons
      · rw [h key flows hflows r, hcons]
        rfl
      · rintro ⟨rfl, -⟩
        rw [hnone] at hflows
        cases hflows
    · intro key flows hflows r
      change stats app key = some flows at hflows
      simp only [hnew, Function.update_apply] at hflows
      have hcons := hcount key r
      by_cases hkey : key = keyOf e.match_
      · rw [if_pos hkey] at hflows
        cases hflows
        subst hkey
        rw [Function.update_apply]
        by_cases hr : r = e.action.src_ip.toNat
        · subst hr
          rw [if_pos ⟨rfl, rfl⟩] at hcons
          rw [if_pos rfl]
          exact toNat_sub_one _ (by rw [← hcons]; exact h _ flows₀ hold _)
        · rw [if_neg fun hc => hr hc.2.symm] at hcons
          rw [if_neg hr, h _ flows₀ hold r, hcons]
          rfl
      · rw [if_neg hkey] at hflows
        rw [if_neg fun hc => hkey hc.1.symm] at hcons
        rw [h key flows hflows r, hcons]
        rfl

/-- The contexts in use whose connections go to a real server of a virtual server. -/
def connectionsTo (P : Params LbAttr LbEnv) (s : Core LbAttr) (key : ServiceKey) (r : ℕ) : Finset CtxId :=
  (inUse P s).filter fun c => keyOf (s.ctx c).entry.match_ = key ∧ (s.ctx c).entry.action.src_ip.toNat = r

theorem count_labels (P : Params LbAttr LbEnv) (s : Core LbAttr) (key : ServiceKey) (r : ℕ) :
    ((labels P s).map assigned).count (key, r) = (connectionsTo P s key r).card := by
  unfold labels connectionsTo
  rw [Multiset.map_map, Multiset.count_map, Finset.card_def, Finset.filter_val]
  congr 1
  refine Multiset.filter_congr fun c _ => ?_
  simp only [Function.comp_apply, assigned, label, Prod.mk.injEq]
  exact ⟨fun h => ⟨h.1.symm, h.2.symm⟩, fun h => ⟨h.1.symm, h.2.symm⟩⟩

/-- **The statistics of the load balancer.** In every run of a core, from statistics of zero, the count of
each real server of each virtual server is, in 32 bits, the number of the connections in use that have been
assigned to it, and of those among the lost ones. -/
theorem run_stats (a : InitArgs) (GAP : ℕ) (attr₀ : LbAttr)
    (hzero : ∀ key flows, stats attr₀ key = some flows → ∀ r, flows r = 0)
    {es : List (Event LbAttr LbEnv)} {w : World LbAttr}
    (hr : RunsWhile (balancing a.maxConntrack GAP) (Outside fun _ _ _ => True) (boot a lbPorts attr₀) es w) :
    ∃ lost : Multiset Label, lost.card = lostCount w.2.events ∧
      ∀ key flows, stats w.2.app key = some flows → ∀ r, (flows r).toNat =
        ((connectionsTo (balancing a.maxConntrack GAP) w.2 key r).card +
          (lost.map assigned).count (key, r)) % 2 ^ 32 := by
  obtain ⟨lost, hcalls, hcard⟩ := run_dealings (balancing a.maxConntrack GAP) (fun _ _ _ => True) rfl lbPorts
    attr₀ (.inl keepsAll_balancing) (attaches_boot a attr₀ (by decide)) hr
  have hinv : StatsInv ⟨w.2.app, labels (balancing a.maxConntrack GAP) w.2 + lost⟩ := by
    refine Relation.ReflTransGen.head_induction_on (motive := fun b _ => StatsInv b → StatsInv _) hcalls
      (fun h => h) (fun hd _ ih h => ih (h.dealing hd)) fun key flows hflows r => ?_
    rw [hzero key flows hflows r]
    rfl
  refine ⟨lost, hcard, fun key flows hflows r => ?_⟩
  rw [hinv key flows hflows r]
  show (Multiset.map assigned (labels (balancing a.maxConntrack GAP) w.2 + lost)).count (key, r) % _ = _
  rw [Multiset.map_add, Multiset.count_add, count_labels]

/-- A packet of a connection to the virtual server. -/
def webPacket (sport : UInt16) : Mbuf where
  port := WAN_PORT_ID
  src_addr := 1
  dst_addr := webKey.dip
  next_proto_id := L4_TCP
  sport := sport
  dport := webKey.dport

/-- The context that the pool gives. -/
def lends (c : Option CtxId) : PacketEnv LbEnv where
  app := lanEnv
  ctx := c
  hash := true
  outcome := { entry := true, processed := 1 }
  start_tsc := 0
  tune_tsc := 1
  offload_tsc := 1
  flush_tsc := 2
  reset_tsc := 2

/-- The connection to the second real server finds no context, and counts there for ever. -/
theorem run_stats_lost : ∃ (w : World LbAttr) (lost : Multiset Label) (flows : ℕ → UInt32),
    lost.card = 1 ∧ stats w.2.app webKey = some flows ∧ flows 0 = 1 ∧ flows 1 = 1 ∧
    (connectionsTo (balancing 2 1000) w.2 webKey 1).card = 0 ∧
    (flows 1).toNat = ((connectionsTo (balancing 2 1000) w.2 webKey 1).card +
      (lost.map assigned).count (webKey, 1)) % 2 ^ 32 := by
  obtain ⟨w, hr, hcount, ⟨flows, hflows, h0, h1⟩, hcard⟩ : ∃ w,
      RunsWhile (balancing oneEntry.maxConntrack 1000) (Outside fun _ _ _ => True)
        (boot oneEntry lbPorts threeServers)
        [.packet (webPacket 1) (lends (some 0)), .packet (webPacket 2) (lends none)] w ∧
      lostCount w.2.events = 1 ∧ (∃ flows, stats w.2.app webKey = some flows ∧ flows 0 = 1 ∧ flows 1 = 1) ∧
      (connectionsTo (balancing 2 1000) w.2 webKey 1).card = 0 :=
    ⟨_, .cons ⟨fun _ _ _ => trivial, by decide, rfl⟩
      (.cons ⟨fun _ _ _ => trivial, by decide +kernel, rfl⟩ (.nil _)), by decide +kernel,
      ⟨_, rfl, by decide +kernel, by decide +kernel⟩, by decide +kernel⟩
  obtain ⟨lost, hlost, hstats⟩ := run_stats oneEntry 1000 threeServers (fun key flows hflows r => by
    unfold stats threeServers at hflows
    simp only [Option.map_eq_some_iff, Option.ite_none_right_eq_some, Option.some.injEq] at hflows
    obtain ⟨ser, ⟨-, rfl⟩, rfl⟩ := hflows
    rfl) hr
  exact ⟨w, lost, flows, hlost.trans hcount, hflows, h0, h1, hcard, hstats webKey flows hflows 1⟩

end FlowQoS.LoadBalancing
