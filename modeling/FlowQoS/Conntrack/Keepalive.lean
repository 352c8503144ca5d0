import FlowQoS.Conntrack.Aside
import FlowQoS.Lib.Lease

/-!
# An active connection is not expired by software

The timer of a connection is started again by its packets, but only by those that come more than a second
after the last one that did, and its deadline is counted from the wheel's clock. Packets that follow one
another within the expire time less one second keep the timer from firing (`run_spares_active`): the timer
is a lease (`Leased`) of which every event but a packet of the connection leaves the terms alone (`Aside`).
-/

namespace FlowQoS.Conntrack

open Lib Pipe Timer

variable {σ ε : Type} {P : Params σ ε} {L : Allowed} {w w' : World σ} {mgr mgr' : Mgr} {s : Core σ}
  {c c' : CtxId} {k : FlowQoSMatch} {m : Mbuf} {env : PacketEnv ε} {conn : Conn}

/-! ### The connection in the table -/

/-- The connection is in the table under this match, with this context. -/
def InTable (s : Core σ) (k : FlowQoSMatch) (c : CtxId) (conn : Conn) : Prop :=
  s.CT k = some c ∧ s.conns c = conn

/-- The table is changed for later connections and for those that end. -/
theorem CT_of_update {k' : FlowQoSMatch} (h : Function.update s.CT k' none k = some c) :
    s.CT k = some c := by
  rw [Function.update_apply] at h
  split at h
  · cases h
  · exact h

/-- **A connection that has been accepted before a move** is not put into the table by it. -/
theorem InTable.of_move {w w' : Set CtxId × Core σ} (hm : Move P L w w') (hold : conn.id < w.2.accepted)
    (h : InTable w'.2 k c conn) : InTable w.2 k c conn := by
  obtain ⟨hk, hconn⟩ := h
  cases hm with
  | still hs => exact ⟨hs.CT ▸ hk, hs.conns ▸ hconn⟩
  | app => exact ⟨hk, hconn⟩
  | report => exact ⟨hk, hconn⟩
  | refuse => exact ⟨hk, hconn⟩
  | lose => exact ⟨hk, hconn⟩
  | @opened A s m e ret e' app c' tsc A' =>
    change Function.update s.CT e'.match_ (some c') k = some c at hk
    change Function.update s.conns c' ⟨s.accepted, m.port⟩ c = conn at hconn
    rw [Function.update_apply] at hk hconn
    by_cases hc : c = c'
    · -- the context is taken for the connection that is accepted now
      rw [if_pos hc] at hconn
      subst hconn
      exact absurd hold (Nat.lt_irrefl _)
    · rw [if_neg hc] at hconn
      split at hk
      · cases hk
        exact absurd rfl hc
      · exact ⟨hk, hconn⟩
  | rearm => exact ⟨hk, hconn⟩
  | enqueue => exact ⟨hk, hconn⟩
  | install _ _ _ _ hadd =>
    obtain ⟨-, entry, hw, rfl⟩ := offloadEntry_frame hadd
    exact ⟨hk, hconn⟩
  | schedule _ _ hadd _ hdel =>
    obtain ⟨-, entry, hw, rfl⟩ := offloadEntry_frame hadd
    obtain ⟨qos, attr, rfl, -⟩ := scheduled_ok hdel
    exact ⟨hk, hconn⟩
  | addFail _ _ hadd =>
    obtain ⟨-, entry, hw, rfl⟩ := offloadEntry_frame hadd
    exact ⟨hk, hconn⟩
  | expireSw _ hexp =>
    obtain ⟨hrel, -⟩ := connExpireSw_ok hexp
    rw [hrel.CT] at hk
    exact ⟨CT_of_update hk, hrel.conns ▸ hconn⟩
  | rmEntry => exact ⟨hk, hconn⟩
  | expireHw _ _ _ _ _ hexp =>
    obtain ⟨hrel, -⟩ := connExpireHw_ok hexp
    rw [hrel.CT] at hk
    exact ⟨CT_of_update hk, hrel.conns ▸ hconn⟩

theorem Move.accepted_le {w w' : Set CtxId × Core σ} (hm : Move P L w w') : w.2.accepted ≤ w'.2.accepted := by
  cases hm with
  | still hs => exact hs.accepted.ge
  | app => exact Nat.le_refl _
  | report => exact Nat.le_refl _
  | refuse => exact Nat.le_refl _
  | lose => exact Nat.le_succ _
  | opened => exact Nat.le_succ _
  | rearm => exact Nat.le_refl _
  | enqueue => exact Nat.le_refl _
  | install _ _ _ _ hadd =>
    obtain ⟨-, entry, hw, rfl⟩ := offloadEntry_frame hadd
    exact Nat.le_refl _
  | schedule _ _ hadd _ hdel =>
    obtain ⟨-, entry, hw, rfl⟩ := offloadEntry_frame hadd
    obtain ⟨qos, attr, rfl, -⟩ := scheduled_ok hdel
    exact Nat.le_refl _
  | addFail _ _ hadd =>
    obtain ⟨-, entry, hw, rfl⟩ := offloadEntry_frame hadd
    exact Nat.le_refl _
  | expireSw _ hexp => exact (connExpireSw_ok hexp).1.accepted.ge
  | rmEntry => exact Nat.le_refl _
  | expireHw _ _ _ _ _ hexp => exact (connExpireHw_ok hexp).1.accepted.ge

/-- The table and the number of the accepted connections over an event. -/
theorem Moves.inTable {w w' : Set CtxId × Core σ} (hm : Moves P L w w') (hold : conn.id < w.2.accepted) :
    conn.id < w'.2.accepted ∧ (InTable w'.2 k c conn → InTable w.2 k c conn) := by
  induction hm with
  | refl => exact ⟨hold, id⟩
  | tail _ hm ih => exact ⟨Nat.lt_of_lt_of_le ih.1 hm.accepted_le, fun h => ih.2 (h.of_move hm ih.1)⟩

/-! ### The lease of a connection -/

/-- The timer of the context, whose connection had its last packet at `last`, as a lease on the time. -/
structure Leased (P : Params σ ε) (c : CtxId) (E hz : UInt64) (last : ℕ) (w : World σ) : Prop where
  CPU_HZ : w.2.attr.CPU_HZ = hz
  expireTime : (w.2.ctx c).entry.expireTime = E
  stamp : (w.2.ctx c).lastResetTimerStmp.toNat ≤ last
  lease : ∀ {d r}, (alarms w.1).armed c = some (d, r) → Lease (E.toNat * 1000 * P.GAP) hz.toNat
    (w.2.ctx c).lastResetTimerStmp.toNat last (w.1.startStmp + d * P.GAP)
  hw : (w.2.ctx c).ct_state = .HW_FWD_STATE → (alarms w.1).armed c = none

variable {E hz t : UInt64} {last now : ℕ}

theorem Leased.aside (h : Leased P c E hz last w) (ha : Aside w w' c)
    (hne : (w.2.ctx c).entry.action.flags ≠ AGING) : Leased P c E hz last w' where
  CPU_HZ := ha.terms.CPU_HZ.trans h.CPU_HZ
  expireTime := ha.terms.expireTime.trans h.expireTime
  stamp := by
    rw [ha.terms.stamp]
    exact h.stamp
  lease {d r} hd := by
    rw [ha.terms.stamp, ha.startStmp]
    rcases ha.armed with heq | hnone
    · exact h.lease (heq ▸ hd)
    · rw [hnone] at hd
      cases hd
  hw hst := by
    rcases ha.hw hst with hst' | hoff
    · rcases ha.armed with heq | hnone
      · rw [heq]
        exact h.hw hst'
      · exact hnone
    · exact hoff hne

/-- A tick that does not fire the timer. -/
theorem Leased.tick (h : Leased P c E hz last w) (hw : WorldInv P w)
    (hT : w.1.timeout + 68719476735 < 2 ^ 64) {rdtsc : ℕ} (hrun : step P w (.tick rdtsc) = .ok w')
    (hnot : (w.1.startStmp + w.1.timeout * P.GAP) % 2 ^ 64 < rdtsc → ¬ (alarms w.1).Due c) :
    Leased P c E hz last w' := by
  obtain ⟨hstart, hctx, hattr, hcase⟩ := tick_frame hw hT hrun
  have harmed : (alarms w'.1).armed c = (alarms w.1).armed c := by
    rcases hcase with heq | ⟨hrdtsc, heq⟩
    · rw [heq]
    · rw [heq, Alarms.advance_of_not_due (hnot hrdtsc)]
  refine ⟨?_, ?_, ?_, ?_, ?_⟩
  · rw [hattr]
    exact h.CPU_HZ
  · rw [hctx]
    exact h.expireTime
  · rw [hctx]
    exact h.stamp
  · intro d r hd
    rw [hctx, hstart]
    exact h.lease (harmed ▸ hd)
  · rw [hctx, harmed]
    exact h.hw

/-- The wheel has caught up with the time. -/
def CaughtUp (P : Params σ ε) (w : World σ) (now : ℕ) : Prop := now ≤ w.1.startStmp + w.1.timeout * P.GAP

/-- The timestamp counter is read once for the packet. -/
structure PacketEnv.ReadsAt (env : PacketEnv ε) (t : UInt64) : Prop where
  start : env.start_tsc = t
  tune : env.tune_tsc = t
  offload : env.offload_tsc = t
  flush : env.flush_tsc = t
  reset : env.reset_tsc = t

/-- A timer that is armed for the expire time with a wheel that has caught up. -/
theorem lease_armed {stamp slack : ℕ} (hE : E.toNat * 1000 ≤ timerMaxTimeout) (hnow : CaughtUp P w now)
    (hstamp : stamp ≤ now) : Lease (E.toNat * 1000 * P.GAP) slack stamp now
      (w.1.startStmp + (w.1.timeout + (E * 1000).toNat) * P.GAP) := by
  have hmul : (E * 1000).toNat = E.toNat * 1000 := by
    rw [UInt64.toNat_mul]
    refine Nat.mod_eq_of_lt (Nat.lt_of_le_of_lt hE ?_)
    decide
  refine .granted hstamp ?_
  rw [hmul, Nat.add_mul, ← Nat.add_assoc]
  exact Nat.add_le_add_right hnow _

/-- A packet renews the lease, or it leaves it to the packets after it. -/
theorem Leased.flushTimer (h : Leased P c E hz last w) (hmgr : MgrInv w.1)
    (hT : w.1.timeout + 68719476735 < 2 ^ 64) (hE : E.toNat * 1000 ≤ timerMaxTimeout)
    (hon : AgingOn (w.2.ctx c).entry.action.flags) (hread : env.ReadsAt t) (hle : last ≤ t.toNat)
    (hnow : CaughtUp P w t.toNat) (hrun : flushTimer w c env = .ok w') :
    Leased P c E hz t.toNat w' := by
  obtain ⟨mgr, s⟩ := w
  have hstamp : (s.ctx c).lastResetTimerStmp.toNat ≤ t.toNat := Nat.le_trans h.stamp hle
  unfold Conntrack.flushTimer at hrun
  simp only at hrun
  split at hrun
  · next hcond =>
    obtain ⟨⟨ret, mgr'⟩, hreset, rfl⟩ := map_eq_ok.1 hrun
    have hctx : (s.setCtx c { s.ctx c with lastResetTimerStmp := env.reset_tsc }).ctx c =
        { s.ctx c with lastResetTimerStmp := t } := by
      rw [hread.reset]
      exact Function.update_self _ _ _
    rw [h.expireTime] at hreset
    have hlease : mgr'.startStmp = mgr.startStmp ∧ ∀ {d r}, (alarms mgr').armed c = some (d, r) →
        d = mgr.timeout + (E * 1000).toNat := by
      unfold flowQoSTimerReset at hreset
      by_cases hcb : (mgr.timers c).cb.isSome
      · obtain ⟨links, hspec, -, halarms⟩ :=
          timerReset_spec hmgr.wheel hcb (UInt64.toNat_mul_thousand hE) hT
        rw [hspec] at hreset
        cases hreset
        refine ⟨rfl, fun {d r} hd => ?_⟩
        rw [halarms, Alarms.arm_armed, if_pos rfl] at hd
        cases hd
        rfl
      · have hnone := Option.not_isSome_iff_eq_none.1 hcb
        rw [timerReset_reject hnone] at hreset
        cases hreset
        refine ⟨rfl, fun {d r} hd => ?_⟩
        rw [alarms_armed_of_not (hmgr.wheel.not_armed_of_cb hnone)] at hd
        cases hd
    refine ⟨h.CPU_HZ, ?_, ?_, fun {d r} hd => ?_, fun hst => ?_⟩
    · rw [hctx]
      exact h.expireTime
    · rw [hctx]
    · rw [hctx, hlease.1, hlease.2 hd]
      exact lease_armed (w := (mgr, s)) hE hnow (Nat.le_refl _)
    · rw [hctx] at hst
      exact absurd hst hcond.2.2
  · next hcond =>
    cases hrun
    refine ⟨h.CPU_HZ, h.expireTime, hstamp, fun {d r} hd => (h.lease hd).use hle ?_, h.hw⟩
    -- the timer is armed, so the context is not in the hardware: its last refresh is not a second ago
    have hst : (s.ctx c).ct_state ≠ .HW_FWD_STATE := fun hst => by
      rw [h.hw hst] at hd
      cases hd
    have hgap : ¬ env.flush_tsc - (s.ctx c).lastResetTimerStmp > s.attr.CPU_HZ := fun hgap =>
      hcond ⟨hon, hgap, hst⟩
    rw [hread.flush, show s.attr.CPU_HZ = hz from h.CPU_HZ, gt_iff_lt, UInt64.lt_iff_toNat_lt,
      UInt64.toNat_sub_of_le _ _ (UInt64.le_iff_toNat_le.2 hstamp)] at hgap
    show t.toNat ≤ (s.ctx c).lastResetTimerStmp.toNat + hz.toNat
    omega

/-- The refresh of a packet comes after the offloading. -/
theorem Leased.forward (h : Leased P c E hz last w) (hw : WorldInv P w)
    (hT : w.1.timeout + 68719476735 < 2 ^ 64) (hk : w.2.CT k = some c)
    (hflags : AgingOn (w.2.ctx c).entry.action.flags ∧ (w.2.ctx c).entry.action.flags ≠ AGING)
    (hE : E.toNat * 1000 ≤ timerMaxTimeout) (hread : env.ReadsAt t) (hle : last ≤ t.toNat)
    (hnow : CaughtUp P w t.toNat) {v : Verdict} (hrun : forward m w c env = .ok (v, w')) :
    Leased P c E hz t.toNat w' := by
  obtain ⟨w₁, haside, hgoes, -, hflush⟩ := forward_offload (L := ⟨True, True⟩) hw.ok hw.inv hw.mgr hk hrun
  have hc := haside c
  refine (h.aside hc hflags.2).flushTimer hgoes.mgr ?_ hE ?_ hread hle ?_ hflush
  · rw [hgoes.timeout]
    exact hT
  · rw [hc.terms.flags]
    exact hflags.1
  · unfold CaughtUp
    rw [hc.startStmp, hc.timeout]
    exact hnow

/-- The timer of a new connection, where it gets one. -/
theorem attachTimer_lease (hmgr : MgrInv mgr) (hT : mgr.timeout + 68719476735 < 2 ^ 64)
    (hfree : c ∉ armedSet mgr) {e : FlowQoSEntry} (hE : e.expireTime.toNat * 1000 ≤ timerMaxTimeout)
    (hrun : attachTimer mgr c e = .ok mgr') : mgr'.startStmp = mgr.startStmp ∧ mgr'.timeout = mgr.timeout ∧
      ∀ {d r}, (alarms mgr').armed c = some (d, r) → d = mgr.timeout + (e.expireTime * 1000).toNat := by
  unfold attachTimer at hrun
  split at hrun
  · obtain ⟨r, hr, rfl⟩ := map_eq_ok.1 hrun
    obtain ⟨links, hstart, -, halarms⟩ := timerStart_spec hmgr.wheel (some c) hfree
      (Option.isSome_some (a := TimerCallback.flowQoS_conn_expire_sw_cb)) (UInt64.toNat_mul_thousand hE)
      (Nat.zero_le _) hT
    rw [flowQoSTimerAdd, hstart] at hr
    cases hr
    refine ⟨rfl, rfl, fun {d r} hd => ?_⟩
    rw [halarms, Alarms.arm_armed, if_pos rfl] at hd
    cases hd
    rfl
  · cases hrun
    refine ⟨rfl, rfl, fun {d r} hd => ?_⟩
    rw [alarms_armed_of_not hfree] at hd
    cases hd

/-- The timestamp of a tick is so early that the counter does not wrap around within the next tick. -/
def Event.InRange (gap : ℕ) : Event σ ε → Prop
  | .tick rdtsc => rdtsc + gap < 2 ^ 64
  | _ => True

/-- The wheel's clock on the timestamp counter has not wrapped around. -/
def ClockOk (P : Params σ ε) (w : World σ) : Prop := w.1.startStmp + w.1.timeout * P.GAP < 2 ^ 64

theorem Steps.clockOk {e : Event σ ε} (hs : Steps P w e w') (h : WorldInv P w) (hclock : ClockOk P w)
    (hr : e.InRange P.GAP) : ClockOk P w' := by
  have hT : w.1.timeout + 68719476735 < 2 ^ 64 := by
    have := hs.1
    omega
  -- a context that the pool does not have
  have hpool : P.maxConntrack ∉ w.2.pool := fun hm => Nat.lt_irrefl _ (h.inv.table.pool_lt hm)
  have hCT : ∀ k, w.2.CT k ≠ some P.maxConntrack := fun k hk =>
    Nat.lt_irrefl _ (h.inv.table.table hk).1.1
  have haside : Elsewhere w P.maxConntrack e → ClockOk P w' := fun he => by
    have ha := step_aside h hT he hs.2
    unfold ClockOk
    rw [ha.startStmp, ha.timeout]
    exact hclock
  cases e with
  | packet m env => exact haside ⟨hpool, fun e _ _ => hCT _⟩
  | qos => exact haside trivial
  | aging => exact haside trivial
  | app => exact haside trivial
  | tick rdtsc =>
    obtain ⟨hstart, -, -, heq | ⟨hrdtsc, heq⟩⟩ := tick_frame h hT hs.2
    · unfold ClockOk
      rw [hstart, show w'.1.timeout = w.1.timeout from congrArg Alarms.now heq]
      exact hclock
    · unfold ClockOk at hclock ⊢
      rw [Nat.mod_eq_of_lt hclock] at hrdtsc
      rw [hstart, show w'.1.timeout = w.1.timeout + 1 from congrArg Alarms.now heq, Nat.add_mul, Nat.one_mul]
      have : rdtsc + P.GAP < 2 ^ 64 := hr
      omega

/-! ### Active connections -/

/-- The packet belongs to the connection with this match. -/
def OwnPacket (attr : ConnAttr) (k : FlowQoSMatch) (m : Mbuf) : Prop :=
  attr.PORT_CT_ENABLED m.port ∧ ∃ e, packetParser attr m = some e ∧ e.match_ = k

/-- A packet of the connection is forwarded for its context, or it opens the connection. -/
theorem OwnPacket.cases (h : OwnPacket w.2.attr k m) {v : Verdict}
    (hrun : conntrackPacketProcessor P m env w = .ok (v, w')) :
    (∃ c, w.2.CT k = some c ∧ forward m w c env = .ok (v, w')) ∨
      w.2.CT k = none ∧ ∃ e r w₁, w.2.attr.PORT_CT_ENABLED m.port ∧ packetParser w.2.attr m = some e ∧
        e.match_ = k ∧ openConn P m e env w = .ok (r, w₁) ∧
        (r = none ∧ w' = w₁ ∨ ∃ c, r = some c ∧ forward m w₁ c env = .ok (v, w')) := by
  obtain ⟨hen, e, hparse, rfl⟩ := h
  unfold conntrackPacketProcessor findConnFromHash at hrun
  rw [if_pos hen, hparse] at hrun
  cases hk : w.2.CT e.match_ with
  | some c =>
    simp only [hk] at hrun
    exact .inl ⟨c, rfl, hrun⟩
  | none =>
    simp only [hk] at hrun
    obtain ⟨⟨r, w₁⟩, hopen, hrun⟩ := bind_eq_ok.1 hrun
    refine .inr ⟨rfl, e, r, w₁, hen, hparse, rfl, hopen, ?_⟩
    cases r with
    | none =>
      cases hrun
      exact .inl ⟨rfl, rfl⟩
    | some c => exact .inr ⟨c, rfl, hrun⟩

/-- The event can come between two packets of the connection, the second of them at the time `now`. -/
def Between (P : Params σ ε) (k : FlowQoSMatch) (now : ℕ) (w : World σ) : Event σ ε → Prop
  | .packet m _ => ¬ OwnPacket w.2.attr k m
  | .tick rdtsc => rdtsc ≤ now ∧ rdtsc + P.GAP < 2 ^ 64
  | _ => True

/-- A run up to a packet of the connection, in which each of its packets follows the one before, the first
the one at `last`, within `term` less `slack`. -/
inductive ActiveRun (P : Params σ ε) (k : FlowQoSMatch) (term slack : ℕ) :
    ℕ → World σ → List (Event σ ε) → World σ → Prop
  | nil (last : ℕ) (w : World σ) : ActiveRun P k term slack last w [] w
  | packet {last : ℕ} {w w₁ w₂ w' : World σ} {es es' : List (Event σ ε)} {m : Mbuf} {env : PacketEnv ε}
      {t : UInt64} : last ≤ t.toNat → t.toNat + slack ≤ last + term →
      RunsWhile P (Between P k t.toNat) w es w₁ → OwnPacket w₁.2.attr k m → env.ReadsAt t →
      CaughtUp P w₁ t.toNat → Steps P w₁ (.packet m env) w₂ → ActiveRun P k term slack t.toNat w₂ es' w' →
      ActiveRun P k term slack last w (es ++ .packet m env :: es') w'

/-- Where the event is a tick, it does not fire the timer of the connection. -/
def Spares (P : Params σ ε) (k : FlowQoSMatch) (c : CtxId) (conn : Conn) (w : World σ) : Event σ ε → Prop
  | .tick rdtsc => InTable w.2 k c conn → ¬ TimerFires P w rdtsc c
  | _ => True

/-- What holds after the packets of a connection up to the one at `last`. -/
structure Active (P : Params σ ε) (k : FlowQoSMatch) (c : CtxId) (conn : Conn) (E hz : UInt64) (last : ℕ)
    (w : World σ) : Prop where
  inv : WorldInv P w
  clock : ClockOk P w
  accepted : conn.id < w.2.accepted
  flags : AgingOn (w.2.attr.ActionFlags conn.port) ∧ w.2.attr.ActionFlags conn.port ≠ AGING
  leased : InTable w.2 k c conn → Leased P c E hz last w

theorem Active.entry_flags (h : Active P k c conn E hz last w) (hin : InTable w.2 k c conn) :
    AgingOn (w.2.ctx c).entry.action.flags ∧ (w.2.ctx c).entry.action.flags ≠ AGING := by
  have hmade := h.inv.inv.table.made (h.inv.inv.table.table hin.1).1
  have hflags : (w.2.ctx c).entry.action.flags = w.2.attr.ActionFlags conn.port := by
    rw [← hin.2]
    exact hmade.flags
  rw [hflags]
  exact h.flags

/-- One event: it is left to see what it does to the lease. -/
theorem Active.next (h : Active P k c conn E hz last w) {e : Event σ ε} (hs : Steps P w e w')
    (hr : e.InRange P.GAP)
    (hlease : InTable w.2 k c conn → Leased P c E hz last w → Leased P c E hz now w') :
    Active P k c conn E hz now w' := by
  obtain ⟨hm, hinv⟩ := hs.moves (L := ⟨True, True⟩) h.inv (fun _ => trivial) fun _ _ => trivial
  obtain ⟨hacc, hback⟩ := hm.inTable (k := k) (c := c) h.accepted
  refine ⟨hinv, hs.clockOk h.inv h.clock hr, hacc, ?_, fun hin => hlease (hback hin) (h.leased (hback hin))⟩
  rw [show w'.2.attr.ActionFlags = w.2.attr.ActionFlags from (Moves.sameConfig hm).ActionFlags]
  exact h.flags

/-- **A tick before the next packet** does not fire the timer of the connection. -/
theorem Active.not_due (h : Active P k c conn E hz last w) (hin : InTable w.2 k c conn) {rdtsc : ℕ}
    (hle : rdtsc ≤ now) (hnow : now + hz.toNat ≤ last + E.toNat * 1000 * P.GAP)
    (hrdtsc : (w.1.startStmp + w.1.timeout * P.GAP) % 2 ^ 64 < rdtsc) : ¬ (alarms w.1).Due c := by
  rintro ⟨r, hr⟩
  have hlease := ((h.leased hin).lease hr).in_time hnow
  rw [Nat.mod_eq_of_lt h.clock] at hrdtsc
  rw [alarms_now] at hlease
  omega

/-- **An event between two packets.** -/
theorem Active.between (h : Active P k c conn E hz last w) {e : Event σ ε} (he : Between P k now w e)
    (hnow : now + hz.toNat ≤ last + E.toNat * 1000 * P.GAP) (hs : Steps P w e w') :
    Spares P k c conn w e ∧ Active P k c conn E hz last w' := by
  have hT : w.1.timeout + 68719476735 < 2 ^ 64 := by
    have := hs.1
    omega
  have haside : (InTable w.2 k c conn → Elsewhere w c e) → InTable w.2 k c conn →
      Leased P c E hz last w → Leased P c E hz last w' := fun helse hin hl =>
    hl.aside (step_aside h.inv hT (helse hin) hs.2) (h.entry_flags hin).2
  cases e with
  | packet m env =>
    refine ⟨trivial, h.next hs trivial (haside fun hin => ?_)⟩
    obtain ⟨halive, hmatch⟩ := h.inv.inv.table.table hin.1
    refine ⟨halive.2, fun e hen hparse hk => he ⟨hen, e, hparse, ?_⟩⟩
    rw [← (h.inv.inv.table.table hk).2, hmatch]
  | tick rdtsc =>
    have hnot : InTable w.2 k c conn → (w.1.startStmp + w.1.timeout * P.GAP) % 2 ^ 64 < rdtsc →
      ¬ (alarms w.1).Due c := fun hin => h.not_due hin he.1 hnow
    refine ⟨fun hin hf => ?_, h.next hs he.2 fun hin hl => hl.tick h.inv hT hs.2 (hnot hin)⟩
    obtain ⟨hrdtsc, hdue⟩ := hf.due h.inv hT
    exact hnot hin hrdtsc hdue
  | qos => exact ⟨trivial, h.next hs trivial (haside fun _ => trivial)⟩
  | aging => exact ⟨trivial, h.next hs trivial (haside fun _ => trivial)⟩
  | app => exact ⟨trivial, h.next hs trivial (haside fun _ => trivial)⟩

/-- **A packet of the connection.** -/
theorem Active.packet (h : Active P k c conn E hz last w) (hE : E.toNat * 1000 ≤ timerMaxTimeout)
    (hle : last ≤ t.toNat) (hown : OwnPacket w.2.attr k m) (hread : env.ReadsAt t)
    (hnow : CaughtUp P w t.toNat) (hs : Steps P w (.packet m env) w') :
    Active P k c conn E hz t.toNat w' := by
  refine h.next hs trivial fun hin hl => ?_
  have hT : w.1.timeout + 68719476735 < 2 ^ 64 := by
    have := hs.1
    omega
  obtain ⟨⟨v, w₁⟩, hp, rfl⟩ := map_eq_ok.1 hs.2
  have hfwd : forward m w c env = .ok (v, w₁) := by
    rcases hown.cases hp with ⟨c', hk, hfwd⟩ | ⟨habs, -⟩
    · obtain rfl : c' = c := Option.some_inj.1 (hk.symm.trans hin.1)
      exact hfwd
    · rw [hin.1] at habs
      cases habs
  exact hl.forward h.inv hT hin.1 (h.entry_flags hin) hE hread hle hnow hfwd

/-- **The events between two packets.** -/
theorem Active.betweenRun (h : Active P k c conn E hz last w) {es : List (Event σ ε)}
    (hnow : now + hz.toNat ≤ last + E.toNat * 1000 * P.GAP) (hr : RunsWhile P (Between P k now) w es w') :
    RunsWhile P (Spares P k c conn) w es w' ∧ Active P k c conn E hz last w' := by
  induction hr with
  | nil w => exact ⟨.nil w, h⟩
  | cons hs _ ih =>
    obtain ⟨hspares, h'⟩ := h.between hs.1 hnow hs.2
    obtain ⟨hrest, hlast⟩ := ih h'
    exact ⟨.cons ⟨hspares, hs.2⟩ hrest, hlast⟩

/-- **The packets of the connection**, one after the other. -/
theorem Active.run (hE : E.toNat * 1000 ≤ timerMaxTimeout) {es : List (Event σ ε)}
    (hr : ActiveRun P k (E.toNat * 1000 * P.GAP) hz.toNat last w es w') (h : Active P k c conn E hz last w) :
    RunsWhile P (Spares P k c conn) w es w' := by
  induction hr with
  | nil last w => exact .nil w
  | packet hle hgap hbetween hown hread hnow hs _ ih =>
    obtain ⟨hspares, h₁⟩ := h.betweenRun hgap hbetween
    exact hspares.append (.cons ⟨trivial, hs⟩ (ih (h₁.packet hE hle hown hread hnow hs)))

end FlowQoS.Conntrack
