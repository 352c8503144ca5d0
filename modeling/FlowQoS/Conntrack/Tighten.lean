import FlowQoS.Conntrack.Filter
import Mathlib.Logic.Function.Iterate

/-!
# Congestion and the threshold of the filter

The congestion callback doubles `CONN_OFFLOAD_TIME` up to its upper bound. From a threshold other than
zero every signal below the bound raises it, and `n` signals come to `2 ^ n` times the threshold or to
the bound (`congestion_iterate`); a threshold of zero is a fixed point, which no number of signals
leaves. The window tuning adds a step and is the only way out.
-/

namespace FlowQoS.Conntrack

variable {σ : Type} {attr attr' : ConnAttr}

/-- No call on the filter switches it off or moves the upper bound. -/
theorem filterCall_frame {call : FilterCall} (h : filterCall attr call = .ok attr') :
    attr'.ENABLE_FLOWQOS = attr.ENABLE_FLOWQOS ∧ attr'.CONN_OFFLOAD_TIME_MAX = attr.CONN_OFFLOAD_TIME_MAX := by
  cases call with
  | runtimeTune now =>
    simp only [filterCall, filterRuntimeTune] at h
    split_ifs at h <;> simp only [Except.ok.injEq] at h <;> subst h <;> exact ⟨rfl, rfl⟩
  | congestionCb =>
    simp only [filterCall, filterCongestionCb, Except.ok.injEq] at h
    split_ifs at h <;> subst h <;> exact ⟨rfl, rfl⟩
  | tuneFilter t p d v =>
    simp only [filterCall, Except.ok.injEq] at h
    subst h
    by_cases hhz : attr.CPU_HZ = 0
    · simp [conntrackTuneFilter, hhz]
    · by_cases ht : 0 ≤ t <;> by_cases hp : 0 ≤ p <;> by_cases hd : 0 ≤ d <;> by_cases hv : 0 ≤ v <;>
        simp only [conntrackTuneFilter, hhz, ht, hp, hd, hv, if_true, if_false] <;> split_ifs <;> simp
  | enqueue =>
    simp only [filterCall, Except.ok.injEq] at h
    subst h
    exact ⟨rfl, rfl⟩

theorem filterCalls_frame {calls : List FilterCall} (h : calls.foldlM filterCall attr = .ok attr') :
    attr'.ENABLE_FLOWQOS = attr.ENABLE_FLOWQOS ∧ attr'.CONN_OFFLOAD_TIME_MAX = attr.CONN_OFFLOAD_TIME_MAX := by
  induction calls generalizing attr with
  | nil =>
    cases h
    exact ⟨rfl, rfl⟩
  | cons call calls ih =>
    rw [List.foldlM_cons] at h
    cases hcall : filterCall attr call with
    | error e =>
      rw [hcall] at h
      cases h
    | ok attr₁ =>
      rw [hcall] at h
      have hstep := filterCall_frame hcall
      have hrest := ih h
      exact ⟨hrest.1.trans hstep.1, hrest.2.trans hstep.2⟩

/-! ### Signals -/

/-- A signal, as numbers. -/
theorem congestionCb_time (hen : attr.ENABLE_FLOWQOS = true) (h : attr.CONN_OFFLOAD_TIME.toNat * 2 < 2 ^ 64) :
    (filterCongestionCb attr).CONN_OFFLOAD_TIME.toNat =
      min (attr.CONN_OFFLOAD_TIME.toNat * 2) attr.CONN_OFFLOAD_TIME_MAX.toNat := by
  unfold filterCongestionCb
  rw [if_pos hen]
  show (if _ then _ else _ : UInt64).toNat = _
  have hdouble : (attr.CONN_OFFLOAD_TIME * 2).toNat = attr.CONN_OFFLOAD_TIME.toNat * 2 := toNat_mul_of_lt h
  rw [toNat_clamp, hdouble]

/-- `n` signals in a row, where the upper bound can be doubled. -/
theorem congestion_iterate (hen : attr.ENABLE_FLOWQOS = true)
    (hmax : attr.CONN_OFFLOAD_TIME_MAX.toNat * 2 < 2 ^ 64)
    (hle : attr.CONN_OFFLOAD_TIME ≤ attr.CONN_OFFLOAD_TIME_MAX) (n : ℕ) :
    (filterCongestionCb^[n] attr).CONN_OFFLOAD_TIME.toNat =
      min (2 ^ n * attr.CONN_OFFLOAD_TIME.toNat) attr.CONN_OFFLOAD_TIME_MAX.toNat := by
  have hframe : ∀ n, (filterCongestionCb^[n] attr).ENABLE_FLOWQOS = true ∧
      (filterCongestionCb^[n] attr).CONN_OFFLOAD_TIME_MAX = attr.CONN_OFFLOAD_TIME_MAX := by
    intro n
    induction n with
    | zero => exact ⟨hen, rfl⟩
    | succ n ih =>
      rw [Function.iterate_succ_apply']
      have hcall : filterCall (filterCongestionCb^[n] attr) .congestionCb =
        .ok (filterCongestionCb (filterCongestionCb^[n] attr)) := rfl
      have hstep := filterCall_frame hcall
      exact ⟨hstep.1.trans ih.1, hstep.2.trans ih.2⟩
  rw [UInt64.le_iff_toNat_le] at hle
  induction n with
  | zero =>
    rw [Function.iterate_zero, id, Nat.pow_zero, Nat.one_mul]
    exact (Nat.min_eq_left hle).symm
  | succ n ih =>
    rw [Function.iterate_succ_apply', congestionCb_time (hframe n).1 (by rw [ih]; omega), (hframe n).2, ih,
      Nat.pow_succ]
    have hmul : 2 ^ n * 2 * attr.CONN_OFFLOAD_TIME.toNat = 2 ^ n * attr.CONN_OFFLOAD_TIME.toNat * 2 := by
      rw [Nat.mul_assoc, Nat.mul_comm 2, ← Nat.mul_assoc]
    rw [hmul]
    omega

/-- The upper bound of the initialisation, for a counter no faster than a petahertz. -/
theorem conntrackInitEnv_max (a : InitArgs) (app : σ) (h0 : 0 ≤ a.offloadTime) (hint : a.offloadTime < 2 ^ 31)
    (hhz : a.tsc_hz.toNat ≤ 10 ^ 15) :
    (conntrackInitEnv a app).attr.CONN_OFFLOAD_TIME_MAX.toNat * 2 < 2 ^ 64 := by
  have hdiv : a.tsc_hz.toNat / 1000000 ≤ 10 ^ 9 := by omega
  have htime : (UInt64.ofInt a.offloadTime * (a.tsc_hz / 1000000)).toNat < 2 ^ 61 := by
    have hprod : a.offloadTime.toNat * (a.tsc_hz.toNat / 1000000) < 2 ^ 61 := by
      calc a.offloadTime.toNat * (a.tsc_hz.toNat / 1000000)
          ≤ 2 ^ 31 * 10 ^ 9 := Nat.mul_le_mul (by omega) hdiv
        _ < 2 ^ 61 := by decide
    have hofInt := toNat_ofInt_of_lt h0 hint
    have hq : (a.tsc_hz / 1000000).toNat = a.tsc_hz.toNat / 1000000 := UInt64.toNat_div _ 1000000
    rw [toNat_mul_of_lt, hofInt, hq]
    · exact hprod
    · rw [hofInt, hq]
      omega
  have hmax : (connschedDefaultMaxTthSec * a.tsc_hz).toNat = 10 * a.tsc_hz.toNat := by
    rw [toNat_mul_of_lt]
    · rfl
    · show 10 * a.tsc_hz.toNat < 2 ^ 64
      omega
  show (if connschedDefaultMaxTthSec * a.tsc_hz < UInt64.ofInt a.offloadTime * (a.tsc_hz / 1000000) then
      UInt64.ofInt a.offloadTime * (a.tsc_hz / 1000000)
    else connschedDefaultMaxTthSec * a.tsc_hz).toNat * 2 < 2 ^ 64
  split
  · omega
  · omega

/-- **Congestion tightens the filter.** In every state of the filter that calls reach from the
initialisation, with the scheduler switched on and the threshold below its upper bound: a signal raises
the threshold, and some number of signals in a row takes it to the bound, exactly when the threshold is
not zero. -/
theorem congestion_tightens_iff (a : InitArgs) (app : σ) (hen : 0 < a.offloadSpeed) (h0 : 0 ≤ a.offloadTime)
    (hint : a.offloadTime < 2 ^ 31) (hhz : a.tsc_hz.toNat ≤ 10 ^ 15) (calls : List FilterCall) (attr : ConnAttr)
    (hrun : calls.foldlM filterCall (conntrackInitEnv a app).attr = .ok attr)
    (hlt : attr.CONN_OFFLOAD_TIME < attr.CONN_OFFLOAD_TIME_MAX) :
    (attr.CONN_OFFLOAD_TIME < (filterCongestionCb attr).CONN_OFFLOAD_TIME ↔ attr.CONN_OFFLOAD_TIME ≠ 0) ∧
    ((∃ n, (filterCongestionCb^[n] attr).CONN_OFFLOAD_TIME = attr.CONN_OFFLOAD_TIME_MAX) ↔
      attr.CONN_OFFLOAD_TIME ≠ 0) := by
  obtain ⟨hen', hmax'⟩ := filterCalls_frame hrun
  have henabled : attr.ENABLE_FLOWQOS = true := by
    rw [hen']
    exact decide_eq_true hen
  have hmax : attr.CONN_OFFLOAD_TIME_MAX.toNat * 2 < 2 ^ 64 := by
    rw [hmax']
    exact conntrackInitEnv_max a app h0 hint hhz
  have hzero : attr.CONN_OFFLOAD_TIME ≠ 0 ↔ attr.CONN_OFFLOAD_TIME.toNat ≠ 0 := by
    rw [Ne, ← UInt64.toNat_inj]
    rfl
  have hlt' := UInt64.lt_iff_toNat_lt.1 hlt
  have hiter := congestion_iterate henabled hmax (UInt64.le_of_lt hlt)
  rw [hzero]
  refine ⟨?_, ?_, ?_⟩
  · rw [UInt64.lt_iff_toNat_lt, congestionCb_time henabled (by omega)]
    omega
  · rintro ⟨n, hn⟩ htime
    have := hiter n
    rw [hn, htime] at this
    omega
  · intro htime
    refine ⟨attr.CONN_OFFLOAD_TIME_MAX.toNat, UInt64.toNat_inj.1 ?_⟩
    have hpow := Nat.lt_two_pow_self (n := attr.CONN_OFFLOAD_TIME_MAX.toNat)
    have hbig : attr.CONN_OFFLOAD_TIME_MAX.toNat ≤
        2 ^ attr.CONN_OFFLOAD_TIME_MAX.toNat * attr.CONN_OFFLOAD_TIME.toNat :=
      hpow.le.trans (Nat.le_mul_of_pos_right _ (Nat.pos_of_ne_zero htime))
    rw [hiter, Nat.min_eq_right hbig]

/-- The threshold of 70 us that a user sets. -/
theorem congestion_tightens_tuned :
    let a : InitArgs := ⟨4, 4, 0, 100, 1000000000, 1, 5⟩
    ∃ attr,
      [FilterCall.tuneFilter 70 (-1) (-1) (-1)].foldlM filterCall (conntrackInitEnv a ()).attr = .ok attr ∧
      attr.CONN_OFFLOAD_TIME < (filterCongestionCb attr).CONN_OFFLOAD_TIME := by
  intro a
  have hrun : [FilterCall.tuneFilter 70 (-1) (-1) (-1)].foldlM filterCall (conntrackInitEnv a ()).attr =
      .ok (conntrackTuneFilter (conntrackInitEnv a ()).attr 70 (-1) (-1) (-1)).2 := rfl
  refine ⟨_, hrun, ?_⟩
  exact (congestion_tightens_iff a () (by decide) (by decide) (by decide) (by decide) _ _ hrun (by decide)).1.2
    (by decide)

/-- With the offload time zero, as the load balancer has it, a signal leaves the threshold at zero. -/
theorem congestion_stuck_at_zero :
    let a : InitArgs := ⟨4194304, 2097152, 0, 100000, 1000000000, 1, 5⟩
    let attr := (conntrackInitEnv a ()).attr
    attr.CONN_OFFLOAD_TIME < attr.CONN_OFFLOAD_TIME_MAX ∧
      ¬ attr.CONN_OFFLOAD_TIME < (filterCongestionCb attr).CONN_OFFLOAD_TIME := by
  decide

end FlowQoS.Conntrack
