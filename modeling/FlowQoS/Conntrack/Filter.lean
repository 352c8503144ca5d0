import FlowQoS.Conntrack.Defs
import FlowQoS.Lib.Band
import Mathlib.Algebra.Order.Group.Nat

/-!
# The threshold of the filter

A connection is offloaded when it is older than `CONN_OFFLOAD_TIME`. The tuning of a window moves this
threshold up or down by a step, the congestion callback doubles it, and a user sets it, its lower bound
and the step. In 64 bits these calls are the operations of a band (`Lib/Band.lean`) on the natural
numbers (`TracksBand`): the threshold stays within its bounds and nothing wraps (`filter_bounded`).
-/

namespace FlowQoS.Conntrack

open Lib

variable {σ : Type} {attr attr' : ConnAttr} {b : Band ℕ} {last now : UInt64}

/-- `flowQoS_conntrack_tune_filter`. -/
def conntrackTuneFilter (attr : ConnAttr)
    (timeThresholdUs packetThreshold deltaTimeUs maxOffloadSpeed : Int32) : ℤ × ConnAttr :=
  if attr.CPU_HZ = 0 then (0, attr)
  else
    let attr :=
      if 0 ≤ timeThresholdUs then
        let time := UInt64.ofInt timeThresholdUs.toInt * (attr.CPU_HZ / 1000000)
        { attr with CONN_OFFLOAD_TIME := time, CONN_OFFLOAD_TIME_MIN := time }
      else attr
    let attr :=
      if 0 ≤ packetThreshold then
        { attr with PACKET_THRESHOLD := UInt64.ofInt packetThreshold.toInt }
      else attr
    let attr :=
      if 0 ≤ deltaTimeUs then
        { attr with
          CONN_OFFLOAD_TIME_DELTA := UInt64.ofInt deltaTimeUs.toInt * (attr.CPU_HZ / 1000000) }
      else attr
    let attr :=
      if 0 ≤ maxOffloadSpeed then
        { attr with MAX_OFFLOAD_SPEED := UInt64.ofInt maxOffloadSpeed.toInt }
      else attr
    let attr :=
      if attr.CONN_OFFLOAD_TIME > attr.CONN_OFFLOAD_TIME_MAX then
        { attr with CONN_OFFLOAD_TIME := attr.CONN_OFFLOAD_TIME_MAX }
      else attr
    let attr :=
      if attr.CONN_OFFLOAD_TIME_MIN > attr.CONN_OFFLOAD_TIME_MAX then
        { attr with CONN_OFFLOAD_TIME_MIN := attr.CONN_OFFLOAD_TIME_MAX }
      else attr
    (1, attr)

/-- What is called on the filter; `enqueue` is the count of a connection handed to the scheduler. -/
inductive FilterCall where
  | runtimeTune (now : UInt64)
  | congestionCb
  | tuneFilter (timeThresholdUs packetThreshold deltaTimeUs maxOffloadSpeed : Int32)
  | enqueue

def filterCall (attr : ConnAttr) : FilterCall → Except Fault ConnAttr
  | .runtimeTune now => filterRuntimeTune attr now
  | .congestionCb => .ok (filterCongestionCb attr)
  | .tuneFilter t p d v => .ok (conntrackTuneFilter attr t p d v).2
  | .enqueue => .ok { attr with
      FILTER_WINDOW_ENQUEUED := attr.FILTER_WINDOW_ENQUEUED + 1
      FILTER_ENQUEUED_TOTAL := attr.FILTER_ENQUEUED_TOTAL + 1 }

/-- The readings of the timestamp counter in the calls. -/
def stamps (calls : List FilterCall) : List UInt64 :=
  calls.filterMap fun
    | .runtimeTune now => some now
    | _ => none

/-- The threshold is within its bounds. -/
structure Bounded (attr : ConnAttr) : Prop where
  min_le : attr.CONN_OFFLOAD_TIME_MIN ≤ attr.CONN_OFFLOAD_TIME
  le_max : attr.CONN_OFFLOAD_TIME ≤ attr.CONN_OFFLOAD_TIME_MAX

/-- No operation of the call wraps: as natural numbers, what it adds, doubles and multiplies is below
`2 ^ 64`, and what it subtracts is no more than what it subtracts from. The rate of a window is a
product with the number of connections counted in it. -/
def NoWrap (attr : ConnAttr) : FilterCall → Prop
  | .runtimeTune now =>
    attr.CPU_HZ.toNat * connschedTuningWindowUs.toNat < 2 ^ 64 ∧
    (attr.FILTER_WINDOW_ENQUEUED.toNat < 2 ^ 30 →
      attr.FILTER_WINDOW_ENQUEUED.toNat * attr.CPU_HZ.toNat < 2 ^ 64) ∧
    attr.FILTER_WINDOW_START ≤ now ∧
    attr.CONN_OFFLOAD_TIME.toNat + attr.CONN_OFFLOAD_TIME_DELTA.toNat < 2 ^ 64 ∧
    attr.CONN_OFFLOAD_TIME_MIN.toNat + attr.CONN_OFFLOAD_TIME_DELTA.toNat < 2 ^ 64 ∧
    (attr.CONN_OFFLOAD_TIME > attr.CONN_OFFLOAD_TIME_MIN + attr.CONN_OFFLOAD_TIME_DELTA →
      attr.CONN_OFFLOAD_TIME_DELTA ≤ attr.CONN_OFFLOAD_TIME)
  | .congestionCb => attr.CONN_OFFLOAD_TIME.toNat * 2 < 2 ^ 64
  | .tuneFilter timeThresholdUs _ deltaTimeUs _ =>
    (0 ≤ timeThresholdUs → timeThresholdUs.toInt * (attr.CPU_HZ.toNat / 1000000) < 2 ^ 64) ∧
    (0 ≤ deltaTimeUs → deltaTimeUs.toInt * (attr.CPU_HZ.toNat / 1000000) < 2 ^ 64)
  | .enqueue => True

/-- No product of the initialisation wraps. -/
def InitNoWrap (a : InitArgs) : Prop :=
  a.offloadTime * (a.tsc_hz.toNat / 1000000) < 2 ^ 64 ∧
  connschedDefaultMaxTthSec.toNat * a.tsc_hz.toNat < 2 ^ 64 ∧
  connschedDefaultDeltaTimeUs.toNat * (a.tsc_hz.toNat / 1000000) < 2 ^ 64

/-- The threshold and its bounds are those of the band. -/
structure TracksBand (attr : ConnAttr) (b : Band ℕ) : Prop where
  lo : attr.CONN_OFFLOAD_TIME_MIN.toNat = b.lo
  val : attr.CONN_OFFLOAD_TIME.toNat = b.val
  hi : attr.CONN_OFFLOAD_TIME_MAX.toNat = b.hi

/-- The invariant: the threshold is that of a band with room above it, and the window starts no later
than the last reading. -/
structure FilterInv (attr : ConnAttr) (last : UInt64) (b : Band ℕ) : Prop where
  tracks : TracksBand attr b
  hz : 1000000 ≤ attr.CPU_HZ.toNat ∧ attr.CPU_HZ.toNat < 2 ^ 34
  hi_lt : b.hi < 2 ^ 46
  delta_lt : attr.CONN_OFFLOAD_TIME_DELTA.toNat < 2 ^ 46
  start_le : attr.FILTER_WINDOW_START ≤ last

theorem TracksBand.bounded (h : TracksBand attr b) : Bounded attr := by
  constructor
  · rw [UInt64.le_iff_toNat_le, h.lo, h.val]
    exact b.lo_le
  · rw [UInt64.le_iff_toNat_le, h.val, h.hi]
    exact b.le_hi

/-! ### Words that do not wrap -/

theorem toNat_add_of_lt {x y : UInt64} (h : x.toNat + y.toNat < 2 ^ 64) :
    (x + y).toNat = x.toNat + y.toNat := by
  rw [UInt64.toNat_add, Nat.mod_eq_of_lt h]

theorem toNat_mul_of_lt {x y : UInt64} (h : x.toNat * y.toNat < 2 ^ 64) :
    (x * y).toNat = x.toNat * y.toNat := by
  rw [UInt64.toNat_mul, Nat.mod_eq_of_lt h]

theorem toNat_ofInt_of_lt {x : ℤ} (h0 : 0 ≤ x) (h : x < 2 ^ 31) :
    (UInt64.ofInt x).toNat = x.toNat := by
  unfold UInt64.ofInt
  rw [UInt64.toNat_ofNat', Int.emod_eq_of_lt h0 (by omega), Nat.mod_eq_of_lt (by omega)]

/-- What an upper bound leaves of a word. -/
theorem toNat_clamp (x max : UInt64) : (if x > max then max else x).toNat = min x.toNat max.toNat := by
  by_cases h : x > max
  · rw [if_pos h]
    rw [gt_iff_lt, UInt64.lt_iff_toNat_lt] at h
    omega
  · rw [if_neg h]
    rw [gt_iff_lt, UInt64.lt_iff_toNat_lt] at h
    omega

/-- A time in microseconds, in units of the timestamp counter. -/
theorem micros_lt {t : ℕ} {hz : ℕ} (ht : t < 2 ^ 31) (hhz : hz < 2 ^ 34) :
    t * (hz / 1000000) < 2 ^ 46 := by
  have hdiv : hz / 1000000 < 2 ^ 15 := by omega
  calc t * (hz / 1000000) ≤ 2 ^ 31 * (hz / 1000000) := Nat.mul_le_mul_right _ ht.le
    _ < 2 ^ 31 * 2 ^ 15 := Nat.mul_lt_mul_of_pos_left hdiv (by omega)
    _ = 2 ^ 46 := by omega

theorem micros_int_lt {t : ℤ} {hz : ℕ} (h0 : 0 ≤ t) (ht : t < 2 ^ 31) (hhz : hz < 2 ^ 34) :
    t * ((hz : ℤ) / 1000000) < 2 ^ 64 := by
  have hprod : t.toNat * (hz / 1000000) < 2 ^ 46 := micros_lt (by omega) hhz
  have hcast : t * ((hz : ℤ) / 1000000) = ((t.toNat * (hz / 1000000) : ℕ) : ℤ) := by
    rw [Int.natCast_mul, Int.toNat_of_nonneg h0]
    rfl
  rw [hcast]
  omega

theorem toNat_micros {t : ℤ} {hz : UInt64} (h0 : 0 ≤ t) (ht : t < 2 ^ 31)
    (hhz : hz.toNat < 2 ^ 34) :
    (UInt64.ofInt t * (hz / 1000000)).toNat = t.toNat * (hz.toNat / 1000000) := by
  have hlt : t.toNat * (hz.toNat / 1000000) < 2 ^ 46 := micros_lt (by omega) hhz
  have hofInt := toNat_ofInt_of_lt h0 ht
  have hdiv : (hz / 1000000).toNat = hz.toNat / 1000000 := UInt64.toNat_div hz 1000000
  rw [toNat_mul_of_lt, hofInt, hdiv]
  rw [hofInt, hdiv]
  omega

/-! ### The calls as operations of the band -/

/-- The band of a reachable threshold leaves room for a step and for a doubling. -/
theorem FilterInv.room (h : FilterInv attr last b) :
    attr.CONN_OFFLOAD_TIME_MIN.toNat < 2 ^ 46 ∧ attr.CONN_OFFLOAD_TIME.toNat < 2 ^ 46 := by
  have hlo := h.tracks.lo
  have hval := h.tracks.val
  have hhi := h.hi_lt
  have h1 := b.lo_le
  have h2 := b.le_hi
  omega

/-- The tuning of a window: the band is left alone, raised or lowered by the step. -/
theorem filterRuntimeTune_spec (h : FilterInv attr last b) (hle : last ≤ now) :
    ∃ attr' b', filterRuntimeTune attr now = .ok attr' ∧ FilterInv attr' now b' ∧
      (b' = b ∨ b' = b.raise attr.CONN_OFFLOAD_TIME_DELTA.toNat ∨
        b' = b.lower attr.CONN_OFFLOAD_TIME_DELTA.toNat) := by
  obtain ⟨hmin, htime⟩ := h.room
  have hdelta := h.delta_lt
  have hstart : attr.FILTER_WINDOW_START ≤ now := UInt64.le_trans h.start_le hle
  unfold filterRuntimeTune
  by_cases hoff : attr.ENABLE_FLOWQOS = false ∨ attr.MAX_OFFLOAD_SPEED = 0
  · rw [if_pos hoff]
    exact ⟨attr, b, rfl, { h with start_le := hstart }, .inl rfl⟩
  rw [if_neg hoff]
  by_cases hzero : attr.FILTER_WINDOW_START = 0
  · simp only [if_pos hzero]
    exact ⟨_, b, rfl, { h with start_le := UInt64.le_refl now, tracks := ⟨h.tracks.1, h.tracks.2, h.tracks.3⟩ },
      .inl rfl⟩
  simp only [if_neg hzero]
  by_cases hwin : now - attr.FILTER_WINDOW_START <
      attr.CPU_HZ * connschedTuningWindowUs / 1000000
  · rw [if_pos hwin]
    exact ⟨attr, b, rfl, { h with start_le := hstart }, .inl rfl⟩
  rw [if_neg hwin]
  -- the window is as long as a second, so the division is by more than zero
  have hne : now - attr.FILTER_WINDOW_START ≠ 0 := by
    intro heq
    apply hwin
    have hhz := h.hz
    rw [heq, UInt64.lt_iff_toNat_lt, UInt64.toNat_div, toNat_mul_of_lt]
    · show 0 < attr.CPU_HZ.toNat * 1000000 / 1000000
      omega
    · show attr.CPU_HZ.toNat * 1000000 < 2 ^ 64
      omega
  rw [if_neg hne]
  have hup : (attr.CONN_OFFLOAD_TIME + attr.CONN_OFFLOAD_TIME_DELTA).toNat =
      attr.CONN_OFFLOAD_TIME.toNat + attr.CONN_OFFLOAD_TIME_DELTA.toNat :=
    toNat_add_of_lt (by omega)
  have hlow : (attr.CONN_OFFLOAD_TIME_MIN + attr.CONN_OFFLOAD_TIME_DELTA).toNat =
      attr.CONN_OFFLOAD_TIME_MIN.toNat + attr.CONN_OFFLOAD_TIME_DELTA.toNat :=
    toNat_add_of_lt (by omega)
  by_cases hrate : attr.FILTER_WINDOW_ENQUEUED * attr.CPU_HZ / (now - attr.FILTER_WINDOW_START) >
      attr.MAX_OFFLOAD_SPEED
  · simp only [if_pos hrate]
    refine ⟨_, b.raise attr.CONN_OFFLOAD_TIME_DELTA.toNat, rfl, ⟨⟨h.tracks.lo, ?_, h.tracks.hi⟩, h.hz,
      h.hi_lt, h.delta_lt, UInt64.le_refl now⟩, .inr (.inl rfl)⟩
    show (if _ then _ else _ : UInt64).toNat = min (b.val + _) b.hi
    rw [toNat_clamp, hup, h.tracks.val, h.tracks.hi]
  · simp only [if_neg hrate]
    refine ⟨_, b.lower attr.CONN_OFFLOAD_TIME_DELTA.toNat, rfl, ⟨⟨h.tracks.lo, ?_, h.tracks.hi⟩, h.hz,
      h.hi_lt, h.delta_lt, UInt64.le_refl now⟩, .inr (.inr rfl)⟩
    show (if _ then _ else _ : UInt64).toNat = if b.lo + _ < b.val then b.val - _ else b.lo
    rw [← h.tracks.val, ← h.tracks.lo, ← hlow]
    by_cases hgt : attr.CONN_OFFLOAD_TIME > attr.CONN_OFFLOAD_TIME_MIN + attr.CONN_OFFLOAD_TIME_DELTA
    · rw [if_pos hgt, if_pos (UInt64.lt_iff_toNat_lt.1 hgt), UInt64.toNat_sub_of_le]
      rw [gt_iff_lt, UInt64.lt_iff_toNat_lt] at hgt
      rw [UInt64.le_iff_toNat_le]
      omega
    · rw [if_neg hgt, if_neg fun hlt => hgt (UInt64.lt_iff_toNat_lt.2 hlt)]

/-- The congestion callback: the band is left alone or raised by the threshold itself. -/
theorem filterCongestionCb_spec (h : FilterInv attr last b) :
    ∃ b', FilterInv (filterCongestionCb attr) last b' ∧ (b' = b ∨ b' = b.raise b.val) := by
  obtain ⟨-, htime⟩ := h.room
  unfold filterCongestionCb
  by_cases hen : attr.ENABLE_FLOWQOS
  · rw [if_pos hen]
    refine ⟨b.raise b.val, ⟨⟨h.tracks.lo, ?_, h.tracks.hi⟩, h.hz, h.hi_lt, h.delta_lt, h.start_le⟩,
      .inr rfl⟩
    have hdouble : (attr.CONN_OFFLOAD_TIME * 2).toNat = b.val + b.val := by
      rw [toNat_mul_of_lt (show _ * 2 < 2 ^ 64 by omega), ← h.tracks.val]
      exact Nat.mul_two _
    show (if _ then _ else _ : UInt64).toNat = min (b.val + b.val) b.hi
    rw [toNat_clamp, hdouble, h.tracks.hi]
  · rw [if_neg hen]
    exact ⟨b, h, .inl rfl⟩

/-- What a user's setting writes of the threshold, its bounds and its step. -/
theorem conntrackTuneFilter_eq {t p d v : Int32} (hhz : attr.CPU_HZ ≠ 0) :
    let time (x : Int32) := UInt64.ofInt x.toInt * (attr.CPU_HZ / 1000000)
    let clamp (x : UInt64) := if x > attr.CONN_OFFLOAD_TIME_MAX then attr.CONN_OFFLOAD_TIME_MAX else x
    let attr' := (conntrackTuneFilter attr t p d v).2
    attr'.CONN_OFFLOAD_TIME = clamp (if 0 ≤ t then time t else attr.CONN_OFFLOAD_TIME) ∧
    attr'.CONN_OFFLOAD_TIME_MIN = clamp (if 0 ≤ t then time t else attr.CONN_OFFLOAD_TIME_MIN) ∧
    attr'.CONN_OFFLOAD_TIME_DELTA = (if 0 ≤ d then time d else attr.CONN_OFFLOAD_TIME_DELTA) ∧
    attr'.CONN_OFFLOAD_TIME_MAX = attr.CONN_OFFLOAD_TIME_MAX ∧ attr'.CPU_HZ = attr.CPU_HZ ∧
    attr'.FILTER_WINDOW_START = attr.FILTER_WINDOW_START := by
  simp only [conntrackTuneFilter, if_neg hhz]
  by_cases ht : 0 ≤ t <;> by_cases hp : 0 ≤ p <;> by_cases hd : 0 ≤ d <;> by_cases hv : 0 ≤ v <;>
    simp only [ht, hp, hd, hv, if_true, if_false] <;> split_ifs <;> simp

/-- A user's setting: the band is left alone or set to the time given. -/
theorem conntrackTuneFilter_spec {t p d v : Int32} (h : FilterInv attr last b) :
    ∃ b', FilterInv (conntrackTuneFilter attr t p d v).2 last b' ∧
      (b' = b ∨ b' = b.reset (t.toInt.toNat * (attr.CPU_HZ.toNat / 1000000))) := by
  have hne : attr.CPU_HZ ≠ 0 := by
    intro hzero
    have hhz := h.hz.1
    rw [hzero] at hhz
    exact absurd hhz (by decide)
  obtain ⟨htime, hmin, hdelta, hmax, hcpu, hstart⟩ :=
    conntrackTuneFilter_eq (t := t) (p := p) (d := d) (v := v) hne
  have hhz : 1000000 ≤ (conntrackTuneFilter attr t p d v).2.CPU_HZ.toNat ∧
      (conntrackTuneFilter attr t p d v).2.CPU_HZ.toNat < 2 ^ 34 := by
    rw [hcpu]
    exact h.hz
  have hstep : (conntrackTuneFilter attr t p d v).2.CONN_OFFLOAD_TIME_DELTA.toNat < 2 ^ 46 := by
    rw [hdelta]
    by_cases hd : 0 ≤ d
    · have hlt := Int32.toInt_lt d
      have hd0 : 0 ≤ d.toInt := Int32.le_iff_toInt_le.1 hd
      rw [if_pos hd, toNat_micros hd0 hlt h.hz.2]
      exact micros_lt (by omega) h.hz.2
    · rw [if_neg hd]
      exact h.delta_lt
  by_cases ht : 0 ≤ t
  · have hlt := Int32.toInt_lt t
    have ht0 : 0 ≤ t.toInt := Int32.le_iff_toInt_le.1 ht
    refine ⟨b.reset (t.toInt.toNat * (attr.CPU_HZ.toNat / 1000000)), ⟨⟨?_, ?_, ?_⟩, hhz, h.hi_lt, hstep,
      hstart ▸ h.start_le⟩, .inr rfl⟩
    · rw [hmin, if_pos ht, toNat_clamp, toNat_micros ht0 hlt h.hz.2, h.tracks.hi]
      rfl
    · rw [htime, if_pos ht, toNat_clamp, toNat_micros ht0 hlt h.hz.2, h.tracks.hi]
      rfl
    · rw [hmax, h.tracks.hi]
      rfl
  · refine ⟨b, ⟨⟨?_, ?_, ?_⟩, hhz, h.hi_lt, hstep, hstart ▸ h.start_le⟩, .inl rfl⟩
    · rw [hmin, if_neg ht, toNat_clamp, h.tracks.lo, h.tracks.hi]
      exact min_eq_left (b.lo_le.trans b.le_hi)
    · rw [htime, if_neg ht, toNat_clamp, h.tracks.val, h.tracks.hi]
      exact min_eq_left b.le_hi
    · rw [hmax, h.tracks.hi]

/-- The last reading after a call. -/
def lastStamp (last : UInt64) : FilterCall → UInt64
  | .runtimeTune now => now
  | _ => last

/-- **Every call is an operation of the band**, and does not fail. -/
theorem filterCall_spec {call : FilterCall} (h : FilterInv attr last b)
    (hle : last ≤ lastStamp last call) :
    ∃ attr' b', filterCall attr call = .ok attr' ∧ FilterInv attr' (lastStamp last call) b' := by
  cases call with
  | runtimeTune now =>
    obtain ⟨attr', b', hok, h', -⟩ := filterRuntimeTune_spec h hle
    exact ⟨attr', b', hok, h'⟩
  | congestionCb =>
    obtain ⟨b', h', -⟩ := filterCongestionCb_spec h
    exact ⟨_, b', rfl, h'⟩
  | tuneFilter t p d v =>
    obtain ⟨b', h', -⟩ := conntrackTuneFilter_spec (t := t) (p := p) (d := d) (v := v) h
    exact ⟨_, b', rfl, h'⟩
  | enqueue =>
    exact ⟨_, b, rfl, ⟨⟨h.tracks.lo, h.tracks.val, h.tracks.hi⟩, h.hz, h.hi_lt, h.delta_lt, h.start_le⟩⟩

/-- Nothing wraps in a call. -/
theorem FilterInv.noWrap {call : FilterCall} (h : FilterInv attr last b)
    (hle : last ≤ lastStamp last call) : NoWrap attr call := by
  obtain ⟨hmin, htime⟩ := h.room
  have hdelta := h.delta_lt
  obtain ⟨-, hhz⟩ := h.hz
  cases call with
  | runtimeTune now =>
    refine ⟨?_, ?_, UInt64.le_trans h.start_le hle, by omega, by omega, ?_⟩
    · show attr.CPU_HZ.toNat * 1000000 < 2 ^ 64
      omega
    · intro hcount
      calc attr.FILTER_WINDOW_ENQUEUED.toNat * attr.CPU_HZ.toNat
          ≤ 2 ^ 30 * attr.CPU_HZ.toNat := Nat.mul_le_mul_right _ hcount.le
        _ < 2 ^ 64 := by omega
    · intro hgt
      rw [gt_iff_lt, UInt64.lt_iff_toNat_lt, toNat_add_of_lt (by omega)] at hgt
      rw [UInt64.le_iff_toNat_le]
      omega
  | congestionCb =>
    show attr.CONN_OFFLOAD_TIME.toNat * 2 < 2 ^ 64
    omega
  | tuneFilter t p d v =>
    have hmicros : ∀ x : Int32, 0 ≤ x → x.toInt * ((attr.CPU_HZ.toNat : ℤ) / 1000000) < 2 ^ 64 :=
      fun x hx => micros_int_lt (Int32.le_iff_toInt_le.1 hx) (Int32.toInt_lt x) hhz
    exact ⟨hmicros t, hmicros d⟩
  | enqueue => trivial

/-! ### Runs -/

theorem stamps_cons {call : FilterCall} {calls : List FilterCall}
    (h : (last :: stamps (call :: calls)).Pairwise (· ≤ ·)) :
    last ≤ lastStamp last call ∧ (lastStamp last call :: stamps calls).Pairwise (· ≤ ·) := by
  cases call with
  | runtimeTune now => exact ⟨(List.pairwise_cons.1 h).1 now (by simp [stamps]), (List.pairwise_cons.1 h).2⟩
  | congestionCb => exact ⟨UInt64.le_refl last, h⟩
  | tuneFilter t p d v => exact ⟨UInt64.le_refl last, h⟩
  | enqueue => exact ⟨UInt64.le_refl last, h⟩

/-- The calls do not fail, and the invariant holds after them. -/
theorem filterCalls_inv {calls : List FilterCall} (h : FilterInv attr last b)
    (hmono : (last :: stamps calls).Pairwise (· ≤ ·)) :
    ∃ attr' b', calls.foldlM filterCall attr = .ok attr' ∧
      FilterInv attr' (calls.foldl lastStamp last) b' := by
  induction calls generalizing attr b last with
  | nil => exact ⟨attr, b, rfl, h⟩
  | cons call calls ih =>
    obtain ⟨hle, hrest⟩ := stamps_cons hmono
    obtain ⟨attr₁, b₁, hok, h₁⟩ := filterCall_spec h hle
    obtain ⟨attr', b', hoks, h'⟩ := ih h₁ hrest
    refine ⟨attr', b', ?_, h'⟩
    rw [List.foldlM_cons, hok]
    exact hoks

/-- The readings of a longer sequence of calls. -/
theorem stamps_concat {call : FilterCall} {calls : List FilterCall}
    (h : (last :: stamps (calls ++ [call])).Pairwise (· ≤ ·)) :
    (last :: stamps calls).Pairwise (· ≤ ·) ∧
      calls.foldl lastStamp last ≤ lastStamp (calls.foldl lastStamp last) call := by
  induction calls generalizing last with
  | nil => exact ⟨List.pairwise_singleton _ _, (stamps_cons h).1⟩
  | cons c calls ih =>
    obtain ⟨hle, hrest⟩ := stamps_cons (by simpa using h)
    obtain ⟨hmono, hlast⟩ := ih hrest
    refine ⟨?_, hlast⟩
    cases c with
    | runtimeTune now =>
      refine List.pairwise_cons.2 ⟨?_, hmono⟩
      intro x hx
      rcases List.mem_cons.1 hx with rfl | hx
      · exact hle
      · exact UInt64.le_trans hle ((List.pairwise_cons.1 hmono).1 x hx)
    | congestionCb => exact hmono
    | tuneFilter t p d v => exact hmono
    | enqueue => exact hmono

/-- The band of the initialisation: the time given, up to ten seconds or to the time itself. -/
theorem filterInv_boot (a : InitArgs) (app : σ) (h0 : 0 ≤ a.offloadTime) (hint : a.offloadTime < 2 ^ 31)
    (hhz : 1000000 ≤ a.tsc_hz.toNat) (hhz' : a.tsc_hz.toNat < 2 ^ 34) :
    ∃ b, FilterInv (conntrackInitEnv a app).attr a.rdtsc b := by
  have htime := toNat_micros h0 hint hhz'
  have hlt := micros_lt (t := a.offloadTime.toNat) (by omega) hhz'
  have hmax : (connschedDefaultMaxTthSec * a.tsc_hz).toNat = 10 * a.tsc_hz.toNat := by
    rw [toNat_mul_of_lt]
    · rfl
    · show 10 * a.tsc_hz.toNat < 2 ^ 64
      omega
  set time := UInt64.ofInt a.offloadTime * (a.tsc_hz / 1000000) with hdef
  set max := connschedDefaultMaxTthSec * a.tsc_hz with hmaxdef
  have hhi : (if max < time then time else max).toNat = Nat.max time.toNat max.toNat := by
    by_cases h : max < time
    · rw [if_pos h]
      exact (Nat.max_eq_left (UInt64.le_iff_toNat_le.1 (UInt64.le_of_lt h))).symm
    · rw [if_neg h]
      exact (Nat.max_eq_right (UInt64.le_iff_toNat_le.1 (UInt64.not_lt.1 h))).symm
  refine ⟨⟨time.toNat, time.toNat, Nat.max time.toNat max.toNat, le_rfl, Nat.le_max_left _ _⟩,
    ⟨rfl, rfl, hhi⟩, ⟨hhz, hhz'⟩, ?_, ?_, UInt64.le_refl _⟩
  · show Nat.max time.toNat max.toNat < 2 ^ 46
    exact Nat.max_lt.2 ⟨by omega, by omega⟩
  · show (UInt64.ofInt 1000 * (a.tsc_hz / 1000000)).toNat < 2 ^ 46
    rw [toNat_micros (by omega) (by omega) hhz']
    exact micros_lt (by omega) hhz'

/-- **The threshold of the filter is bounded.** After the initialisation and any sequence of calls with
readings that do not decrease, no call has divided by zero, the threshold is within its bounds, and
nothing wraps in whatever call comes next. -/
theorem filter_bounded (a : InitArgs) (app : σ) (h0 : 0 ≤ a.offloadTime) (hint : a.offloadTime < 2 ^ 31)
    (hhz : 1000000 ≤ a.tsc_hz.toNat) (hhz' : a.tsc_hz.toNat < 2 ^ 34) (calls : List FilterCall)
    (hmono : (a.rdtsc :: stamps calls).Pairwise (· ≤ ·)) :
    InitNoWrap a ∧
    ∃ attr, calls.foldlM filterCall (conntrackInitEnv a app).attr = .ok attr ∧ Bounded attr ∧
      ∀ call, (a.rdtsc :: stamps (calls ++ [call])).Pairwise (· ≤ ·) →
        NoWrap attr call ∧ (filterCall attr call).isOk := by
  obtain ⟨b, hboot⟩ := filterInv_boot a app h0 hint hhz hhz'
  obtain ⟨attr, b', hok, h⟩ := filterCalls_inv hboot hmono
  refine ⟨⟨?_, ?_, ?_⟩, attr, hok, h.tracks.bounded, ?_⟩
  · exact micros_int_lt h0 hint hhz'
  · show 10 * a.tsc_hz.toNat < 2 ^ 64
    omega
  · show 1000 * (a.tsc_hz.toNat / 1000000) < 2 ^ 64
    omega
  · intro call hcall
    have hle := (stamps_concat hcall).2
    obtain ⟨attr', -, hok', -⟩ := filterCall_spec h hle
    refine ⟨h.noWrap hle, ?_⟩
    rw [hok']
    rfl

/-- A GHz counter, 10 ms to start with: three windows, a congestion and a new setting. -/
theorem filter_bounded_gigahertz :
    let a : InitArgs := ⟨4, 4, 10000, 100, 1000000000, 1, 5⟩
    let calls := [FilterCall.runtimeTune 2000000000, .congestionCb, .tuneFilter 70 (-1) 2147483647 (-1),
      .enqueue, .runtimeTune 5000000000]
    (a.rdtsc :: stamps calls).Pairwise (· ≤ ·) ∧
    ∃ attr, calls.foldlM filterCall (conntrackInitEnv a ()).attr = .ok attr ∧ Bounded attr := by
  intro a calls
  have hmono : (a.rdtsc :: stamps calls).Pairwise (· ≤ ·) := by decide
  obtain ⟨-, attr, hok, hbounded, -⟩ :=
    filter_bounded a () (by decide) (by decide) (by decide) (by decide) calls hmono
  exact ⟨hmono, attr, hok, hbounded⟩

end FlowQoS.Conntrack
