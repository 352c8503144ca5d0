import FlowQoS.Conntrack.Filter
import FlowQoS.Conntrack.Scheduler

/-!
# The congestion signal

`hwCongested` says that the hardware entries in use have reached the watermark, 80 percent of the budget,
and `qosCongestionHandler` is called when they reach it. Both are computed at the offloads only: the flag
is right in runs in which no returned entry takes the use below the watermark (`run_congestion`), and stays
set after one that does, so that the next crossing is not signalled (`returned_entry_keeps_flag`).
-/

set_option linter.unusedSectionVars false

namespace FlowQoS.Conntrack

open Lib Pipe Timer

variable {σ : Type} {w w' w₀ : World σ} {s : Core σ} {q : FlowQoSStats} {outcome : CtxId → Outcome}

/-- The hardware entries in use. -/
def occupied (q : FlowQoSStats) : ℤ := q.maxEntryLimit - q.maxEntry

/-- 80 percent of the budget, rounded down. -/
def watermark (q : FlowQoSStats) : ℤ := q.maxEntryLimit * 80 / 100

/-- The budget is at least 2 and 80 times the budget is an `int`, the use is within the budget, and the flag
tells whether it has reached the watermark. -/
structure SignalInv (q : FlowQoSStats) : Prop where
  limit : 2 ≤ q.maxEntryLimit ∧ q.maxEntryLimit * 80 < 2 ^ 31
  percent : q.hwWatermarkPercent = 80
  maxEntry : 0 ≤ q.maxEntry ∧ q.maxEntry ≤ q.maxEntryLimit
  flag : q.hwCongested = if watermark q ≤ occupied q then 1 else 0

/-- The comparison of the code, in `uint64_t` and with a product of two `int`, is that of the integers. -/
theorem lt_watermark (hlim : 2 ≤ q.maxEntryLimit ∧ q.maxEntryLimit * 80 < 2 ^ 31)
    (hpercent : q.hwWatermarkPercent = 80) (hmax : 0 ≤ q.maxEntry ∧ q.maxEntry ≤ q.maxEntryLimit) :
    UInt64.ofInt (q.maxEntryLimit - q.maxEntry) <
      UInt64.ofInt ((mulInt q.maxEntryLimit q.hwWatermarkPercent).tdiv 100) ↔
    occupied q < watermark q := by
  have hmul : mulInt q.maxEntryLimit q.hwWatermarkPercent = q.maxEntryLimit * 80 := by
    unfold mulInt
    rw [hpercent, Int.bmod_def, Int.emod_eq_of_lt (by omega) (by omega), if_pos (by omega)]
  rw [hmul, Int.tdiv_eq_ediv_of_nonneg (by omega), UInt64.lt_iff_toNat_lt,
    toNat_ofInt_of_lt (by omega) (by omega), toNat_ofInt_of_lt (by omega) (by omega)]
  unfold occupied watermark
  omega

/-- The flag and the call after an entry has been offloaded, with a handler registered. -/
theorem congestion_flag (hlim : 2 ≤ s.qos.maxEntryLimit ∧ s.qos.maxEntryLimit * 80 < 2 ^ 31)
    (hpercent : s.qos.hwWatermarkPercent = 80)
    (hmax : 0 ≤ s.qos.maxEntry ∧ s.qos.maxEntry ≤ s.qos.maxEntryLimit)
    (hhandler : s.congestionHandler = true) (hflag : s.qos.hwCongested = 0 ∨ s.qos.hwCongested = 1) :
    ((congestion s).qos.hwCongested = if watermark s.qos ≤ occupied s.qos then 1 else 0) ∧
      (signals s = true ↔ watermark s.qos ≤ occupied s.qos ∧ s.qos.hwCongested = 0) := by
  have hlt := lt_watermark hlim hpercent hmax
  have hpos : s.qos.maxEntryLimit > 0 := by omega
  rw [congestion_eq_signals]
  by_cases hbelow : occupied s.qos < watermark s.qos
  · have hle : ¬ watermark s.qos ≤ occupied s.qos := by omega
    have hclear : clearCongested s = { s with qos := { s.qos with hwCongested := 0 } } := by
      unfold clearCongested
      exact if_pos ⟨hpos, hlt.2 hbelow⟩
    have hno : signals s = false := by
      unfold signals
      simp only [decide_eq_false_iff_not]
      rintro ⟨-, -, hge, -⟩
      exact absurd (hlt.2 hbelow) (UInt64.not_lt.2 hge)
    rw [hno, if_neg (by simp), hclear, if_neg hle]
    simp [hle]
  · have hle : watermark s.qos ≤ occupied s.qos := by omega
    have hge := mt hlt.1 hbelow
    have hclear : clearCongested s = s := by
      unfold clearCongested
      exact if_neg fun h => hge h.2
    have hsig : signals s = true ↔ s.qos.hwCongested = 0 := by
      unfold signals
      rw [hclear, decide_eq_true_eq]
      exact ⟨fun h => h.2.2.2, fun h => ⟨hpos, hhandler, UInt64.not_lt.1 hge, h⟩⟩
    rw [if_pos hle]
    refine ⟨?_, hsig.trans ⟨fun h => ⟨hle, h⟩, fun h => h.2⟩⟩
    rcases hflag with hz | ho
    · rw [if_pos (hsig.2 hz)]
    · have hno : ¬ signals s = true := by
        rw [hsig, ho]
        decide
      rw [if_neg hno, hclear, ho]

/-! ### Turns and returned entries -/

/-- The state in which a turn computes the congestion signal. -/
theorem Turn.signal {t : TurnLabel} (h : Turn outcome w t w') : ∃ s : Core σ,
    s.qos = { w.2.qos with
      maxEntry := w.2.qos.maxEntry - 1
      finished := Function.update w.2.qos.finished t.queue (w.2.qos.finished t.queue + 1) } ∧
    s.congestionHandler = w.2.congestionHandler ∧ t.signalled = signals s ∧
    w'.2.qos.hwCongested = (congestion s).qos.hwCongested := by
  obtain ⟨-, ret, s, arg, s', hadd, -, -, hsig, hdel, rfl⟩ := h
  obtain ⟨-, hsame⟩ := offloadEntry_qos hadd
  refine ⟨spendEntry (qosHandler (w.1, s) arg).2 t.queue, ?_, hsame.handler, hsig, ?_⟩
  · simp only [spendEntry, qosHandler, Core.toHw, Core.setCtx, hsame.qos]
  · unfold delEntryEvent at hdel
    simp only at hdel
    split at hdel
    · cases hdel
      rfl
    · cases hdel

/-- **A turn calls the handler exactly when it takes the use up to the watermark**, and the flag is right
after it. -/
theorem SignalInv.turn {t : TurnLabel} (h : SignalInv w.2.qos) (hhandler : w.2.congestionHandler = true)
    (ht : Turn outcome w t w') : SignalInv w'.2.qos ∧ w'.2.congestionHandler = true ∧
      (t.signalled = true ↔ occupied w.2.qos < watermark w.2.qos ∧ watermark w'.2.qos ≤ occupied w'.2.qos) := by
  obtain ⟨s, hqos, hs, hsig, hflag⟩ := ht.signal
  have hspec := ht.spec
  have hroom := hspec.room
  have hmax := h.maxEntry
  have hone : w.2.qos.hwCongested = 0 ∨ w.2.qos.hwCongested = 1 := by
    rw [h.flag]
    split
    · exact .inr rfl
    · exact .inl rfl
  obtain ⟨hset, hcall⟩ := congestion_flag (s := s) (by rw [hqos]; exact h.limit) (by rw [hqos]; exact h.percent)
    (by rw [hqos]; simp only; omega) (hs.trans hhandler) (by rw [hqos]; exact hone)
  have hocc : occupied w'.2.qos = occupied w.2.qos + 1 := by
    unfold occupied
    rw [hspec.qos]
    simp only
    omega
  have hwm : watermark w'.2.qos = watermark w.2.qos := by
    unfold watermark
    rw [hspec.qos]
  have hocc' : occupied s.qos = occupied w'.2.qos := by
    unfold occupied
    rw [hspec.qos, hqos]
  have hwm' : watermark s.qos = watermark w'.2.qos := by
    unfold watermark
    rw [hspec.qos, hqos]
  refine ⟨⟨?_, ?_, ?_, ?_⟩, hspec.handler.trans hhandler, ?_⟩
  · rw [hspec.qos]
    exact h.limit
  · rw [hspec.qos]
    exact h.percent
  · rw [hspec.qos]
    simp only
    omega
  · rw [hflag, hset, hocc', hwm']
  · rw [hsig, hcall, hocc', hwm', hwm, hqos]
    simp only
    rw [h.flag]
    split
    · constructor
      · rintro ⟨-, hc⟩
        cases hc
      · rintro ⟨hlt, -⟩
        omega
    · constructor
      · rintro ⟨hle, -⟩
        exact ⟨by omega, hle⟩
      · rintro ⟨-, hle⟩
        exact ⟨hle, rfl⟩

/-- The condition on a call of `flowQoS_return_entry_event`: it does not take the use below the watermark. -/
def StaysAbove (w : World σ) : SchedEvent → Prop
  | .returnEntry => occupied w.2.qos ≠ watermark w.2.qos
  | _ => True

theorem SignalInv.returnEntry (h : SignalInv w.2.qos) (hne : occupied w.2.qos ≠ watermark w.2.qos) :
    SignalInv (returnEntryEvent w.2).qos := by
  have hmax := h.maxEntry
  have hreturned : (returnEntryEvent w.2).qos.maxEntry =
      if w.2.qos.maxEntry + 1 > w.2.qos.maxEntryLimit then w.2.qos.maxEntryLimit
      else w.2.qos.maxEntry + 1 := rfl
  refine ⟨h.limit, h.percent, ?_, ?_⟩
  · rw [hreturned]
    show 0 ≤ _ ∧ _ ≤ w.2.qos.maxEntryLimit
    split <;> omega
  · show w.2.qos.hwCongested = _
    rw [h.flag]
    have hwm : watermark (returnEntryEvent w.2).qos = watermark w.2.qos := rfl
    have hlim := h.limit.1
    have hpos : 0 < watermark w.2.qos := by
      unfold watermark
      omega
    have hocc : occupied (returnEntryEvent w.2).qos =
        if w.2.qos.maxEntry + 1 > w.2.qos.maxEntryLimit then 0 else occupied w.2.qos - 1 := by
      show w.2.qos.maxEntryLimit - (returnEntryEvent w.2).qos.maxEntry = _
      rw [hreturned]
      unfold occupied
      split <;> omega
    rw [hwm, hocc]
    unfold occupied at hne ⊢
    split_ifs <;> omega

/-- The flag is right, and a handler is registered. -/
def Signals (w : World σ) : Prop := SignalInv w.2.qos ∧ w.2.congestionHandler = true

/-- The turns of a round keep the invariant. -/
theorem Signals.turns {ts : List TurnLabel} (h : Signals w) (ht : Trace (Turn outcome) w ts w') :
    Signals w' ∧ Trace (fun v t v' => Turn outcome v t v' ∧
      (t.signalled = true ↔ occupied v.2.qos < watermark v.2.qos ∧ watermark v'.2.qos ≤ occupied v'.2.qos) ∧
      (v'.2.qos.hwCongested = 1 ↔ watermark v'.2.qos ≤ occupied v'.2.qos)) w ts w' := by
  induction ht with
  | nil w => exact ⟨h, .nil w⟩
  | cons hturn _ ih =>
    obtain ⟨hinv, hhandler, hcall⟩ := h.1.turn h.2 hturn
    obtain ⟨hend, hrest⟩ := ih ⟨hinv, hhandler⟩
    refine ⟨hend, .cons ⟨hturn, hcall, ?_⟩ hrest⟩
    rw [hinv.flag]
    simp

theorem Signals.congr (h : Signals w) (hlimit : w'.2.qos.maxEntryLimit = w.2.qos.maxEntryLimit)
    (hpercent : w'.2.qos.hwWatermarkPercent = w.2.qos.hwWatermarkPercent)
    (hmax : w'.2.qos.maxEntry = w.2.qos.maxEntry) (hflag : w'.2.qos.hwCongested = w.2.qos.hwCongested)
    (hhandler : w'.2.congestionHandler = w.2.congestionHandler) : Signals w' := by
  obtain ⟨⟨h1, h2, h3, h4⟩, h5⟩ := h
  refine ⟨⟨?_, ?_, ?_, ?_⟩, hhandler.trans h5⟩
  · rw [hlimit]
    exact h1
  · rw [hpercent]
    exact h2
  · rw [hlimit, hmax]
    exact h3
  · rw [hflag, h4]
    unfold watermark occupied
    rw [hlimit, hmax]

theorem Signals.step {e : SchedEvent} (h : Signals w) (hc : StaysAbove w e) (hs : SchedSteps w e w') :
    Signals w' := by
  cases e with
  | round cur outcome n =>
    obtain ⟨⟨res, hrun⟩, -⟩ := hs
    obtain ⟨ts, w₁, htrace, -, -, hsame, -⟩ := round_turns hrun
    refine (h.turns htrace).1.congr ?_ ?_ ?_ ?_ hsame.handler
    · rw [hsame.qos]
    · rw [hsame.qos]
    · rw [hsame.qos]
    · rw [hsame.qos]
  | returnEntry =>
    subst hs
    exact ⟨h.1.returnEntry hc, h.2⟩
  | other =>
    obtain ⟨-, hhandler, hqos⟩ := hs
    refine h.congr ?_ ?_ ?_ ?_ hhandler
    · rw [hqos]
    · rw [hqos]
    · rw [hqos]
    · rw [hqos]

/-- **The congestion signal.** With a budget from 2 to `(2 ^ 31 - 1) / 80` and in a run in which no returned
entry takes the use below the watermark, the flag tells in every state whether the use has reached the
watermark, and every round is a sequence of offloads each of which calls the handler exactly when it takes
the use from below the watermark to it. -/
theorem run_congestion {n : ℕ} {weight : ℕ → ℤ} {limit speed : ℤ} {hz workers rdtsc : UInt64}
    (hinit : w₀.2.qos = qosInit n weight limit speed hz workers rdtsc)
    (hhandler : w₀.2.congestionHandler = true) (hlim : 2 ≤ limit) (hlim' : limit * 80 < 2 ^ 31)
    {es : List SchedEvent}
    (hr : Trace (fun w e w' => StaysAbove w e ∧ SchedSteps w e w') w₀ es w) :
    (w.2.qos.hwCongested = 1 ↔ watermark w.2.qos ≤ occupied w.2.qos) ∧
    ∀ cur outcome res w', doEntryEvent cur outcome w = .ok (res, w') → ∃ ts w₁,
      Trace (fun v t v' => Turn outcome v t v' ∧
        (t.signalled = true ↔
          occupied v.2.qos < watermark v.2.qos ∧ watermark v'.2.qos ≤ occupied v'.2.qos) ∧
        (v'.2.qos.hwCongested = 1 ↔ watermark v'.2.qos ≤ occupied v'.2.qos)) w ts w₁ ∧
      SameScheduler { w₁.2 with qos := { w₁.2.qos with lastStmp := w'.2.qos.lastStmp } } w'.2 := by
  have h₀ : Signals w₀ := by
    refine ⟨⟨?_, ?_, ?_, ?_⟩, hhandler⟩
    · rw [hinit]
      exact ⟨hlim, hlim'⟩
    · rw [hinit]
      rfl
    · rw [hinit]
      exact ⟨by show 0 ≤ limit; omega, le_rfl⟩
    · rw [hinit]
      show (0 : ℤ) = if limit * 80 / 100 ≤ limit - limit then 1 else 0
      rw [if_neg (by omega)]
  have h : Signals w := Trace.inv (P := Signals) (fun _ _ _ h hs => h.step hs.1 hs.2) hr h₀
  constructor
  · rw [h.1.flag]
    simp
  · intro cur outcome res w' hrun
    obtain ⟨ts, w₁, htrace, -, -, hsame, -⟩ := round_turns hrun
    exact ⟨ts, w₁, (h.turns htrace).2, hsame⟩

theorem run_congestion_crowded : ∃ (es : List SchedEvent) (w : World Unit),
    Trace SchedSteps (boot threeEntries [(0, AGING ||| SIP)] ()) es w ∧ es.length = 4 ∧
    (w.2.qos.hwCongested = 1 ↔ watermark w.2.qos ≤ occupied w.2.qos) := by
  obtain ⟨es, w, hr, hlen⟩ : ∃ (es : List SchedEvent) (w : World Unit),
      Trace (fun w e w' => StaysAbove w e ∧ SchedSteps w e w')
        (boot threeEntries [(0, AGING ||| SIP)] ()) es w ∧ es.length = 4 :=
    ⟨[.other, .returnEntry, .round 2000000 (fun _ => ⟨true, 1⟩) _, .round 4000000 (fun _ => ⟨true, 1⟩) _], _,
      .cons (show _ ∧ SchedSteps _ .other crowded from ⟨trivial, queued_crowded, rfl, rfl⟩)
        (.cons ⟨by unfold StaysAbove; decide +kernel, rfl⟩
          (.cons ⟨trivial, ⟨_, rfl⟩, rfl⟩ (.cons ⟨trivial, ⟨_, rfl⟩, rfl⟩ (.nil _)))), rfl⟩
  exact ⟨es, w, hr.mono fun _ _ _ h => h.2, hlen,
    (run_congestion rfl rfl (by decide) (by decide) hr).1⟩

/-- The use reaches the watermark, an entry is returned, and the flag stays set. -/
theorem returned_entry_keeps_flag : ∃ (es : List SchedEvent) (w : World Unit),
    Trace SchedSteps crowded es w ∧ watermark w.2.qos = 2 ∧ occupied w.2.qos = 1 ∧
    w.2.qos.hwCongested = 1 :=
  ⟨[.round 2000000 (fun _ => ⟨true, 1⟩) _, .returnEntry], _,
    .cons ⟨⟨_, rfl⟩, rfl⟩ (.cons rfl (.nil _)), by decide +kernel, by decide +kernel, by decide +kernel⟩

end FlowQoS.Conntrack
