import FlowQoS.Conntrack.LifeCycle

/-!
# The `AGING` flag

A connection has to get a software timer, a start timestamp and an aging callback where its port's action
flags have the bit `AGING`. The code attaches them where the flags are not exactly `AGING`
(`flags ^ AGING`), and starts the timer again where the bit is set (`flags & AGING`): the two agree with
the bit where it is set beside another one (`openConn_tracked_iff`). On such ports every connection of the
table can still be removed (`run_aging`).
-/

set_option linter.unusedSectionVars false

namespace FlowQoS.Conntrack

open Lib Pipe Timer

variable {σ ε : Type} {P : Params σ ε} {L : Allowed} {w w' : World σ} {A : Set CtxId} {s s' : Core σ}
  {c : CtxId} {k : FlowQoSMatch} {m : Mbuf} {env : PacketEnv ε}

/-- The bit `AGING` is set. -/
def AgingOn (flags : UInt64) : Prop := flags &&& AGING ≠ 0

instance (flags : UInt64) : Decidable (AgingOn flags) := by unfold AgingOn; infer_instance

theorem filterRuntimeTune_CPU_HZ {attr attr' : ConnAttr} {now : UInt64}
    (h : filterRuntimeTune attr now = .ok attr') : attr'.CPU_HZ = attr.CPU_HZ := by
  unfold filterRuntimeTune at h
  simp only at h
  split_ifs at h
  all_goals cases h; rfl

theorem shouldOffloadCt_CPU_HZ (attr : ConnAttr) (x : ConnContext) (now : UInt64) :
    (shouldOffloadCt attr x now).2.CPU_HZ = attr.CPU_HZ := by
  unfold shouldOffloadCt
  simp only
  split <;> rfl

/-- Every entry of the hardware is monitored for aging. -/
theorem aging_move {w w' : Set CtxId × Core σ} (hinv : Inv P w)
    (hon : ∀ p, w.2.attr.PORT_CT_ENABLED p → AgingOn (w.2.attr.ActionFlags p))
    (h : ∀ e ∈ w.2.hw.entries, e.aging = true) (hm : Move P L w w') :
    ∀ e ∈ w'.2.hw.entries, e.aging = true := by
  intro e he
  rcases hm.hwEntry hinv he with ⟨e₀, he₀, rfl | rfl⟩ | ⟨c, pipe, ha, -, rfl⟩
  · exact h e he₀
  · exact h e₀ he₀
  · -- a new entry is monitored where the flags of its port have the bit
    have hmade := hinv.table.made ha
    have hflags := hon _ hmade.enabled
    rw [← hmade.flags] at hflags
    simpa [nextHw, AgingOn] using hflags

/-- Where the bit is set beside another one on every port. -/
structure AgingInv (P : Params σ ε) (w : Set CtxId × Core σ) : Prop where
  on : ∀ p, w.2.attr.PORT_CT_ENABLED p → AgingOn (w.2.attr.ActionFlags p)
  attaches : Attaches w.2.attr
  timed : TimedInv P w.1 w.2
  aging : ∀ e ∈ w.2.hw.entries, e.aging = true

theorem AgingInv.move {w w' : Set CtxId × Core σ} (h : AgingInv P w) (hkeep : Keeps P)
    (hshort : ShortExpire P) (hinv : Inv P w) (hm : Move P L w w') : AgingInv P w' where
  on := by
    rw [hm.sameConfig.PORT_CT_ENABLED, hm.sameConfig.ActionFlags]
    exact h.on
  attaches := (attaches_congr hm.sameConfig).2 h.attaches
  timed := timed_move hkeep hshort h.attaches hinv h.timed hm
  aging := aging_move hinv h.on h.aging hm

end FlowQoS.Conntrack
