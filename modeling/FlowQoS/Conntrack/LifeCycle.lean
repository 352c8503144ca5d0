import FlowQoS.Conntrack.Step
import Mathlib.Data.List.Count

/-!
# The life cycle of a connection

Every context that the pool has given away is in the table once, under the match of its own entry, and
its state says where else it is: in software its timer runs; in the scheduler it also waits in one
queue; in the hardware it has one entry and no timer. A context in the pool is in none of these.

This needs a handler of new connections that leaves the match, the pipe and the action flags alone:
`flowQoS_add_entry` takes the flags of the match over from the pipe, and a context whose flags are
exactly `AGING` gets no timer.
-/

set_option linter.unusedSectionVars false

namespace FlowQoS.Conntrack

open Lib Pipe Timer

variable {σ ε : Type} {P : Params σ ε} {w w' : World σ} {A : Set CtxId} {s : Core σ} {c : CtxId}

/-- The number of hardware entries of a context. -/
def hwCount (s : Core σ) (c : CtxId) : ℕ := s.hw.entries.countP fun e => e.user_data == some c

/-- The handler leaves the match of a connection alone. -/
def KeepsMatch (P : Params σ ε) : Prop :=
  ∀ f x e a ret e' a', P.newConn_handler = some f → f x e a = .ok (ret, e', a') → e'.match_ = e.match_

/-- What is true of every context. -/
structure LifeCycle (P : Params σ ε) (w : World σ) : Prop where
  pool : w.2.pool.Nodup ∧ ∀ c ∈ w.2.pool, c < P.maxConntrack
  /-- A context of the pool is in no structure. -/
  free : ∀ c, ¬ Alive P w.2 c → (∀ k, w.2.CT k ≠ some c) ∧ ¬ Armed w.1 c ∧
    (∀ i, c ∉ w.2.qos.buckets i) ∧ hwCount w.2 c = 0
  /-- A context that has been taken is in the table exactly once, under its own match. -/
  stored : ∀ c, Alive P w.2 c → ∀ k, w.2.CT k = some c ↔ k = (w.2.ctx c).entry.match_
  software : ∀ c, Alive P w.2 c → (w.2.ctx c).ct_state = .SW_FWD_STATE →
    Armed w.1 c ∧ (∀ i, c ∉ w.2.qos.buckets i) ∧ hwCount w.2 c = 0
  queued : ∀ c, Alive P w.2 c → (w.2.ctx c).ct_state = .FLOW_QOS_STATE →
    Armed w.1 c ∧ (∀ i, (w.2.qos.buckets i).count c =
      if i = (w.2.ctx c).entry.priority.toNat then 1 else 0) ∧ hwCount w.2 c = 0
  offloaded : ∀ c, Alive P w.2 c → (w.2.ctx c).ct_state = .HW_FWD_STATE →
    ¬ Armed w.1 c ∧ (∀ i, c ∉ w.2.qos.buckets i) ∧ hwCount w.2 c = 1
  /-- Every hardware entry is that of a context. -/
  entries : ∀ e ∈ w.2.hw.entries, ∃ c, e.user_data = some c ∧ Alive P w.2 c ∧
    (w.2.ctx c).entry.entry = some e.handle

theorem hwCount_eq_zero (h : ∀ e ∈ s.hw.entries, e.user_data ≠ some c) : hwCount s c = 0 := by
  unfold hwCount
  rw [List.countP_eq_zero]
  intro e he
  rw [beq_iff_eq]
  exact h e he

/-- A context in the hardware has one entry. -/
theorem HwInv.hwCount_eq_one (h : HwInv P A s) (hat : Attaches s.attr) (ha : Alive P s c)
    (hst : (s.ctx c).ct_state = .HW_FWD_STATE) : hwCount s c = 1 := by
  obtain ⟨-, e, he, hu⟩ := h.offloaded hat ha hst
  have hle : hwCount s c ≤ (s.hw.entries.map HwEntry.handle).count e.handle := by
    unfold hwCount
    rw [List.count_eq_countP, List.countP_map]
    refine List.countP_mono_left fun e' he' hu' => ?_
    rw [beq_iff_eq] at hu'
    have hx := h.handle_eq hat he hu
    rw [h.handle_eq hat he' hu'] at hx
    simpa using Option.some.inj hx
  have hone : (s.hw.entries.map HwEntry.handle).count e.handle = 1 :=
    List.count_eq_one_of_mem h.nodup (List.mem_map_of_mem he)
  have hpos : 0 < hwCount s c := List.countP_pos_iff.2 ⟨e, he, by rw [beq_iff_eq]; exact hu⟩
  omega

/-- The invariants put together. -/
theorem LifeCycle.of_inv (h : Inv P (view w)) (ht : TimedInv P (armedSet w.1) w.2)
    (hat : Attaches w.2.attr) : LifeCycle P w := by
  have hnoQueue : ∀ {c}, Alive P w.2 c → (w.2.ctx c).ct_state ≠ .FLOW_QOS_STATE →
      ∀ i, c ∉ w.2.qos.buckets i :=
    fun _ hst i hm => hst (h.queue.mem.1 hm).2.1
  have hnoHw : ∀ {c}, ¬ (Alive P w.2 c ∧ (w.2.ctx c).ct_state = .HW_FWD_STATE) → hwCount w.2 c = 0 := by
    intro c hst
    refine hwCount_eq_zero fun e he hu => hst ?_
    obtain ⟨c', hu', ha', hst', -⟩ := h.hw.exact hat e he
    rw [hu] at hu'
    cases hu'
    exact ⟨ha', hst'⟩
  refine ⟨⟨h.table.pool_nodup, fun c hc => h.table.pool_lt hc⟩, fun c hc => ⟨fun k hk => ?_, fun hm => ?_,
    fun i hm => ?_, hnoHw fun ha => hc ha.1⟩, fun c ha k => ⟨fun hk => ?_, ?_⟩, fun c ha hst => ⟨?_, ?_, ?_⟩,
    fun c ha hst => ⟨?_, fun i => ?_, ?_⟩, fun c ha hst => ⟨?_, ?_, ?_⟩, fun e he => ?_⟩
  · exact hc (h.table.table hk).1
  · exact hc (h.table.armed hm)
  · exact hc (h.queue.mem.1 hm).1
  · exact (h.table.table hk).2.symm
  · rintro rfl
    exact h.table.stored ha
  · exact ht.armed ha (by simp [hst])
  · exact hnoQueue ha (by simp [hst])
  · exact hnoHw fun hc => by cases hst.symm.trans hc.2
  · exact ht.armed ha (by simp [hst])
  · split
    · next hi => exact List.count_eq_one_of_mem (h.queue.nodup i) (h.queue.mem.2 ⟨ha, hst, hi.symm⟩)
    · next hi => exact List.count_eq_zero_of_not_mem fun hm => hi (h.queue.mem.1 hm).2.2.symm
  · exact hnoHw fun hc => by cases hst.symm.trans hc.2
  · exact (h.hw.offloaded hat ha hst).1
  · exact hnoQueue ha (by simp [hst])
  · exact h.hw.hwCount_eq_one hat ha hst
  · obtain ⟨c, hu, ha, -, -, hx⟩ := h.hw.exact hat e he
    exact ⟨c, hu, ha, hx⟩

/-- **The life cycle of a connection.** In every state of every run, in both modes: where the action
flags of no port are exactly `AGING`, the wheel can hold the expire times, and the handler of new
connections leaves the match, the pipe and the flags of an entry alone. -/
theorem run_lifeCycle (P : Params σ ε) {a : InitArgs} (ha : a.maxConntrack = P.maxConntrack)
    {ports : List (ℕ × UInt64)} (hports : ∀ p ∈ ports, p.2 ≠ AGING) (hkeep : Keeps P)
    (hshort : ShortExpire P) (app : σ) {es : List (Event σ ε)} (hr : Runs P (boot a ports app) es w) :
    LifeCycle P w := by
  have hat : Attaches (boot a ports app).2.attr := fun p hp => hports _ (boot_ports a ports app hp)
  have hnot := boot_not_alive (P := P) ha ports app
  have hQ : TimedInv P (view (boot a ports app)).1 (view (boot a ports app)).2 ∧
      Attaches (view (boot a ports app)).2.attr :=
    ⟨⟨fun hc => absurd hc (hnot _), fun hc => absurd hc (hnot _)⟩, hat⟩
  obtain ⟨hinv, ht, hat'⟩ := Runs.inv (Q := fun w => TimedInv P w.1 w.2 ∧ Attaches w.2.attr)
    (fun w w' _ hinv hq hm => ⟨timed_move hkeep hshort hq.2 hinv hq.1 hm,
      (attaches_congr hm.sameConfig).2 hq.2⟩)
    (worldInv_boot ha ports app (.inr ⟨hkeep, hat⟩)) hQ hr
  exact .of_inv hinv.inv ht hat'

section Example

theorem run_lifeCycle_accepting : ∃ w, Runs (accepting id) (boot oneEntry [(0, AGING ||| SIP)] 0)
    [.packet (packetOf L4_TCP) (offloads 0), .tick 1, .packet (packetOf L4_UDP) (offloads 1),
      .aging fun _ => [(0, true)]] w ∧ LifeCycle (accepting id) w := by
  obtain ⟨w, hw⟩ : ∃ w, Runs (accepting id) (boot oneEntry [(0, AGING ||| SIP)] 0)
      [.packet (packetOf L4_TCP) (offloads 0), .tick 1, .packet (packetOf L4_UDP) (offloads 1),
        .aging fun _ => [(0, true)]] w :=
    ⟨_, .cons ⟨by decide, rfl⟩ (.cons ⟨by decide, rfl⟩ (.cons ⟨by decide +kernel, rfl⟩
      (.cons ⟨by decide +kernel, rfl⟩ (.nil _))))⟩
  exact ⟨w, hw, run_lifeCycle (accepting id) rfl (by decide) keepsAll_accepting.keeps
    (shortExpire_accepting fun _ => rfl) 0 hw⟩

/-- The handler moves the connections of port 0 to the pipe of its UDP connections. -/
def redirect : FlowQoSEntry → FlowQoSEntry := fun e =>
  { e with pipe := some (buildPipe 0 (SIP ||| DIP ||| UDP ||| SPORT ||| DPORT) (AGING ||| SIP)) }

/-- The handler drops every action but the aging. -/
def strip : FlowQoSEntry → FlowQoSEntry := fun e => { e with action := { e.action with flags := AGING } }

theorem keepsMatch_accepting {change : FlowQoSEntry → FlowQoSEntry}
    (h : ∀ e, (change e).match_ = e.match_) : KeepsMatch (accepting change) := by
  intro f x e a ret e' a' hf hr
  cases hf
  cases hr
  exact h e

/-- A handler that leaves the match alone is not enough: with another pipe, the key in the table is not
the match any more; with other flags, no timer runs. -/
theorem keepsMatch_not_lifeCycle :
    (KeepsMatch (accepting redirect) ∧ ShortExpire (accepting redirect) ∧
      ∃ w, Runs (accepting redirect) (boot oneEntry [(0, AGING ||| SIP)] 0)
        [.packet (packetOf L4_TCP) (offloads 0)] w ∧ ¬ LifeCycle (accepting redirect) w) ∧
    KeepsMatch (accepting strip) ∧ ShortExpire (accepting strip) ∧
      ∃ w, Runs (accepting strip) (boot { oneEntry with maxOffloadedEntry := 0 } [(0, AGING ||| SIP)] 0)
        [.packet (packetOf L4_TCP) (offloads 0)] w ∧ ¬ LifeCycle (accepting strip) w := by
  refine ⟨⟨keepsMatch_accepting fun _ => rfl, shortExpire_accepting fun _ => rfl, _,
    .cons ⟨by decide, rfl⟩ (.nil _), fun h => ?_⟩, keepsMatch_accepting fun _ => rfl,
    shortExpire_accepting fun _ => rfl, _, .cons ⟨by decide, rfl⟩ (.nil _), fun h => ?_⟩
  · have hkey := (h.stored 0 ⟨by decide, by decide +kernel⟩ _).2 rfl
    revert hkey
    decide +kernel
  · have harmed := (h.software 0 ⟨by decide, by decide +kernel⟩ rfl).1
    revert harmed
    decide +kernel

end Example

end FlowQoS.Conntrack
