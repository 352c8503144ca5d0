import FlowQoS.Conntrack.Invariant
import Mathlib.Data.List.Nodup

/-!
# The queues and the hardware entries under the moves

What a move does to the priority queues and to the hardware keeps `QueueInv` and `HwInv`.

* `QueueInv.drop`, `QueueInv.enqueue`: a context leaves or enters the queues;
* `HwInv.install`, `HwInv.expireSw`, `HwInv.expireHw`: a context enters or leaves the hardware.
-/

set_option linter.unusedSectionVars false

namespace FlowQoS.Conntrack

open Pipe Timer

variable {σ ε : Type} {P : Params σ ε} {A A' : Set CtxId} {s s' : Core σ} {c c' : CtxId}
  {k : FlowQoSMatch}

/-! ### The queues -/

/-- What the scheduler reads of a context. -/
def SameQueue (x x' : ConnContext) : Prop :=
  x'.ct_state = x.ct_state ∧ x'.entry.priority = x.entry.priority ∧
    x'.entry.flowQoS_qosHandler = x.entry.flowQoS_qosHandler ∧ x'.entry.flowQoS_args = x.entry.flowQoS_args

theorem QueueInv.congr (h : QueueInv P s) (hpool : s'.pool.Perm s.pool)
    (hen : s'.attr.ENABLE_FLOWQOS = s.attr.ENABLE_FLOWQOS) (hb : s'.qos.buckets = s.qos.buckets)
    (hctx : ∀ c, SameQueue (s.ctx c) (s'.ctx c)) : QueueInv P s' where
  nodup i := by
    rw [hb]
    exact h.nodup i
  mem {c i} := by
    obtain ⟨h1, h2, -⟩ := hctx c
    rw [hb, alive_congr hpool, h1, h2]
    exact h.mem
  queued {c} ha hst := by
    obtain ⟨h1, -, h3, h4⟩ := hctx c
    rw [hen, h3, h4]
    exact h.queued ((alive_congr hpool).1 ha) (h1 ▸ hst)

/-- A context is in no queue any more, and was in one at most; the others stay. -/
theorem QueueInv.drop (h : QueueInv P s) (hen : s'.attr.ENABLE_FLOWQOS = s.attr.ENABLE_FLOWQOS)
    (hb : ∀ i, s'.qos.buckets i = (s.qos.buckets i).erase c)
    (hne : ∀ c', c' ≠ c → (Alive P s' c' ↔ Alive P s c') ∧ SameQueue (s.ctx c') (s'.ctx c'))
    (hout : ¬ (Alive P s' c ∧ (s'.ctx c).ct_state = .FLOW_QOS_STATE)) : QueueInv P s' where
  nodup i := by
    rw [hb]
    exact (h.nodup i).erase c
  mem {c' i} := by
    rw [hb, (h.nodup i).mem_erase_iff, h.mem]
    by_cases heq : c' = c
    · subst heq
      tauto
    · obtain ⟨ha, h1, h2, -⟩ := hne c' heq
      rw [ha, h1, h2]
      tauto
  queued {c'} ha hst := by
    have heq : c' ≠ c := by
      rintro rfl
      exact hout ⟨ha, hst⟩
    obtain ⟨ha', h1, -, h3, h4⟩ := hne c' heq
    rw [hen, h3, h4]
    exact h.queued (ha'.1 ha) (h1 ▸ hst)

/-- A context that is not in a queue: dropping it changes nothing. -/
theorem QueueInv.erase_eq (h : QueueInv P s)
    (hout : ¬ (Alive P s c ∧ (s.ctx c).ct_state = .FLOW_QOS_STATE)) (i : ℕ) :
    s.qos.buckets i = (s.qos.buckets i).erase c := by
  refine (List.erase_of_not_mem fun hm => hout ?_).symm
  obtain ⟨ha, hst, -⟩ := h.mem.1 hm
  exact ⟨ha, hst⟩

/-- `flowQoS_del_entry_event` takes the context out of its queue. -/
theorem QueueInv.delEntryEvent (h : QueueInv P s) {b : ℕ → List CtxId} (hb : b = s.qos.buckets) {p : ℕ}
    (hp : c ∈ b p) (i : ℕ) : Function.update b p ((b p).erase c) i = (s.qos.buckets i).erase c := by
  subst hb
  by_cases hi : i = p
  · subst hi
    rw [Function.update_self]
  · rw [Function.update_of_ne hi]
    refine (List.erase_of_not_mem fun hm => hi ?_).symm
    exact (h.mem.1 hm).2.2.symm.trans (h.mem.1 hp).2.2

theorem enqueueConn_ctx (s : Core σ) (c : CtxId) : (enqueueConn s c).ctx = Function.update s.ctx c
    { s.ctx c with
      entry := { (s.ctx c).entry with
        flowQoS_qosHandler := some .flowQoS_qosHandler
        flowQoS_args := some c
        priority := (s.ctx c).entry.priority % 4 }
      ct_state := .FLOW_QOS_STATE } := by
  simp [enqueueConn, addEntryEvent, Core.setCtx]

theorem QueueInv.enqueue (h : QueueInv P s) (hc : Alive P s c)
    (hst : (s.ctx c).ct_state = .SW_FWD_STATE) (hen : s.attr.ENABLE_FLOWQOS) :
    QueueInv P (enqueueConn s c) := by
  set p := ((s.ctx c).entry.priority % 4).toNat with hp
  have hb : (enqueueConn s c).qos.buckets =
      Function.update s.qos.buckets p (s.qos.buckets p ++ [c]) := rfl
  have hnot : ∀ i, c ∉ s.qos.buckets i := by
    intro i hm
    rw [h.mem, hst] at hm
    cases hm.2.1
  refine ⟨fun i => ?_, fun {c' i} => ?_, fun {c'} ha hst' => ?_⟩
  · rw [hb]
    by_cases hi : i = p
    · rw [hi, Function.update_self, List.nodup_append]
      refine ⟨h.nodup p, List.nodup_singleton c, ?_⟩
      rintro a ha b hb rfl
      rw [List.mem_singleton] at hb
      exact hnot p (hb ▸ ha)
    · rw [Function.update_of_ne hi]
      exact h.nodup i
  · rw [hb, enqueueConn_ctx]
    have ha : Alive P (enqueueConn s c) c' ↔ Alive P s c' := Iff.rfl
    rw [ha]
    by_cases heq : c' = c
    · subst heq
      rw [Function.update_self]
      simp only [hc, true_and]
      by_cases hi : i = p
      · rw [hi, Function.update_self]
        simp [hp]
      · rw [Function.update_of_ne hi]
        exact ⟨fun hm => absurd hm (hnot i), fun hm => absurd (hm.symm.trans hp.symm) hi⟩
    · rw [Function.update_of_ne heq, ← h.mem]
      by_cases hi : i = p
      · rw [hi, Function.update_self, List.mem_append, List.mem_singleton]
        tauto
      · rw [Function.update_of_ne hi]
  · rw [enqueueConn_ctx] at hst' ⊢
    refine ⟨hen, ?_⟩
    by_cases heq : c' = c
    · subst heq
      rw [Function.update_self]
      exact ⟨rfl, rfl⟩
    · rw [Function.update_of_ne heq] at hst' ⊢
      exact (h.queued ha hst').2

/-! ### The hardware -/

/-- What the aging of a context reads of its entry. -/
def SameAging (x x' : ConnContext) : Prop :=
  x'.entry.action.flags = x.entry.action.flags ∧ x'.entry.cb = x.entry.cb ∧
    x'.entry.cb_args = x.entry.cb_args ∧ x'.entry.expireTime = x.entry.expireTime ∧
    x'.entry.entry = x.entry.entry ∧ (x'.ct_state = .HW_FWD_STATE ↔ x.ct_state = .HW_FWD_STATE)

theorem SameAging.refl (x : ConnContext) : SameAging x x := ⟨rfl, rfl, rfl, rfl, rfl, Iff.rfl⟩

/-- The same entries, but for the marks of those that have been reported. -/
structure SameHw (hw hw' : Hardware) : Prop where
  next : hw'.next = hw.next
  handles : hw'.entries.map HwEntry.handle = hw.entries.map HwEntry.handle
  old : ∀ e' ∈ hw'.entries, ∃ e ∈ hw.entries, e.handle = e'.handle ∧ e.user_data = e'.user_data
  new : ∀ e ∈ hw.entries, ∃ e' ∈ hw'.entries, e'.handle = e.handle ∧ e'.user_data = e.user_data

theorem SameHw.refl (hw : Hardware) : SameHw hw hw :=
  ⟨rfl, rfl, fun e he => ⟨e, he, rfl, rfl⟩, fun e he => ⟨e, he, rfl, rfl⟩⟩

theorem sameHw_report (hw : Hardware) (hs : List Handle) : SameHw hw (hw.report hs) := by
  set f : HwEntry → HwEntry := fun e => if e.handle ∈ hs then { e with reported := true } else e with hf
  have hsame : ∀ e, (f e).handle = e.handle ∧ (f e).user_data = e.user_data := by
    intro e
    rw [hf]
    by_cases he : e.handle ∈ hs
    · simp only [if_pos he, and_self]
    · simp only [if_neg he, and_self]
  refine ⟨rfl, ?_, fun e' he' => ?_, fun e he => ?_⟩
  · show (hw.entries.map f).map HwEntry.handle = _
    rw [List.map_map]
    exact List.map_congr_left fun e _ => (hsame e).1
  · obtain ⟨e, he, rfl⟩ := List.mem_map.1 he'
    exact ⟨e, he, (hsame e).1.symm, (hsame e).2.symm⟩
  · exact ⟨f e, List.mem_map_of_mem he, hsame e⟩

theorem HwInv.congr (h : HwInv P A s) (hattr : SameConfig s.attr s'.attr) (hpool : s'.pool.Perm s.pool)
    (hhw : SameHw s.hw s'.hw) (hctx : ∀ c, SameAging (s.ctx c) (s'.ctx c))
    (hA : ∀ {c}, (s.ctx c).ct_state = .HW_FWD_STATE → c ∉ A → c ∉ A') : HwInv P A' s' where
  nodup := by
    rw [hhw.handles]
    exact h.nodup
  lt e' he' := by
    obtain ⟨e, he, hh, -⟩ := hhw.old e' he'
    rw [hhw.next, ← hh]
    exact h.lt e he
  cb {c} ha hf := by
    obtain ⟨h1, h2, h3, h4, -⟩ := hctx c
    rw [h2, h3, h4]
    exact h.cb ((alive_congr hpool).1 ha) (h1 ▸ hf)
  cb_none hk {c} ha hf := by
    obtain ⟨h1, h2, -⟩ := hctx c
    rw [h2]
    exact h.cb_none hk ((alive_congr hpool).1 ha) (h1 ▸ hf)
  entry_lt hk {c x} hx := by
    obtain ⟨-, -, -, -, h5, -⟩ := hctx c
    rw [hhw.next]
    exact h.entry_lt hk (h5 ▸ hx)
  own hk {c e'} he' hx hcb := by
    obtain ⟨-, h2, -, -, h5, h6⟩ := hctx c
    obtain ⟨e, he, hh, -⟩ := hhw.old e' he'
    obtain ⟨ha, hst, hnA⟩ := h.own hk he (by rw [hh, ← h5]; exact hx) (h2 ▸ hcb)
    exact ⟨(alive_congr hpool).2 ha, h6.2 hst, hA hst hnA⟩
  exact hat e' he' := by
    obtain ⟨e, he, hh, hu⟩ := hhw.old e' he'
    obtain ⟨c, hc, ha, hst, hnA, hx⟩ := h.exact ((attaches_congr hattr).1 hat) e he
    obtain ⟨-, -, -, -, h5, h6⟩ := hctx c
    refine ⟨c, hu ▸ hc, (alive_congr hpool).2 ha, h6.2 hst, hA hst hnA, ?_⟩
    rw [h5, hx, hh]
  offloaded hat {c} ha hst := by
    obtain ⟨-, -, -, -, -, h6⟩ := hctx c
    obtain ⟨hnA, e, he, hu⟩ :=
      h.offloaded ((attaches_congr hattr).1 hat) ((alive_congr hpool).1 ha) (h6.1 hst)
    obtain ⟨e', he', -, hu'⟩ := hhw.new e he
    exact ⟨hA (h6.1 hst) hnA, e', he', hu'.trans hu⟩

theorem setEntry_ctx (s : Core σ) (c : CtxId) (h : Option Handle) (hw : Hardware) :
    (s.setEntry c h hw).ctx = Function.update s.ctx c
      { s.ctx c with entry := { (s.ctx c).entry with entry := h } } := rfl

/-- A context outside of the hardware gets a handle of no entry. -/
theorem HwInv.addFail (h : HwInv P A s) (hst : (s.ctx c).ct_state ≠ .HW_FWD_STATE)
    (hs' : s' = s.setEntry c none s.hw ∨
      s' = s.setEntry c (some s.hw.next) { s.hw with next := s.hw.next + 1 }) : HwInv P A s' := by
  obtain ⟨x, n, hn, hx, rfl⟩ : ∃ x n, s.hw.next ≤ n ∧ (∀ y, x = some y → s.hw.next ≤ y ∧ y < n) ∧
      s' = s.setEntry c x { s.hw with next := n } := by
    rcases hs' with rfl | rfl
    · exact ⟨none, s.hw.next, Nat.le_refl _, fun _ hy => absurd hy (Option.some_ne_none _).symm, rfl⟩
    · refine ⟨some s.hw.next, s.hw.next + 1, Nat.le_succ _, fun y hy => ?_, rfl⟩
      cases hy
      exact ⟨Nat.le_refl _, Nat.lt_succ_self _⟩
  set s' := s.setEntry c x { s.hw with next := n } with hs'
  have hne : ∀ c', c' ≠ c → s'.ctx c' = s.ctx c' := fun c' hc' => Function.update_of_ne hc' _ _
  have hself : s'.ctx c = { s.ctx c with entry := { (s.ctx c).entry with entry := x } } :=
    Function.update_self _ _ _
  have hsame : ∀ c', (s'.ctx c').entry.action = (s.ctx c').entry.action ∧
      (s'.ctx c').entry.cb = (s.ctx c').entry.cb ∧ (s'.ctx c').entry.cb_args = (s.ctx c').entry.cb_args ∧
      (s'.ctx c').entry.expireTime = (s.ctx c').entry.expireTime ∧
      (s'.ctx c').ct_state = (s.ctx c').ct_state := by
    intro c'
    by_cases hc : c' = c
    · rw [hc, hself]
      exact ⟨rfl, rfl, rfl, rfl, rfl⟩
    · rw [hne c' hc]
      exact ⟨rfl, rfl, rfl, rfl, rfl⟩
  have hstay : ∀ c', (s.ctx c').ct_state = .HW_FWD_STATE → s'.ctx c' = s.ctx c' :=
    fun c' hc' => hne c' fun he => hst (he ▸ hc')
  refine ⟨h.nodup, fun e he => Nat.lt_of_lt_of_le (h.lt e he) hn, fun {c'} ha hf => ?_,
    fun hk {c'} ha hf => ?_, fun hk {c' y} hy => ?_, fun hk {c' e} he hy hcb => ?_, fun hat e he => ?_,
    fun hat {c'} ha hs => ?_⟩
  · obtain ⟨h1, h2, h3, h4, -⟩ := hsame c'
    rw [h1] at hf
    rw [h2, h3, h4]
    exact h.cb ha hf
  · obtain ⟨h1, h2, -⟩ := hsame c'
    rw [h1] at hf
    rw [h2]
    exact h.cb_none hk ha hf
  · by_cases hc : c' = c
    · rw [hc, hself] at hy
      exact (hx y hy).2
    · rw [hne c' hc] at hy
      exact Nat.lt_of_lt_of_le (h.entry_lt hk hy) hn
  · by_cases hc : c' = c
    · -- the handle is not one of the hardware
      rw [hc, hself] at hy
      exact absurd (h.lt e he) (Nat.not_lt.2 (hx _ hy).1)
    · rw [hne c' hc] at hy hcb ⊢
      exact h.own hk he hy hcb
  · obtain ⟨c', hu, ha, hs, hnA, hy⟩ := h.exact hat e he
    refine ⟨c', hu, ha, ?_, hnA, ?_⟩
    · rw [hstay c' hs]
      exact hs
    · rw [hstay c' hs]
      exact hy
  · rw [(hsame c').2.2.2.2] at hs
    exact h.offloaded hat ha hs

/-- A context goes to the hardware. -/
theorem HwInv.install (h : HwInv P A s) (hc : Alive P s c) {pipe : FlowQoSPipe}
    (hst : (s.ctx c).ct_state ≠ .HW_FWD_STATE) (hattr : SameConfig s.attr s'.attr)
    (hat : Attaches s.attr → (s.ctx c).entry.action.flags ≠ AGING) (hpool : s'.pool = s.pool)
    (hhw : s'.hw = { entries := s.hw.entries ++ [nextHw s c pipe], next := s.hw.next + 1 })
    (hctx : s'.ctx = Function.update s.ctx c { s.ctx c with
      entry := { (s.ctx c).entry with entry := some s.hw.next }
      ct_state := .HW_FWD_STATE }) (hA : A' = disarm A s c) : HwInv P A' s' := by
  have halive : ∀ c', Alive P s' c' ↔ Alive P s c' := by
    intro c'
    unfold Alive
    rw [hpool]
  have hne : ∀ c', c' ≠ c → s'.ctx c' = s.ctx c' := by
    intro c' hc'
    rw [hctx]
    exact Function.update_of_ne hc' _ _
  have hself : s'.ctx c = { s.ctx c with
      entry := { (s.ctx c).entry with entry := some s.hw.next }
      ct_state := .HW_FWD_STATE } := by
    rw [hctx]
    exact Function.update_self _ _ _
  have hstay : ∀ c', (s.ctx c').ct_state = .HW_FWD_STATE → s'.ctx c' = s.ctx c' :=
    fun c' hc' => hne c' fun he => hst (he ▸ hc')
  have hsub : ∀ c', c' ∉ A → c' ∉ A' := by
    intro c' hnA hm
    rw [hA] at hm
    exact hnA hm.1
  have hoff : (s.ctx c).entry.action.flags ≠ AGING → c ∉ A' := by
    intro hf hm
    rw [hA] at hm
    exact hm.2 ⟨rfl, hf⟩
  have hmem : ∀ e, e ∈ s'.hw.entries ↔ e ∈ s.hw.entries ∨ e = nextHw s c pipe := by
    intro e
    rw [hhw, List.mem_append, List.mem_singleton]
  have huser : (s.ctx c).entry.action.flags ≠ AGING → (nextHw s c pipe).user_data = some c := by
    intro hf
    obtain ⟨-, -, hexp⟩ := h.cb hc hf
    exact if_pos (UInt64.pos_iff_ne_zero.2 hexp)
  refine ⟨?_, fun e he => ?_, fun {c'} ha hf => ?_, fun hk {c'} ha hf => ?_, fun hk {c' y} hy => ?_,
    fun hk {c' e} he hy hcb => ?_, fun hat' e he => ?_, fun hat' {c'} ha hs => ?_⟩
  · rw [hhw, List.map_append, List.nodup_append]
    refine ⟨h.nodup, List.nodup_singleton _, ?_⟩
    rintro x hx y hy rfl
    obtain ⟨e, he, rfl⟩ := List.mem_map.1 hx
    rw [List.map_singleton, List.mem_singleton] at hy
    exact absurd (h.lt e he) (by rw [hy]; exact Nat.lt_irrefl _)
  · rw [hhw]
    rcases (hmem e).1 he with he | rfl
    · exact Nat.lt_succ_of_lt (h.lt e he)
    · exact Nat.lt_succ_self _
  · by_cases heq : c' = c
    · rw [heq, hself] at hf ⊢
      exact h.cb hc hf
    · rw [hne c' heq] at hf ⊢
      exact h.cb ((halive c').1 ha) hf
  · by_cases heq : c' = c
    · rw [heq, hself] at hf ⊢
      exact h.cb_none hk hc hf
    · rw [hne c' heq] at hf ⊢
      exact h.cb_none hk ((halive c').1 ha) hf
  · rw [hhw]
    by_cases heq : c' = c
    · rw [heq, hself] at hy
      cases hy
      exact Nat.lt_succ_self _
    · rw [hne c' heq] at hy
      exact Nat.lt_succ_of_lt (h.entry_lt hk hy)
  · by_cases heq : c' = c
    · subst heq
      rw [hself] at hcb
      have hf : (s.ctx c').entry.action.flags ≠ AGING := by
        intro hf
        rw [h.cb_none hk hc hf] at hcb
        cases hcb
      exact ⟨(halive c').2 hc, by rw [hself], hoff hf⟩
    · rw [hne c' heq] at hy hcb ⊢
      rcases (hmem e).1 he with he | rfl
      · obtain ⟨ha, hs, hnA⟩ := h.own hk he hy hcb
        exact ⟨(halive c').2 ha, hs, hsub c' hnA⟩
      · exact absurd (h.entry_lt hk hy) (Nat.lt_irrefl _)
  · rw [attaches_congr hattr] at hat'
    rcases (hmem e).1 he with he | rfl
    · obtain ⟨c', hu, ha, hs, hnA, hy⟩ := h.exact hat' e he
      refine ⟨c', hu, (halive c').2 ha, ?_, hsub c' hnA, ?_⟩
      · rw [hstay c' hs]
        exact hs
      · rw [hstay c' hs]
        exact hy
    · exact ⟨c, huser (hat hat'), (halive c).2 hc, by rw [hself], hoff (hat hat'), by rw [hself]; rfl⟩
  · rw [attaches_congr hattr] at hat'
    by_cases heq : c' = c
    · subst heq
      exact ⟨hoff (hat hat'), nextHw s c' pipe, (hmem _).2 (.inr rfl), huser (hat hat')⟩
    · rw [hne c' heq] at hs
      obtain ⟨hnA, e, he, hu⟩ := h.offloaded hat' ((halive c').1 ha) hs
      exact ⟨hsub c' hnA, e, (hmem e).2 (.inl he), hu⟩

/-- A context is taken from the pool and filled. -/
theorem HwInv.opened (h : HwInv P A s) (ht : TableInv P A s) {m : Mbuf} {e e' : FlowQoSEntry} {ret : ℤ}
    {app : σ} {tsc : UInt64} (hask : Asked P s m e ret e' app) (hret : 0 ≤ ret)
    (hc : c ∈ s.pool) (hA : ∀ c' ∈ A', c' ∈ A ∨ c' = c) :
    HwInv P A' ((s.accept m.port e.match_ app).insert c e' ⟨s.accepted, m.port⟩ tsc) := by
  set s' := (s.accept m.port e.match_ app).insert c e' ⟨s.accepted, m.port⟩ tsc with hs'
  have halive : ∀ c', Alive P s' c' ↔ Alive P s c' ∨ c' = c :=
    fun c' => alive_erase ht.pool_nodup hc (ht.pool_lt hc) rfl
  have hself : s'.ctx c = (s.ctx c).fill c e' tsc := Function.update_self _ _ _
  have hne : ∀ c', c' ≠ c → s'.ctx c' = s.ctx c' := fun c' hne => Function.update_of_ne hne _ _
  have hnew : ∀ c', Alive P s c' → c' ≠ c := fun c' ha he => ha.2 (he ▸ hc)
  have hflags : (s'.ctx c).entry.action.flags = e'.action.flags := by rw [hself, fill_entry.1.2.2]
  have hall : KeepsAll P → e'.entry = none ∧ e'.cb = none := by
    intro hk
    obtain ⟨f, x, hf, hr⟩ := hask.handler
    obtain ⟨-, -, -, h4, h5⟩ := hk f x e s.app ret e' app hf hr hret
    obtain ⟨-, h6, h7, -⟩ := made_parsed ht.conf hask.enabled hask.parsed
    exact ⟨h4.trans h6, h5.trans h7⟩
  have hstay : ∀ c', Alive P s c' → c' ∉ A → c' ∉ A' := by
    intro c' ha hnA hm
    rcases hA c' hm with hm | rfl
    · exact hnA hm
    · exact ha.2 hc
  refine ⟨h.nodup, h.lt, fun {c'} ha hf => ?_, fun hk {c'} ha hf => ?_, fun hk {c' y} hy => ?_,
    fun hk {c' x} hx hy hcb => ?_, fun hat x hx => ?_, fun hat {c'} ha hs => ?_⟩
  · rcases (halive c').1 ha with ha | rfl
    · rw [hne c' (hnew c' ha)] at hf ⊢
      exact h.cb ha hf
    · rw [hflags] at hf
      rw [hself, fill_attached hf]
      refine ⟨rfl, rfl, ?_⟩
      show (if e'.expireTime = 0 then (10 : UInt64) else e'.expireTime) ≠ 0
      split
      · decide
      · next hz => exact hz
  · rcases (halive c').1 ha with ha | rfl
    · rw [hne c' (hnew c' ha)] at hf ⊢
      exact h.cb_none hk ha hf
    · rw [hflags] at hf
      rw [hself, fill_not_attached hf]
      exact (hall hk).2
  · by_cases heq : c' = c
    · rw [heq, hself, fill_entry.2, (hall hk).1] at hy
      cases hy
    · rw [hne c' heq] at hy
      exact h.entry_lt hk hy
  · by_cases heq : c' = c
    · rw [heq, hself, fill_entry.2, (hall hk).1] at hy
      cases hy
    · rw [hne c' heq] at hy hcb ⊢
      obtain ⟨ha, hs, hnA⟩ := h.own hk hx hy hcb
      exact ⟨(halive c').2 (.inl ha), hs, hstay c' ha hnA⟩
  · obtain ⟨c', hu, ha, hs, hnA, hy⟩ := h.exact hat x hx
    refine ⟨c', hu, (halive c').2 (.inl ha), ?_, hstay c' ha hnA, ?_⟩
    · rw [hne c' (hnew c' ha)]
      exact hs
    · rw [hne c' (hnew c' ha)]
      exact hy
  · rcases (halive c').1 ha with ha | rfl
    · rw [hne c' (hnew c' ha)] at hs
      obtain ⟨hnA, x, hx, hu⟩ := h.offloaded hat ha hs
      exact ⟨hstay c' ha hnA, x, hx, hu⟩
    · rw [hself, fill_state] at hs
      cases hs

/-- A context goes back to the pool, and with it the hardware entry that was its own. -/
theorem HwInv.release (h : HwInv P A s) (hattr : SameConfig s.attr s'.attr)
    (hpool : s'.pool = c :: s.pool) (hctx : s'.ctx = s.ctx) (hnext : s'.hw.next = s.hw.next)
    (hsub : s'.hw.entries.Sublist s.hw.entries) (hA : ∀ c' ∈ A', c' ∈ A)
    (hown : KeepsAll P → ∀ e ∈ s'.hw.entries, (s.ctx c).entry.entry = some e.handle →
      (s.ctx c).entry.cb = none)
    (huser : Attaches s.attr → ∀ e ∈ s'.hw.entries, e.user_data ≠ some c)
    (hkeep : Attaches s.attr → ∀ e ∈ s.hw.entries, e.user_data ≠ some c → e ∈ s'.hw.entries) :
    HwInv P A' s' := by
  have halive : ∀ c', Alive P s' c' ↔ Alive P s c' ∧ c' ≠ c := fun c' => alive_cons hpool
  have hmem := hsub.subset
  refine ⟨h.nodup.sublist (hsub.map _), fun e he => ?_, fun {c'} ha hf => ?_, fun hk {c'} ha hf => ?_,
    fun hk {c' y} hy => ?_, fun hk {c' e} he hy hcb => ?_, fun hat e he => ?_, fun hat {c'} ha hs => ?_⟩
  · rw [hnext]
    exact h.lt e (hmem he)
  · rw [hctx] at hf ⊢
    exact h.cb ((halive c').1 ha).1 hf
  · rw [hctx] at hf ⊢
    exact h.cb_none hk ((halive c').1 ha).1 hf
  · rw [hctx] at hy
    rw [hnext]
    exact h.entry_lt hk hy
  · rw [hctx] at hy hcb ⊢
    obtain ⟨ha, hs, hnA⟩ := h.own hk (hmem he) hy hcb
    refine ⟨(halive c').2 ⟨ha, ?_⟩, hs, fun hm => hnA (hA c' hm)⟩
    rintro rfl
    rw [hown hk e he hy] at hcb
    cases hcb
  · rw [attaches_congr hattr] at hat
    obtain ⟨c', hu, ha, hs, hnA, hy⟩ := h.exact hat e (hmem he)
    rw [hctx]
    refine ⟨c', hu, (halive c').2 ⟨ha, ?_⟩, hs, fun hm => hnA (hA c' hm), hy⟩
    rintro rfl
    exact huser hat e he hu
  · rw [attaches_congr hattr] at hat
    obtain ⟨ha, hne⟩ := (halive c').1 ha
    rw [hctx] at hs
    obtain ⟨hnA, e, he, hu⟩ := h.offloaded hat ha hs
    refine ⟨fun hm => hnA (hA c' hm), e, hkeep hat e he ?_, hu⟩
    rw [hu]
    exact fun heq => hne (Option.some.inj heq)

/-- The timer of the context has fired: no hardware entry is its own. -/
theorem HwInv.expireSw (h : HwInv P A s) (hc : c ∈ A) (hattr : SameConfig s.attr s'.attr)
    (hpool : s'.pool = c :: s.pool) (hctx : s'.ctx = s.ctx) (hhw : s'.hw = s.hw) :
    HwInv P (A \ {c}) s' := by
  refine h.release hattr hpool hctx (by rw [hhw]) (by rw [hhw]) (fun c' hm => hm.1)
    (fun hk e he hy => ?_) (fun hat e he hu => ?_) (fun _ e he _ => by rw [hhw]; exact he)
  · rw [hhw] at he
    by_contra hcb
    exact (h.own hk he hy (Option.isSome_iff_ne_none.2 hcb)).2.2 hc
  · rw [hhw] at he
    obtain ⟨c', hu', -, -, hnA, -⟩ := h.exact hat e he
    rw [hu] at hu'
    cases hu'
    exact hnA hc

theorem HwInv.handle_inj (h : HwInv P A s) {e e' : HwEntry} (he : e ∈ s.hw.entries)
    (he' : e' ∈ s.hw.entries) (heq : e.handle = e'.handle) : e = e' :=
  List.inj_on_of_nodup_map h.nodup he he' heq

/-- The entries of a context have its handle. -/
theorem HwInv.handle_eq (h : HwInv P A s) (hat : Attaches s.attr) {e : HwEntry} (he : e ∈ s.hw.entries)
    (hu : e.user_data = some c) : (s.ctx c).entry.entry = some e.handle := by
  obtain ⟨c', hu', -, -, -, hx⟩ := h.exact hat e he
  rw [hu] at hu'
  cases hu'
  exact hx

/-- The context whose entry has been reported and removed, with its callback. -/
theorem HwInv.reported (h : HwInv P A s) (ht : TableInv P A s) (hok : HandlerOk P s.attr) {e : HwEntry}
    (hmem : Attaches s.attr → e ∈ s.hw.entries) (hu : e.user_data = some c) {ok : Bool} {hw : Hardware}
    (hrm : s.hw.rmEntry (s.ctx c).entry.entry ok = some hw) (hcb : (s.ctx c).entry.cb.isSome) :
    Alive P s c ∧ (s.ctx c).ct_state = .HW_FWD_STATE ∧ c ∉ A ∧ (s.ctx c).entry.cb_args = some c := by
  obtain ⟨y, hy, ⟨e', he', rfl⟩, -⟩ := rmEntry_some hrm
  rcases hok with hk | ⟨-, hat⟩
  · obtain ⟨ha, hs, hnA⟩ := h.own hk he' hy hcb
    refine ⟨ha, hs, hnA, (h.cb ha fun hf => ?_).2.1⟩
    rw [h.cb_none hk ha hf] at hcb
    cases hcb
  · obtain ⟨c', hu', ha, hs, hnA, -⟩ := h.exact hat e (hmem hat)
    rw [hu] at hu'
    cases hu'
    refine ⟨ha, hs, hnA, (h.cb ha ?_).2.1⟩
    rw [(ht.made ha).flags]
    exact hat _ (ht.made ha).enabled

/-- The hardware entry of the context has been removed and the context goes back to the pool. -/
theorem HwInv.expireHw (h : HwInv P A s) (hattr : SameConfig s.attr s'.attr) {e : HwEntry}
    (hmem : Attaches s.attr → e ∈ s.hw.entries) (hu : e.user_data = some c) {ok : Bool} {hw : Hardware}
    (hrm : s.hw.rmEntry (s.ctx c).entry.entry ok = some hw) (hpool : s'.pool = c :: s.pool)
    (hctx : s'.ctx = s.ctx) (hhw : s'.hw = hw) : HwInv P A s' := by
  obtain ⟨y, hy, -, rfl⟩ := rmEntry_some hrm
  have hfilter : ∀ x, x ∈ s'.hw.entries ↔ x ∈ s.hw.entries ∧ x.handle ≠ y := by
    intro x
    rw [hhw, List.mem_filter, bne_iff_ne]
  refine h.release hattr hpool hctx (by rw [hhw]) ?_ (fun c' hm => hm) (fun hk x hx hy' => ?_)
    (fun hat x hx hu' => ?_) (fun hat x hx hne => ?_)
  · rw [hhw]
    exact List.filter_sublist
  · rw [hy] at hy'
    exact absurd (Option.some.inj hy').symm ((hfilter x).1 hx).2
  · obtain ⟨hxm, hxy⟩ := (hfilter x).1 hx
    obtain ⟨c', hu'', -, -, -, hy'⟩ := h.exact hat x hxm
    rw [hu'] at hu''
    cases hu''
    rw [hy] at hy'
    exact hxy (Option.some.inj hy').symm
  · -- an entry of another context has another handle
    refine (hfilter x).2 ⟨hx, fun hxy => hne ?_⟩
    obtain ⟨c', hu', -, -, -, hy'⟩ := h.exact hat e (hmem hat)
    rw [hu] at hu'
    cases hu'
    rw [hy] at hy'
    rw [h.handle_inj hx (hmem hat) (hxy.trans (Option.some.inj hy')), hu]

/-- A hardware entry without a callback has been removed. -/
theorem HwInv.rmEntry (h : HwInv P A s) (ht : TableInv P A s) {e : HwEntry}
    (hmem : Attaches s.attr → e ∈ s.hw.entries) (hu : e.user_data = some c) {ok : Bool} {hw : Hardware}
    (hrm : s.hw.rmEntry (s.ctx c).entry.entry ok = some hw) (hcb : (s.ctx c).entry.cb = none) :
    HwInv P A { s with hw := hw } := by
  obtain ⟨y, hy, -, rfl⟩ := rmEntry_some hrm
  have hnot : ¬ Attaches s.attr := by
    intro hat
    obtain ⟨c', hu', ha, -⟩ := h.exact hat e (hmem hat)
    rw [hu] at hu'
    cases hu'
    have hf : (s.ctx c).entry.action.flags ≠ AGING := by
      rw [(ht.made ha).flags]
      exact hat _ (ht.made ha).enabled
    have := (h.cb ha hf).1
    rw [hcb] at this
    cases this
  have hsub : ∀ x, x ∈ s.hw.entries.filter (fun e => e.handle != y) → x ∈ s.hw.entries :=
    fun x hx => (List.mem_filter.1 hx).1
  exact ⟨h.nodup.sublist (List.filter_sublist.map _), fun x hx => h.lt x (hsub x hx), h.cb, h.cb_none,
    h.entry_lt, fun hk c' x hx => h.own hk (hsub x hx), fun hat => absurd hat hnot,
    fun hat => absurd hat hnot⟩

end FlowQoS.Conntrack
