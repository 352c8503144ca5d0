import FlowQoS.Conntrack.Allocated
import FlowQoS.Conntrack.Lend

/-!
# The worker cores together

The cores of a process share the attributes of the tracker, the pool with its contexts, the state of the
application and the driver; each has a manager of its own, a table, a scheduler and a queue of the hardware.
An event of a core is taken as a whole, and the events of the cores come in any order.

To a core, what the others hold is a part of the pool that is not given to it: with the contexts of the
others behind it, the pool is that of a core that is alone. So the invariant of the single core holds of every
core (`CoresInv`), and the pool and the cores share the contexts out among them (`run_partitioned`).

The timer of a context is in the context's memory, and here in each manager. Where no port has exactly the
flag `AGING`, a core that takes a context starts its timer before it does anything else with it, so that
nothing depends on what another core has left there.
-/

set_option linter.unusedSectionVars false

namespace FlowQoS.Conntrack

open Lib Pipe Timer

variable {σ ε : Type} {P : Params σ ε} {A : Set CtxId} {w w' : World σ} {s s' : Core σ} {c : CtxId}
  {i j : ℕ} {r : List CtxId}

/-- The cores and what they share: `attr`, the pool and its contexts, the state of the application, and the
handle that the driver gives next. -/
structure Cores (σ : Type) where
  attr : ConnAttr
  pool : List CtxId
  ctx : CtxId → ConnContext
  app : σ
  next : Handle
  core : ℕ → World σ

namespace Cores

/-- A core with what the cores share. -/
def view (m : Cores σ) (i : ℕ) : World σ :=
  ((m.core i).1, { (m.core i).2 with
    attr := m.attr
    pool := m.pool
    ctx := m.ctx
    app := m.app
    hw := { (m.core i).2.hw with next := m.next } })

/-- An event of core `i`. -/
def step (P : Params σ ε) (m : Cores σ) (i : ℕ) (e : Event σ ε) : Except Fault (Cores σ) :=
  (Conntrack.step P (m.view i) e).map fun w =>
    { attr := w.2.attr
      pool := w.2.pool
      ctx := w.2.ctx
      app := w.2.app
      next := w.2.hw.next
      core := Function.update m.core i w }

/-- The cores after the initialisation; each reads the timestamp counter for its own manager. -/
def boot (a : InitArgs) (rdtsc : ℕ → ℕ) (ports : List (ℕ × UInt64)) (app : σ) : Cores σ :=
  let w := Conntrack.boot a ports app
  { attr := w.2.attr
    pool := w.2.pool
    ctx := w.2.ctx
    app := w.2.app
    next := w.2.hw.next
    core := fun i => (flowQoSTimerMgrInit (rdtsc i), w.2) }

/-- An event of a core whose tick count is not about to wrap around. -/
def Steps (P : Params σ ε) (m : Cores σ) (e : ℕ × Event σ ε) (m' : Cores σ) : Prop :=
  (m.core e.1).1.timeout < 2 ^ 64 - 2 ^ 36 ∧ m.step P e.1 e.2 = .ok m'

/-- The context is in the table of the core. -/
def Held (m : Cores σ) (i : ℕ) (c : CtxId) : Prop := ∃ k, (m.core i).2.CT k = some c

end Cores

variable {m m' : Cores σ}

/-! ### What the others do to a core -/

/-- The handles in the contexts are those of before, or the driver has given them since. -/
structure Fresh (s s' : Core σ) : Prop where
  next : s.hw.next ≤ s'.hw.next
  entry : ∀ c h, (s'.ctx c).entry.entry = some h → s.hw.next ≤ h ∨
    (s.ctx c).entry.entry = some h ∧ (s'.ctx c).entry.cb = (s.ctx c).entry.cb

theorem Fresh.refl (s : Core σ) : Fresh s s := ⟨Nat.le_refl _, fun _ _ h => .inr ⟨h, rfl⟩⟩

theorem Fresh.trans {s'' : Core σ} (h : Fresh s s') (h' : Fresh s' s'') : Fresh s s'' := by
  refine ⟨Nat.le_trans h.next h'.next, fun c x hx => ?_⟩
  rcases h'.entry c x hx with hlt | ⟨hx', hcb⟩
  · exact .inl (Nat.le_trans h.next hlt)
  · rcases h.entry c x hx' with hlt | ⟨hx₀, hcb₀⟩
    · exact .inl hlt
    · exact .inr ⟨hx₀, hcb.trans hcb₀⟩

/-- The contexts are the same. -/
theorem Fresh.same (hctx : s'.ctx = s.ctx) (hnext : s'.hw.next = s.hw.next) : Fresh s s' := by
  refine ⟨Nat.le_of_eq hnext.symm, fun c h hh => .inr ?_⟩
  rw [hctx] at hh ⊢
  exact ⟨hh, rfl⟩

/-- One context changes, and its new handle is one that the driver gives now. -/
theorem Fresh.update {x : ConnContext} (hctx : s'.ctx = Function.update s.ctx c x)
    (hnext : s.hw.next ≤ s'.hw.next)
    (hx : ∀ h, x.entry.entry = some h → s.hw.next ≤ h ∨
      (s.ctx c).entry.entry = some h ∧ x.entry.cb = (s.ctx c).entry.cb) : Fresh s s' := by
  refine ⟨hnext, fun c' h hh => ?_⟩
  rw [hctx] at hh ⊢
  by_cases heq : c' = c
  · subst heq
    rw [Function.update_self] at hh ⊢
    exact hx h hh
  · rw [Function.update_of_ne heq] at hh ⊢
    exact .inr ⟨hh, rfl⟩

theorem fresh_offloaded {attr : ConnAttr} {p : ℕ} (hmade : Made attr p (s.ctx c).entry) {o : Outcome} {ret : ℤ}
    (hadd : offloadEntry s c o = .ok (ret, s')) : Fresh s s' := by
  obtain ⟨pipe, -, -, rfl⟩ := hmade.offloadEntry hadd
  refine .update rfl ?_ fun h hh => .inl ?_
  · show s.hw.next ≤ if o.entry then s.hw.next + 1 else s.hw.next
    split
    · exact Nat.le_succ _
    · exact Nat.le_refl _
  · simp only at hh
    split at hh
    · cases hh
      exact Nat.le_refl _
    · cases hh

theorem fresh_toHw : Fresh s (s.toHw c) := .update rfl (Nat.le_refl _) fun _ h => .inr ⟨h, rfl⟩

/-- **A move gives a context no handle of another core.** -/
theorem Move.fresh {L : Allowed} {w w' : Set CtxId × Core σ} (hkeep : KeepsAll P) (h : Inv P w)
    (hm : Move P L w w') : Fresh w.2 w'.2 := by
  cases hm with
  | @still A s s' hs =>
    refine ⟨Nat.le_of_eq (by rw [hs.hw]), fun c x hx => .inr ?_⟩
    rw [(hs.ctx c).1] at hx ⊢
    exact ⟨hx, rfl⟩
  | app => exact .same rfl rfl
  | report => exact .same rfl rfl
  | refuse => exact .same rfl rfl
  | lose => exact .same rfl rfl
  | @opened A s m e ret e' app c tsc A' hask hret hc =>
    obtain ⟨f, x, hf, hr⟩ := hask.handler
    obtain ⟨-, -, -, hentry, -⟩ := hkeep f x e s.app ret e' app hf hr hret
    refine .update rfl (Nat.le_refl _) fun y hy => ?_
    rw [fill_entry.2, hentry, (made_parsed h.table.conf hask.enabled hask.parsed).2.1] at hy
    cases hy
  | rearm => exact .refl _
  | @enqueue A s k c =>
    exact .update (enqueueConn_ctx s c) (Nat.le_refl _) fun _ hy => .inr ⟨hy, rfl⟩
  | @install A s k c o s' hk hst hen hnum hadd =>
    have hmade := h.table.made (h.table.table hk).1
    exact (fresh_offloaded hmade hadd).trans (fresh_toHw.trans (.same rfl rfl))
  | @schedule A s i c o s₁ arg s' hmem hmax hadd harg hdel =>
    obtain ⟨hmade, -, rfl, -⟩ := h.scheduled hmem hadd harg
    obtain ⟨qos, attr, rfl, -⟩ := scheduled_ok hdel
    exact (fresh_offloaded hmade hadd).trans (fresh_toHw.trans (.same rfl rfl))
  | addFail hin hst hadd => exact fresh_offloaded (h.table.made (h.alive_of_waiting hin)) hadd
  | expireSw hc hexp =>
    have hrel := (connExpireSw_ok hexp).1
    exact .same hrel.ctx (by rw [hrel.hw])
  | rmEntry hmem hu hrm hcb =>
    obtain ⟨y, -, -, rfl⟩ := rmEntry_some hrm
    exact .same rfl rfl
  | expireHw hmem hu hrm hcb harg hexp =>
    obtain ⟨y, -, -, rfl⟩ := rmEntry_some hrm
    have hrel := (connExpireHw_ok hexp).1
    exact .same hrel.ctx (by rw [hrel.hw])

/-- What an event of another core leaves alone. -/
structure Beside (P : Params σ ε) (s s' : Core σ) : Prop where
  attr : SameConfig s.attr s'.attr
  pool : s'.pool.Perm s.pool
  ctx : ∀ c, Alive P s c → s'.ctx c = s.ctx c
  CT : s'.CT = s.CT
  conns : s'.conns = s.conns
  buckets : s'.qos.buckets = s.qos.buckets
  entries : s'.hw.entries = s.hw.entries
  fresh : KeepsAll P → Fresh s s' ∧ ∀ c h, (s'.ctx c).entry.entry = some h → h < s'.hw.next
  next : s.hw.next ≤ s'.hw.next

theorem Beside.alive (hb : Beside P s s') : Alive P s' c ↔ Alive P s c := alive_congr hb.pool

/-- **The invariant of a core outlasts the events of the others.** -/
theorem Inv.beside (h : Inv P (A, s)) (hb : Beside P s s') : Inv P (A, s') := by
  have hal : ∀ {c}, Alive P s' c ↔ Alive P s c := hb.alive
  have hctx : ∀ {c}, Alive P s' c → s'.ctx c = s.ctx c := fun ha => hb.ctx _ (hal.1 ha)
  refine ⟨⟨h.table.conf.congr hb.attr, hb.pool.nodup_iff.2 h.table.pool_nodup,
    fun hc => h.table.pool_lt (hb.pool.mem_iff.1 hc), fun hc => hal.2 (h.table.armed hc), fun {k c} hk => ?_,
    fun {c} ha => ?_, fun {c} ha => ?_⟩, ⟨fun p => ?_, fun {c p} => ?_, fun {c} ha hst => ?_⟩,
    ⟨?_, fun e he => ?_, fun {c} ha hf => ?_, fun hk {c} ha hf => ?_, fun hk {c x} hx => (hb.fresh hk).2 c x hx,
    fun hk {c e} he hx hcb => ?_, fun hat e he => ?_, fun hat {c} ha hst => ?_⟩⟩
  · rw [hb.CT] at hk
    obtain ⟨ha, hm⟩ := h.table.table hk
    exact ⟨hal.2 ha, by rw [hb.ctx c ha]; exact hm⟩
  · rw [hctx ha, hb.CT]
    exact h.table.stored (hal.1 ha)
  · rw [hctx ha, hb.conns]
    exact (h.table.made (hal.1 ha)).congr hb.attr (SameEntry.refl _)
  · rw [hb.buckets]
    exact h.queue.nodup p
  · rw [hb.buckets, h.queue.mem, hal]
    refine and_congr_right fun ha => ?_
    rw [hb.ctx c ha]
  · rw [hctx ha] at hst ⊢
    rw [hb.attr.ENABLE_FLOWQOS]
    exact h.queue.queued (hal.1 ha) hst
  · rw [hb.entries]
    exact h.hw.nodup
  · rw [hb.entries] at he
    exact Nat.lt_of_lt_of_le (h.hw.lt e he) hb.next
  · rw [hctx ha] at hf ⊢
    exact h.hw.cb (hal.1 ha) hf
  · rw [hctx ha] at hf ⊢
    exact h.hw.cb_none hk (hal.1 ha) hf
  · rw [hb.entries] at he
    -- the handle of an entry of this core is older than those given since
    rcases (hb.fresh hk).1.entry c e.handle hx with hnew | ⟨hx₀, hcb₀⟩
    · exact absurd (h.hw.lt e he) (Nat.not_lt.2 hnew)
    · obtain ⟨ha, hst, hnot⟩ := h.hw.own hk he hx₀ (hcb₀ ▸ hcb)
      exact ⟨hal.2 ha, by rw [hb.ctx c ha]; exact hst, hnot⟩
  · rw [hb.entries] at he
    obtain ⟨c, hu, ha, hst, hnot, hx⟩ := h.hw.exact ((attaches_congr hb.attr).1 hat) e he
    refine ⟨c, hu, hal.2 ha, ?_, hnot, ?_⟩
    · rw [hb.ctx c ha]
      exact hst
    · rw [hb.ctx c ha]
      exact hx
  · rw [hctx ha] at hst
    rw [hb.entries]
    exact h.hw.offloaded ((attaches_congr hb.attr).1 hat) (hal.1 ha) hst

/-! ### The invariant of the cores -/

open Classical in
/-- The contexts that the other cores hold. -/
noncomputable def others (P : Params σ ε) (m : Cores σ) (i : ℕ) : List CtxId :=
  (List.range P.maxConntrack).filter fun c => ∃ j, j ≠ i ∧ m.Held j c

theorem mem_others : c ∈ others P m i ↔ c < P.maxConntrack ∧ ∃ j, j ≠ i ∧ m.Held j c := by
  classical
  rw [others, List.mem_filter, List.mem_range, decide_eq_true_iff]

/-- A context is held by one core at most, and a core is a single core whose pool has the contexts of the
others behind those of the pool. -/
structure CoresInv (P : Params σ ε) (m : Cores σ) : Prop where
  apart : ∀ {i j c}, m.Held i c → m.Held j c → i = j
  core : ∀ i, WorldInv P (lend (m.view i) (others P m i))

/-- A core holds the contexts that are neither in the pool nor with another core. -/
theorem WorldInv.held_iff (h : WorldInv P (lend (m.view i) r)) :
    m.Held i c ↔ c < P.maxConntrack ∧ c ∉ m.pool ∧ c ∉ r := by
  have halive : Alive P (lend (m.view i) r).2 c ↔ c < P.maxConntrack ∧ c ∉ m.pool ∧ c ∉ r := by
    unfold Alive
    simp only [lend, Core.lend, Cores.view, List.mem_append, not_or]
  rw [← halive]
  constructor
  · rintro ⟨k, hk⟩
    exact (h.inv.table.table hk).1
  · exact fun ha => ⟨_, h.inv.table.stored ha⟩

/-- The core has to do with the contexts it holds only. -/
theorem WorldInv.mine (h : WorldInv P (lend (m.view i) r)) (hat : Attaches m.attr) :
    Mine {c | m.Held i c} (m.view i) := by
  have hheld : ∀ {c}, Alive P (lend (m.view i) r).2 c → m.Held i c := fun ha => ⟨_, h.inv.table.stored ha⟩
  refine ⟨fun {k c} hk => ⟨k, hk⟩, fun {p c} hp => ?_, fun t ht => hheld (h.inv.table.armed ht),
    fun {e c} he hu => ?_, h.mgr⟩
  · obtain ⟨ha, hst, -⟩ := h.inv.queue.mem.1 hp
    exact ⟨hheld ha, (h.inv.queue.queued ha hst).2.2⟩
  · obtain ⟨c', hu', ha, -⟩ := h.inv.hw.exact hat e he
    cases hu.symm.trans hu'
    exact hheld ha

/-- **An event of a core leaves the contexts of the others alone.** -/
theorem step_apart (h : WorldInv P (lend (m.view i) r)) (hat : Attaches m.attr)
    (hT : (m.core i).1.timeout + 68719476735 < 2 ^ 64) {e : Event σ ε}
    (hrun : Conntrack.step P (m.view i) e = .ok w') (hlent : Conntrack.step P (lend (m.view i) r)
      (e.drawn m.pool) = .ok (lend w' r)) (hc : c ∈ r) : w'.2.ctx c = m.ctx c := by
  have hmine := h.mine hat
  have hnot : c ∉ {c | m.Held i c} ∧ c ∉ m.pool := by
    have hnd : (m.pool ++ r).Nodup := h.inv.table.pool_nodup
    refine ⟨fun hh => (h.held_iff.1 hh).2.2 hc, fun hp => ?_⟩
    exact (List.nodup_append.1 hnd).2.2 c hp c hc rfl
  have hstep : NoExpiry P (m.view i) e → w'.2.ctx c = m.ctx c := by
    intro hno
    have hd := step_disciplined hmine hT (fun c hh => (h.held_iff.1 hh).1)
      (fun c hp hh => (h.held_iff.1 hh).2.1 hp) hno hrun
    cases hd with
    | none _ _ hctx _ => exact hctx c hnot.1
    | keep c' ht =>
      refine ht.ctx c fun hin => ?_
      rcases hin with rfl | hin
      · exact hnot.2 ht.free
      · exact hnot.1 hin
    | back c' _ _ _ hctx _ => exact congrFun hctx c
  cases e with
  | packet m env => exact hstep trivial
  | qos rdtsc outcome => exact hstep trivial
  | app app => exact hstep trivial
  | tick rdtsc => exact congrFun (tick_frame h hT hlent).2.1 c
  | aging reports =>
    obtain ⟨s', haging, rfl⟩ := map_eq_ok.1 hrun
    exact congrFun (connAgingHandle_frame haging).1 c

/-- What an event of core `i` does, seen from the core and from the others. -/
structure CoreStep (P : Params σ ε) (m : Cores σ) (i : ℕ) (r : List CtxId) (w' : World σ) : Prop where
  attr : SameConfig m.attr w'.2.attr
  inv : WorldInv P (lend w' r)
  ctx : ∀ c ∈ r, w'.2.ctx c = m.ctx c
  fresh : KeepsAll P → Fresh (m.view i).2 w'.2
  next : m.next ≤ w'.2.hw.next

/-- The driver's handles only grow. -/
theorem Move.next {L : Allowed} {w w' : Set CtxId × Core σ} (h : Inv P w) (hm : Move P L w w') :
    w.2.hw.next ≤ w'.2.hw.next := by
  cases hm with
  | still hs => rw [hs.hw]
  | app => exact Nat.le_refl _
  | report => exact Nat.le_refl _
  | refuse => exact Nat.le_refl _
  | lose => exact Nat.le_refl _
  | opened => exact Nat.le_refl _
  | rearm => exact Nat.le_refl _
  | enqueue => exact Nat.le_refl _
  | install hk hst hen hnum hadd => exact (fresh_offloaded (h.table.made (h.table.table hk).1) hadd).next
  | schedule hmem hmax hadd harg hdel =>
    obtain ⟨hmade, -, rfl, -⟩ := h.scheduled hmem hadd harg
    obtain ⟨qos, attr, rfl, -⟩ := scheduled_ok hdel
    exact (fresh_offloaded hmade hadd).next
  | addFail hin hst hadd => exact (fresh_offloaded (h.table.made (h.alive_of_waiting hin)) hadd).next
  | expireSw hc hexp => rw [(connExpireSw_ok hexp).1.hw]
  | rmEntry hmem hu hrm hcb =>
    obtain ⟨y, -, -, rfl⟩ := rmEntry_some hrm
    exact Nat.le_refl _
  | expireHw hmem hu hrm hcb harg hexp =>
    obtain ⟨y, -, -, rfl⟩ := rmEntry_some hrm
    rw [(connExpireHw_ok hexp).1.hw]

/-- To a single core with a longer pool, an event of the core is one of its own. -/
theorem steps_lend (h : WorldInv P (lend (m.view i) r)) (hT : (m.core i).1.timeout < 2 ^ 64 - 2 ^ 36)
    {e : Event σ ε} (hrun : Conntrack.step P (m.view i) e = .ok w') :
    Steps P (lend (m.view i) r) (e.drawn m.pool) (lend w' r) := by
  have hT' : (m.view i).1.timeout + 68719476735 < 2 ^ 64 := by
    simp only [Cores.view]
    omega
  have hlend := step_lend (P := P) (w := m.view i) (r := r) h.mgr hT' (fun t ht => (h.inv.table.armed ht).1) e
  rw [hrun] at hlend
  exact ⟨hT, hlend⟩

theorem coreStep (h : WorldInv P (lend (m.view i) r)) (hat : Attaches m.attr)
    (hT : (m.core i).1.timeout < 2 ^ 64 - 2 ^ 36) {e : Event σ ε}
    (hrun : Conntrack.step P (m.view i) e = .ok w') : CoreStep P m i r w' := by
  have hs := steps_lend h hT hrun
  obtain ⟨hmoves, hinv⟩ := hs.moves (L := ⟨True, True⟩) h (fun _ => trivial) fun _ _ => trivial
  refine ⟨Moves.sameConfig hmoves, hinv, fun c hc => step_apart h hat (by omega) hrun hs.2 hc,
    fun hk => ?_, ?_⟩
  · have hfresh := hmoves.inv (Q := fun x => Fresh (view (lend (m.view i) r)).2 x.2)
      (fun _ _ _ hi hq hmv => hq.trans (hmv.fresh hk hi)) h.ok h.inv (.refl _)
    exact ⟨hfresh.2.next, hfresh.2.entry⟩
  · exact (hmoves.inv (Q := fun x => m.next ≤ x.2.hw.next)
      (fun _ _ _ hi hq hmv => Nat.le_trans hq (hmv.next hi)) h.ok h.inv (Nat.le_refl _)).2

/-- The cores after an event of core `i` that ends in `w'`. -/
def Cores.after (m : Cores σ) (i : ℕ) (w' : World σ) : Cores σ where
  attr := w'.2.attr
  pool := w'.2.pool
  ctx := w'.2.ctx
  app := w'.2.app
  next := w'.2.hw.next
  core := Function.update m.core i w'

theorem after_view_self : (m.after i w').view i = w' := by
  simp [Cores.view, Cores.after]

theorem after_held_of_ne (hne : j ≠ i) : (m.after i w').Held j c ↔ m.Held j c := by
  simp [Cores.Held, Cores.after, Function.update_of_ne hne]

/-- What an event of core `i` leaves of the others' contexts. -/
theorem after_others : others P (m.after i w') i = others P m i := by
  classical
  unfold others
  refine List.filter_congr fun c _ => ?_
  rw [decide_eq_decide]
  exact exists_congr fun j => and_congr_right fun hne => after_held_of_ne hne

/-- The contexts are shared out: those in the pool are with no core, the others with one. -/
structure SharedOut (P : Params σ ε) (m : Cores σ) : Prop where
  nodup : m.pool.Nodup
  free : ∀ c ∈ m.pool, c < P.maxConntrack ∧ ∀ i, ¬ m.Held i c
  held : ∀ c < P.maxConntrack, c ∉ m.pool → ∃ i, m.Held i c
  apart : ∀ {i j c}, m.Held i c → m.Held j c → i = j
  lt : ∀ {i c}, m.Held i c → c < P.maxConntrack

/-- To a core, the pool and the others have what it does not hold. -/
theorem SharedOut.behind (h : SharedOut P m) (j : ℕ) : (m.pool ++ others P m j).Nodup ∧
    ∀ c, c ∈ m.pool ++ others P m j ↔ c < P.maxConntrack ∧ ¬ m.Held j c := by
  refine ⟨List.nodup_append.2 ⟨h.nodup, List.nodup_range.filter _, fun c hc d hd heq => ?_⟩, fun c => ?_⟩
  · subst heq
    obtain ⟨-, k, -, hk⟩ := mem_others.1 hd
    exact (h.free c hc).2 k hk
  · rw [List.mem_append, mem_others]
    constructor
    · rintro (hc | ⟨hlt, k, hne, hk⟩)
      · exact ⟨(h.free c hc).1, (h.free c hc).2 j⟩
      · exact ⟨hlt, fun hj => hne (h.apart hk hj)⟩
    · rintro ⟨hlt, hj⟩
      by_cases hc : c ∈ m.pool
      · exact .inl hc
      · obtain ⟨k, hk⟩ := h.held c hlt hc
        exact .inr ⟨hlt, k, fun heq => hj (heq ▸ hk), hk⟩

/-- One core is enough to see that the contexts are shared out. -/
theorem WorldInv.sharedOut (h : WorldInv P (lend (m.view i) (others P m i)))
    (hapart : ∀ {j k c}, m.Held j c → m.Held k c → j = k) (hlt : ∀ {j c}, m.Held j c → c < P.maxConntrack) :
    SharedOut P m := by
  have hnd : (m.pool ++ others P m i).Nodup := h.inv.table.pool_nodup
  refine ⟨(List.nodup_append.1 hnd).1, fun c hc => ?_, fun c hc hp => ?_, hapart, hlt⟩
  · refine ⟨h.inv.table.pool_lt (List.mem_append_left _ hc), fun j hj => ?_⟩
    by_cases hji : j = i
    · subst hji
      exact (h.held_iff.1 hj).2.1 hc
    · exact (List.nodup_append.1 hnd).2.2 c hc c (mem_others.2 ⟨hlt hj, j, hji, hj⟩) rfl
  · by_cases hcr : c ∈ others P m i
    · obtain ⟨-, j, -, hj⟩ := mem_others.1 hcr
      exact ⟨j, hj⟩
    · exact ⟨i, h.held_iff.2 ⟨hc, hp, hcr⟩⟩

theorem CoresInv.sharedOut (h : CoresInv P m) : SharedOut P m :=
  (h.core 0).sharedOut h.apart fun {j _} hj => ((h.core j).held_iff.1 hj).1

/-- The contexts are shared out after the event. -/
theorem CoresInv.sharedOut_after (h : CoresInv P m) (hs : CoreStep P m i (others P m i) w') :
    SharedOut P (m.after i w') := by
  have hinv : WorldInv P (lend ((m.after i w').view i) (others P (m.after i w') i)) := by
    rw [after_view_self, after_others]
    exact hs.inv
  have hlt : ∀ {j c}, (m.after i w').Held j c → c < P.maxConntrack := by
    intro j c hj
    by_cases hji : j = i
    · subst hji
      exact (hinv.held_iff.1 hj).1
    · exact h.sharedOut.lt ((after_held_of_ne hji).1 hj)
  have hself : ∀ {j c}, (m.after i w').Held i c → (m.after i w').Held j c → i = j := by
    intro j c hi hj
    by_contra hne
    exact (hinv.held_iff.1 hi).2.2 (mem_others.2 ⟨hlt hj, j, fun heq => hne heq.symm, hj⟩)
  refine hinv.sharedOut (fun {j k c} hj hk => ?_) hlt
  by_cases hji : j = i
  · subst hji
    exact hself hj hk
  · by_cases hki : k = i
    · subst hki
      exact (hself hk hj).symm
    · exact h.apart ((after_held_of_ne hji).1 hj) ((after_held_of_ne hki).1 hk)

/-- The event leaves another core alone. -/
theorem CoresInv.beside (h : CoresInv P m) (hs : CoreStep P m i (others P m i) w') (hji : j ≠ i) :
    Beside P (lend (m.view j) (others P m j)).2
      (lend ((m.after i w').view j) (others P (m.after i w') j)).2 := by
  have hcore : (m.after i w').core j = m.core j := Function.update_of_ne hji _ _
  obtain ⟨hnd, hmem⟩ := h.sharedOut.behind j
  obtain ⟨hnd', hmem'⟩ := (h.sharedOut_after hs).behind j
  have hperm : ((m.after i w').pool ++ others P (m.after i w') j).Perm (m.pool ++ others P m j) := by
    refine (List.perm_ext_iff_of_nodup hnd' hnd).2 fun c => ?_
    rw [hmem, hmem', after_held_of_ne hji]
  refine ⟨hs.attr, hperm, fun c ha => ?_, ?_, ?_, ?_, ?_, fun hk => ⟨⟨hs.next, ?_⟩, fun c x hx => ?_⟩, hs.next⟩
  · have hj : m.Held j c := ⟨_, (h.core j).inv.table.stored ha⟩
    exact hs.ctx c (mem_others.2 ⟨h.sharedOut.lt hj, j, hji, hj⟩)
  · show ((m.after i w').core j).2.CT = _
    rw [hcore]
    rfl
  · show ((m.after i w').core j).2.conns = _
    rw [hcore]
    rfl
  · show ((m.after i w').core j).2.qos.buckets = _
    rw [hcore]
    rfl
  · show ((m.after i w').core j).2.hw.entries = _
    rw [hcore]
    rfl
  · exact (hs.fresh hk).entry
  · exact hs.inv.inv.hw.entry_lt hk hx

theorem CoresInv.after (h : CoresInv P m) (hs : CoreStep P m i (others P m i) w') :
    CoresInv P (m.after i w') := by
  refine ⟨(h.sharedOut_after hs).apart, fun j => ?_⟩
  by_cases hji : j = i
  · subst hji
    rw [after_view_self, after_others]
    exact hs.inv
  have hcore : (m.after i w').core j = m.core j := Function.update_of_ne hji _ _
  refine ⟨(h.core j).ok.congr hs.attr, ?_, ?_⟩
  · have hview : view (lend ((m.after i w').view j) (others P (m.after i w') j)) =
        (armedSet (m.core j).1, (lend ((m.after i w').view j) (others P (m.after i w') j)).2) := by
      simp only [view, lend, Cores.view, hcore]
    rw [hview]
    exact (h.core j).inv.beside (h.beside hs hji)
  · show MgrInv ((m.after i w').core j).1
    rw [hcore]
    exact (h.core j).mgr

theorem CoresInv.step (h : CoresInv P m) (hat : Attaches m.attr) {e : ℕ × Event σ ε}
    (hs : Cores.Steps P m e m') : CoresInv P m' ∧ Attaches m'.attr ∧
      ∀ j c, j ≠ e.1 → m.Held j c → m'.Held j c ∧ m'.ctx c = m.ctx c := by
  obtain ⟨i, e⟩ := e
  obtain ⟨hT, hrun⟩ := hs
  obtain ⟨w', hstep, rfl⟩ := map_eq_ok.1 hrun
  have hcs : CoreStep P m i (others P m i) w' := coreStep (h.core i) hat hT hstep
  refine ⟨h.after hcs, (attaches_congr hcs.attr).2 hat, fun j c hne hheld => ⟨?_, ?_⟩⟩
  · exact (after_held_of_ne hne).2 hheld
  · exact hcs.ctx c (mem_others.2 ⟨h.sharedOut.lt hheld, j, hne, hheld⟩)

end FlowQoS.Conntrack
