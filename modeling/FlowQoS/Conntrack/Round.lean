import FlowQoS.Conntrack.Scheduler

/-!
# One round and its reference

`plan` is what a due call of `flowQoS_do_entry_event` is to offload: from the highest queue to the lowest,
the front of each queue, as far as its weight and the tokens that are left go. The loops serve the entries
of the plan one by one (`qosQueues_serves`), up to the first insertion that fails, and `Offloads` is the
closed form of what serving some entries has changed.

Main result: `round_reference`. An insertion that fails writes the flags of the pipe and the handle into
the entry, which stays in its queue (`failing_insertion_writes`).
-/

set_option linter.unusedSectionVars false

namespace FlowQoS.Conntrack

open Lib Pipe Timer

variable {σ ε : Type} {w w' w₀ w₁ : World σ} {s s' : Core σ} {c : CtxId} {i : ℕ}
  {outcome : CtxId → Outcome}

/-! ### The plan -/

/-- The entries to offload from the queues `is` with so many tokens, with their queues. -/
def plan (q : FlowQoSStats) : List ℕ → ℕ → List (ℕ × CtxId)
  | [], _ => []
  | i :: is, tokens =>
    let front := (q.buckets i).take (min (q.weight i).toNat tokens)
    front.map (Prod.mk i) ++ plan q is (tokens - front.length)

/-- The plan of a round. -/
def roundPlan (q : FlowQoSStats) : List (ℕ × CtxId) :=
  plan q (List.range q.priorityQueueNum).reverse q.maxEntry.toNat

theorem plan_congr {q q' : FlowQoSStats} (hw : q'.weight = q.weight) : ∀ {is : List ℕ},
    (∀ i ∈ is, q'.buckets i = q.buckets i) → ∀ tokens, plan q' is tokens = plan q is tokens
  | [], _, _ => rfl
  | i :: is, hb, tokens => by
    simp only [plan]
    rw [hb i List.mem_cons_self, hw]
    rw [plan_congr hw fun j hj => hb j (List.mem_cons_of_mem _ hj)]

/-! ### Entries that can be offloaded -/

/-- The entries that wait in the queues have a pipe and a handler. -/
structure Ready (s : Core σ) : Prop where
  queued : Queued s
  pipe : ∀ {i c}, c ∈ s.qos.buckets i → (s.ctx c).entry.pipe.isSome
  handler : ∀ {i c}, c ∈ s.qos.buckets i →
    (s.ctx c).entry.flowQoS_qosHandler = some .flowQoS_qosHandler
  args : ∀ {i c}, c ∈ s.qos.buckets i → (s.ctx c).entry.flowQoS_args.isSome

/-- In every state of the tracker the waiting entries can be offloaded. -/
theorem Inv.ready {P : Params σ ε} {A : Set CtxId} (h : Inv P (A, s)) : Ready s where
  queued := ⟨h.queue.nodup, fun hc => (h.queue.mem.1 hc).2.2⟩
  pipe hc := by
    obtain ⟨ha, -, -⟩ := h.queue.mem.1 hc
    obtain ⟨pipe, hpipe, -⟩ := (h.table.made ha).pipe
    rw [hpipe]
    rfl
  handler hc := by
    obtain ⟨ha, hstate, -⟩ := h.queue.mem.1 hc
    exact (h.queue.queued ha hstate).2.1
  args hc := by
    obtain ⟨ha, hstate, -⟩ := h.queue.mem.1 hc
    rw [(h.queue.queued ha hstate).2.2]
    rfl

/-- What `flowQoS_add_entry` writes into the entry of a context: the flags of the pipe and the handle. -/
def Written (x x' : ConnContext) : Prop := ∃ (matchFlags actionFlags : UInt64) (h : Option Handle),
  x' = { x with entry :=
    { x.entry with
      match_ := { x.entry.match_ with flags := matchFlags }
      action := { x.entry.action with flags := actionFlags }
      entry := h } }

/-- What an insertion for a context changes of the core. -/
theorem offloadEntry_writes {o : Outcome} {ret : ℤ} (h : offloadEntry s c o = .ok (ret, s')) :
    Written (s.ctx c) (s'.ctx c) ∧
      s' = { s with ctx := Function.update s.ctx c (s'.ctx c), hw := s'.hw } := by
  unfold offloadEntry at h
  split at h
  · cases h
  · next pipe hpipe =>
    simp only [addEntry, Except.ok.injEq, Prod.mk.injEq] at h
    obtain ⟨-, rfl⟩ := h
    simp only [Core.setCtx, Function.update_self, and_true]
    refine ⟨pipe.match_pattern.flags, pipe.action_pattern.flags,
      if o.entry then some s.hw.next else none, ?_⟩
    simp only [hpipe]

/-- An insertion into the pipe of an entry gives 1 or 0. -/
theorem offloadEntry_ready (hpipe : (s.ctx c).entry.pipe.isSome) (o : Outcome) :
    ∃ s', offloadEntry s c o = .ok (if o.ok then 1 else 0, s') := by
  obtain ⟨pipe, hpipe⟩ := Option.isSome_iff_exists.1 hpipe
  unfold offloadEntry
  rw [hpipe]
  exact ⟨_, rfl⟩

/-! ### Turns at the front of a queue -/

/-- A turn for the first entry of its queue. -/
def FrontTurn (outcome : CtxId → Outcome) (w : World σ) (t : TurnLabel) (w' : World σ) : Prop :=
  Turn outcome w t w' ∧ (w.2.qos.buckets t.queue).head? = some t.ctx

/-- What a turn does to the contexts: it writes into its own entry, and the handler changes a state. -/
structure TurnWrites (w : World σ) (t : TurnLabel) (w' : World σ) : Prop where
  entry : ∀ c, c ≠ t.ctx → (w'.2.ctx c).entry = (w.2.ctx c).entry
  written : ∃ x, Written (w.2.ctx t.ctx) x ∧ (w'.2.ctx t.ctx).entry = x.entry
  state : ∀ c, (w'.2.ctx c).ct_state =
    if some c = (w.2.ctx t.ctx).entry.flowQoS_args then .HW_FWD_STATE else (w.2.ctx c).ct_state

theorem delEntryEvent_ctx (h : delEntryEvent s c = .ok s') : s'.ctx = s.ctx := by
  unfold delEntryEvent at h
  simp only at h
  split at h
  · cases h
    rfl
  · cases h

theorem Turn.writes {t : TurnLabel} (h : Turn outcome w t w') : TurnWrites w t w' := by
  obtain ⟨-, ret, s, arg, s', hadd, -, harg, -, hdel, rfl⟩ := h
  obtain ⟨hwritten, hs⟩ := offloadEntry_writes hadd
  have hctx : s.ctx = Function.update w.2.ctx t.ctx (s.ctx t.ctx) := by
    rw [hs]
    simp
  have hctx' : s'.ctx = Function.update s.ctx arg { s.ctx arg with ct_state := .HW_FWD_STATE } := by
    rw [delEntryEvent_ctx hdel, (congestion_qos _).2.2]
    rfl
  have hentry : ∀ c, (s'.ctx c).entry = (s.ctx c).entry := by
    intro c
    rw [hctx', Function.update_apply]
    split
    · next heq =>
      rw [heq]
    · rfl
  refine ⟨fun c hne => ?_, ⟨_, hwritten, hentry _⟩, fun c => ?_⟩
  · show (s'.ctx c).entry = _
    rw [hentry, hctx, Function.update_of_ne hne]
  · have hargs : (w.2.ctx t.ctx).entry.flowQoS_args = some arg := by
      obtain ⟨_, _, _, hx⟩ := hwritten
      rw [hx] at harg
      exact harg
    have hsame : (s.ctx c).ct_state = (w.2.ctx c).ct_state := by
      rw [hctx, Function.update_apply]
      split
      · next heq =>
        obtain ⟨_, _, _, hx⟩ := hwritten
        rw [hx, heq]
      · rfl
    show (s'.ctx c).ct_state = _
    rw [hctx', Function.update_apply, hargs]
    by_cases heq : c = arg
    · rw [if_pos heq, if_pos (by rw [heq])]
    · rw [if_neg heq, if_neg fun hsome => heq (Option.some.inj hsome), hsame]

/-- What the entries that wait are relied on for stays as it is. -/
theorem TurnWrites.same {t : TurnLabel} (h : TurnWrites w t w') (c : CtxId) :
    (w'.2.ctx c).entry.pipe = (w.2.ctx c).entry.pipe ∧
    (w'.2.ctx c).entry.flowQoS_qosHandler = (w.2.ctx c).entry.flowQoS_qosHandler ∧
    (w'.2.ctx c).entry.flowQoS_args = (w.2.ctx c).entry.flowQoS_args := by
  by_cases hc : c = t.ctx
  · obtain ⟨x, ⟨_, _, _, hx⟩, hentry⟩ := h.written
    rw [hc, hentry, hx]
    exact ⟨rfl, rfl, rfl⟩
  · rw [h.entry c hc]
    exact ⟨rfl, rfl, rfl⟩

/-- The first entry of the queue is gone. -/
theorem FrontTurn.buckets {t : TurnLabel} (h : FrontTurn outcome w t w') (hq : Queued w.2) :
    ∃ rest, w.2.qos.buckets t.queue = t.ctx :: rest ∧
      w'.2.qos.buckets = Function.update w.2.qos.buckets t.queue rest := by
  obtain ⟨hturn, hhead⟩ := h
  obtain ⟨rest, hb⟩ : ∃ rest, w.2.qos.buckets t.queue = t.ctx :: rest := by
    cases hb : w.2.qos.buckets t.queue with
    | nil =>
      rw [hb] at hhead
      cases hhead
    | cons c rest =>
      rw [hb] at hhead
      cases hhead
      exact ⟨rest, rfl⟩
  have hmem : t.ctx ∈ w.2.qos.buckets t.queue := by
    rw [hb]
    exact List.mem_cons_self
  have herase := hturn.spec.buckets.2
  rw [hq.priority hmem, hb, List.erase_cons_head] at herase
  exact ⟨rest, hb, herase⟩

theorem FrontTurn.ready {t : TurnLabel} (h : FrontTurn outcome w t w') (hr : Ready w.2) :
    Ready w'.2 := by
  have hwrites := h.1.writes
  have hmem : ∀ {i c}, c ∈ w'.2.qos.buckets i → c ∈ w.2.qos.buckets i := by
    intro i c hc
    obtain ⟨rest, hb, hb'⟩ := h.buckets hr.queued
    rw [hb', Function.update_apply] at hc
    split at hc
    · next heq =>
      rw [heq, hb]
      exact List.mem_cons_of_mem _ hc
    · exact hc
  refine ⟨h.1.spec.queued hr.queued, fun {i c} hc => ?_, fun {i c} hc => ?_, fun {i c} hc => ?_⟩
  · rw [(hwrites.same c).1]
    exact hr.pipe (hmem hc)
  · rw [(hwrites.same c).2.1]
    exact hr.handler (hmem hc)
  · rw [(hwrites.same c).2.2]
    exact hr.args (hmem hc)

/-! ### What serving some entries has changed -/

/-- The entries of queue `i` among those served. -/
def ofQueue (i : ℕ) (xs : List (ℕ × CtxId)) : List CtxId := (xs.filter fun x => x.1 = i).map Prod.snd

theorem ofQueue_cons (j : ℕ) (c : CtxId) (xs : List (ℕ × CtxId)) (i : ℕ) :
    ofQueue i ((j, c) :: xs) = if j = i then c :: ofQueue i xs else ofQueue i xs := by
  unfold ofQueue
  rw [List.filter_cons]
  by_cases h : j = i
  · simp [h]
  · simp [h]

/-- **The closed form.** The entries `xs` have been offloaded, in their order. -/
structure Offloads (outcome : CtxId → Outcome) (w : World σ) (xs : List (ℕ × CtxId)) (w' : World σ) :
    Prop where
  /-- Each of them has had one turn, in which its handler is called. -/
  turns : ∃ ts, Trace (FrontTurn outcome) w ts w' ∧ ts.map (fun t => (t.queue, t.ctx)) = xs
  /-- They have left the queues, whose other entries are as they were. -/
  buckets : ∀ i, ofQueue i xs ++ w'.2.qos.buckets i = w.2.qos.buckets i
  qos : w'.2.qos = { w.2.qos with
    maxEntry := w.2.qos.maxEntry - xs.length
    finished := fun i => w.2.qos.finished i + UInt64.ofNat (ofQueue i xs).length
    hwCongested := w'.2.qos.hwCongested
    buckets := w'.2.qos.buckets }
  entry : ∀ c, c ∉ xs.map Prod.snd → (w'.2.ctx c).entry = (w.2.ctx c).entry
  state : ∀ c, (w'.2.ctx c).ct_state =
    if some c ∈ xs.map fun x => (w.2.ctx x.2).entry.flowQoS_args then .HW_FWD_STATE
    else (w.2.ctx c).ct_state

theorem Offloads.nil (outcome : CtxId → Outcome) (w : World σ) : Offloads outcome w [] w where
  turns := ⟨[], .nil w, rfl⟩
  buckets _ := rfl
  qos := by simp [ofQueue]
  entry _ _ := rfl
  state _ := by simp

/-- A turn at the front of a queue, and then the rest. -/
theorem Offloads.cons {t : TurnLabel} {xs : List (ℕ × CtxId)} (hturn : FrontTurn outcome w t w₁)
    (hr : Ready w.2) (h : Offloads outcome w₁ xs w') : Offloads outcome w ((t.queue, t.ctx) :: xs) w' where
  turns := by
    obtain ⟨ts, htrace, rfl⟩ := h.turns
    exact ⟨t :: ts, .cons hturn htrace, rfl⟩
  buckets i := by
    obtain ⟨rest, hb, hb'⟩ := hturn.buckets hr.queued
    rw [ofQueue_cons]
    have htail := h.buckets i
    rw [hb', Function.update_apply] at htail
    by_cases hi : t.queue = i
    · subst hi
      rw [if_pos rfl] at htail ⊢
      rw [List.cons_append, htail, hb]
    · rw [if_neg fun heq => hi heq.symm] at htail
      rw [if_neg hi, htail]
  qos := by
    rw [h.qos, hturn.1.spec.qos]
    simp only [FlowQoSStats.mk.injEq, true_and, and_true]
    constructor
    · rw [List.length_cons]
      omega
    · funext i
      rw [ofQueue_cons, Function.update_apply]
      by_cases hi : i = t.queue
      · subst hi
        have hone : UInt64.ofNat 1 = 1 := rfl
        simp only [if_true, List.length_cons, UInt64.ofNat_add, hone]
        ac_rfl
      · rw [if_neg hi, if_neg fun heq => hi heq.symm]
  entry c hc := by
    rw [List.map_cons, List.mem_cons, not_or] at hc
    rw [h.entry c hc.2, hturn.1.writes.entry c hc.1]
  state c := by
    have hargs : (xs.map fun x => (w₁.2.ctx x.2).entry.flowQoS_args) =
        xs.map fun x => (w.2.ctx x.2).entry.flowQoS_args :=
      List.map_congr_left fun x _ => (hturn.1.writes.same x.2).2.2
    rw [h.state, hargs, hturn.1.writes.state, List.map_cons]
    by_cases hmem : some c ∈ xs.map fun x => (w.2.ctx x.2).entry.flowQoS_args
    · rw [if_pos hmem, if_pos (List.mem_cons_of_mem _ hmem)]
    · rw [if_neg hmem]
      by_cases hc : some c = (w.2.ctx t.ctx).entry.flowQoS_args
      · rw [if_pos hc, if_pos (hc ▸ List.mem_cons_self)]
      · rw [if_neg hc, if_neg fun hm => (List.mem_cons.1 hm).elim hc hmem]

/-! ### Serving a plan -/

/-- **The reference.** The entries are served in order, until an insertion fails: the entries offloaded so
far or 0, whether the round goes on, and the state. -/
inductive Serves (outcome : CtxId → Outcome) :
    World σ → List (ℕ × CtxId) → ℤ → ℤ × Bool × World σ → Prop
  | done (w : World σ) (res : ℤ) : Serves outcome w [] res (res, true, w)
  | fails {w : World σ} {s : Core σ} {i : ℕ} {c : CtxId} {xs : List (ℕ × CtxId)} (res : ℤ) :
    (outcome c).ok = false → offloadEntry w.2 c (outcome c) = .ok (0, s) →
    Serves outcome w ((i, c) :: xs) res (0, false, w.1, s)
  | turn {w w₁ : World σ} {t : TurnLabel} {xs : List (ℕ × CtxId)} {res : ℤ} {r : ℤ × Bool × World σ} :
    (outcome t.ctx).ok = true → FrontTurn outcome w t w₁ → Serves outcome w₁ xs (res + 1) r →
    Serves outcome w ((t.queue, t.ctx) :: xs) res r

theorem Serves.append {xs ys : List (ℕ × CtxId)} {res res' : ℤ} {r : ℤ × Bool × World σ}
    (h : Serves outcome w xs res (res', true, w₁)) (h' : Serves outcome w₁ ys res' r) :
    Serves outcome w (xs ++ ys) res r := by
  generalize hr₁ : (res', true, w₁) = r₁ at h
  induction h with
  | done w res =>
    cases hr₁
    exact h'
  | fails => cases hr₁
  | turn hok hturn _ ih => exact .turn hok hturn (ih hr₁)

/-- What comes after an insertion that fails is not looked at. -/
theorem Serves.append_of_fails {xs : List (ℕ × CtxId)} {res res' : ℤ}
    (h : Serves outcome w xs res (res', false, w₁)) (ys : List (ℕ × CtxId)) :
    Serves outcome w (xs ++ ys) res (res', false, w₁) := by
  generalize hr₁ : (res', false, w₁) = r₁ at h ⊢
  induction h with
  | done => cases hr₁
  | fails res hno hadd => exact .fails res hno hadd
  | turn hok hturn _ ih => exact .turn hok hturn (ih hr₁)

/-- The turn of the loop for the first entry of queue `i`. -/
theorem qosLoop_cons (outcome : CtxId → Outcome) {rest : List CtxId} {weight : ℤ} (hr : Ready w.2)
    (hb : w.2.qos.buckets i = c :: rest) (hweight : 0 < weight) (hmax : 0 < w.2.qos.maxEntry)
    (res : ℤ) : (∃ w₁ signalled, (outcome c).ok = true ∧ FrontTurn outcome w ⟨i, c, signalled⟩ w₁ ∧
      qosLoop i outcome (c :: rest) weight res w = qosLoop i outcome rest (weight - 1) (res + 1) w₁) ∨
    ∃ s, (outcome c).ok = false ∧ offloadEntry w.2 c (outcome c) = .ok (0, s) ∧
      qosLoop i outcome (c :: rest) weight res w = .ok (0, false, w.1, s) := by
  have hmem : c ∈ w.2.qos.buckets i := by
    rw [hb]
    exact List.mem_cons_self
  obtain ⟨s, hadd⟩ := offloadEntry_ready (hr.pipe hmem) (outcome c)
  have hgo : ¬ (weight ≤ 0 ∨ w.2.qos.maxEntry ≤ 0) := by omega
  rw [qosLoop, if_neg hgo, hadd]
  cases hok : (outcome c).ok with
  | false =>
    exact .inr ⟨s, rfl, rfl, rfl⟩
  | true =>
    rw [hok] at hadd
    obtain ⟨hwritten, -⟩ := offloadEntry_writes hadd
    obtain ⟨arg, harg⟩ := Option.isSome_iff_exists.1 (hr.args hmem)
    have hhandler : (s.ctx c).entry.flowQoS_qosHandler = some .flowQoS_qosHandler ∧
        (s.ctx c).entry.flowQoS_args = some arg := by
      obtain ⟨_, _, _, hx⟩ := hwritten
      rw [hx]
      exact ⟨hr.handler hmem, harg⟩
    -- the entry is still in its queue when it is taken out
    obtain ⟨s', hdel⟩ : ∃ s',
        delEntryEvent (congestion (spendEntry (qosHandler (w.1, s) arg).2 i)) c = .ok s' := by
      obtain ⟨-, hqos, -, hprio⟩ := offloadEntry_qos hadd
      obtain ⟨hcong, -, hctx⟩ := congestion_qos (spendEntry (qosHandler (w.1, s) arg).2 i)
      refine ⟨_, if_pos ?_⟩
      have hp : ((qosHandler (w.1, s) arg).2.ctx c).entry.priority = (s.ctx c).entry.priority := by
        simp only [qosHandler, Core.toHw, Core.setCtx, Function.update_apply]
        split
        · next heq =>
          rw [heq]
        · rfl
      rw [hctx, hcong]
      show c ∈ s.qos.buckets ((qosHandler (w.1, s) arg).2.ctx c).entry.priority.toNat
      rw [hp, hqos, hprio, hr.queued.priority hmem]
      exact hmem
    refine .inl ⟨((qosHandler (w.1, s) arg).1, s'),
      signals (spendEntry (qosHandler (w.1, s) arg).2 i), rfl, ⟨⟨hmax, 1, s, arg, s', hadd, by omega,
      hhandler.2, rfl, hdel, rfl⟩, ?_⟩, ?_⟩
    · rw [hb]
      rfl
    · simp only [pure, Except.pure, bind, Except.bind, if_true]
      rw [if_neg (by omega), hhandler.1, hhandler.2]
      simp only [hdel]

/-- Where the round goes on, the entries have been offloaded. -/
theorem Serves.offloads {xs : List (ℕ × CtxId)} {res res' : ℤ}
    (h : Serves outcome w xs res (res', true, w₁)) (hr : Ready w.2) :
    Offloads outcome w xs w₁ ∧ Ready w₁.2 ∧ res' = res + xs.length := by
  generalize hr₁ : (res', true, w₁) = r₁ at h
  induction h with
  | done w res =>
    cases hr₁
    exact ⟨.nil outcome _, hr, by simp⟩
  | fails => cases hr₁
  | turn _ hturn _ ih =>
    obtain ⟨hoff, hr', hres⟩ := ih (hturn.ready hr) hr₁
    refine ⟨.cons hturn hr hoff, hr', ?_⟩
    rw [hres, List.length_cons]
    push_cast
    omega

/-- **The loop over a queue serves its front.** -/
theorem qosLoop_serves : ∀ (rest : List CtxId) (weight res : ℤ) (w : World σ), Ready w.2 →
    w.2.qos.buckets i = rest → ∃ r, qosLoop i outcome rest weight res w = .ok r ∧
    Serves outcome w ((rest.take (min weight.toNat w.2.qos.maxEntry.toNat)).map (Prod.mk i)) res r
  | [], weight, res, w, _, _ => ⟨_, rfl, by
    rw [List.take_nil]
    exact .done w res⟩
  | c :: rest, weight, res, w, hr, hb => by
    by_cases hstop : weight ≤ 0 ∨ w.2.qos.maxEntry ≤ 0
    · have hzero : min weight.toNat w.2.qos.maxEntry.toNat = 0 := by omega
      refine ⟨_, by rw [qosLoop, if_pos hstop]; rfl, ?_⟩
      rw [hzero]
      exact .done w res
    · obtain ⟨n, hn⟩ : ∃ n, min weight.toNat w.2.qos.maxEntry.toNat = n + 1 :=
        ⟨min weight.toNat w.2.qos.maxEntry.toNat - 1, by omega⟩
      rw [hn, List.take_succ_cons, List.map_cons]
      have hweight : 0 < weight := by omega
      rcases qosLoop_cons outcome hr hb hweight (by omega) res with
        ⟨w₁, signalled, hok, hturn, heq⟩ | ⟨s, hno, hadd, heq⟩
      · obtain ⟨rest', hb', hb''⟩ := hturn.buckets hr.queued
        have hrest : w₁.2.qos.buckets i = rest := by
          have heq' : c :: rest = c :: rest' := hb.symm.trans hb'
          rw [hb'']
          exact (Function.update_self _ _ _).trans (List.cons.inj heq').2.symm
        obtain ⟨r, hrun, hserves⟩ := qosLoop_serves rest (weight - 1) (res + 1) w₁ (hturn.ready hr) hrest
        have hmin : min (weight - 1).toNat w₁.2.qos.maxEntry.toNat = n := by
          rw [hturn.1.spec.qos]
          simp only
          omega
        rw [hmin] at hserves
        exact ⟨r, heq.trans hrun, .turn hok hturn hserves⟩
      · exact ⟨_, heq, .fails res hno hadd⟩

theorem ofQueue_map_of_ne {j : ℕ} (hne : j ≠ i) (cs : List CtxId) : ofQueue j (cs.map (Prod.mk i)) = [] := by
  unfold ofQueue
  rw [List.map_eq_nil_iff, List.filter_eq_nil_iff]
  intro x hx
  obtain ⟨c, -, rfl⟩ := List.mem_map.1 hx
  simpa using hne.symm

/-- **The loops serve the plan.** -/
theorem qosQueues_serves (outcome : CtxId → Outcome) :
    ∀ (is : List ℕ) (res : ℤ) (w : World σ), is.Nodup → Ready w.2 →
    ∃ r, qosQueues outcome is res w = .ok r ∧
      Serves outcome w (plan w.2.qos is w.2.qos.maxEntry.toNat) res r
  | [], res, w, _, _ => ⟨_, rfl, .done w res⟩
  | i :: is, res, w, hnd, hr => by
    obtain ⟨hnot, hnd'⟩ := List.nodup_cons.1 hnd
    obtain ⟨⟨res', goes, w₁⟩, hloop, hserves⟩ := qosLoop_serves _ (w.2.qos.weight i) res w hr rfl
    unfold qosQueues
    rw [hloop]
    simp only [plan]
    cases goes with
    | false => exact ⟨_, rfl, hserves.append_of_fails _⟩
    | true =>
      obtain ⟨hoff, hr', -⟩ := hserves.offloads hr
      obtain ⟨r, hrun, hrest⟩ := qosQueues_serves outcome is res' w₁ hnd' hr'
      refine ⟨r, hrun, hserves.append ?_⟩
      -- the queues below are as they were, and what was taken is missing in the budget
      have hb : ∀ j ∈ is, w₁.2.qos.buckets j = w.2.qos.buckets j := by
        intro j hj
        have hne : j ≠ i := fun heq => hnot (heq ▸ hj)
        rw [← hoff.buckets j, ofQueue_map_of_ne hne, List.nil_append]
      have hw : w₁.2.qos.weight = w.2.qos.weight := by rw [hoff.qos]
      have hmax : w₁.2.qos.maxEntry.toNat = w.2.qos.maxEntry.toNat -
          ((w.2.qos.buckets i).take (min (w.2.qos.weight i).toNat w.2.qos.maxEntry.toNat)).length := by
        rw [hoff.qos]
        simp only [List.length_map]
        omega
      rw [plan_congr hw hb, hmax] at hrest
      exact hrest

/-! ### A round -/

theorem Serves.all {xs : List (ℕ × CtxId)} {res : ℤ} {r : ℤ × Bool × World σ}
    (h : Serves outcome w xs res r) (hok : ∀ x ∈ xs, (outcome x.2).ok = true) : r.2.1 = true := by
  induction h with
  | done => rfl
  | fails _ hno =>
    rw [hok _ List.mem_cons_self] at hno
    cases hno
  | turn _ _ _ ih => exact ih fun x hx => hok x (List.mem_cons_of_mem _ hx)

/-- The entries before the one whose insertion fails have been offloaded. -/
theorem Serves.until_fails {pre post : List (ℕ × CtxId)} {res : ℤ} {r : ℤ × Bool × World σ}
    (h : Serves outcome w (pre ++ (i, c) :: post) res r) (hr : Ready w.2)
    (hok : ∀ x ∈ pre, (outcome x.2).ok = true) (hno : (outcome c).ok = false) :
    ∃ w₁ s, Offloads outcome w pre w₁ ∧ offloadEntry w₁.2 c (outcome c) = .ok (0, s) ∧
      r = (0, false, w₁.1, s) := by
  induction pre generalizing w res with
  | nil =>
    cases h with
    | fails _ _ hadd => exact ⟨_, _, .nil outcome w, hadd, rfl⟩
    | turn hok' _ _ =>
      rw [hno] at hok'
      cases hok'
  | cons x pre ih =>
    cases h with
    | fails _ hno' _ =>
      rw [hok _ List.mem_cons_self] at hno'
      cases hno'
    | turn _ hturn hrest =>
      obtain ⟨w₁, s, hoff, hadd, heq⟩ :=
        ih hrest (hturn.ready hr) fun x hx => hok x (List.mem_cons_of_mem _ hx)
      exact ⟨w₁, s, .cons hturn hr hoff, hadd, heq⟩

/-- **One round equals its reference.** A due call in which every insertion of the plan succeeds offloads the
entries of the plan, in order, and takes the time. Where an insertion fails, exactly the entries before it
have been offloaded, and nothing else has changed but what the insertion has written into its own entry and
the hardware. -/
theorem round_reference (outcome : CtxId → Outcome) {cur : UInt64} (hr : Ready w.2)
    (hdue : cur - w.2.qos.lastStmp > w.2.qos.gap) :
    ((∀ x ∈ roundPlan w.2.qos, (outcome x.2).ok = true) → ∃ w₁,
      Offloads outcome w (roundPlan w.2.qos) w₁ ∧
      doEntryEvent cur outcome w = .ok ((roundPlan w.2.qos).length, w₁.1,
        { w₁.2 with qos := { w₁.2.qos with lastStmp := cur } })) ∧
    ∀ pre i c post, roundPlan w.2.qos = pre ++ (i, c) :: post →
      (∀ x ∈ pre, (outcome x.2).ok = true) → (outcome c).ok = false → ∃ w₁ s,
      Offloads outcome w pre w₁ ∧ doEntryEvent cur outcome w = .ok (0, w₁.1, s) ∧
      Written (w₁.2.ctx c) (s.ctx c) ∧
      s = { w₁.2 with ctx := Function.update w₁.2.ctx c (s.ctx c), hw := s.hw } := by
  obtain ⟨⟨res, goes, w'⟩, hrun, hserves⟩ := qosQueues_serves outcome
    (List.range w.2.qos.priorityQueueNum).reverse 0 w (List.nodup_reverse.2 List.nodup_range) hr
  unfold doEntryEvent
  rw [if_pos hdue, hrun]
  constructor
  · intro hok
    obtain rfl : goes = true := hserves.all hok
    obtain ⟨hoff, -, rfl⟩ := hserves.offloads hr
    refine ⟨w', hoff, ?_⟩
    rw [zero_add]
    rfl
  · intro pre i c post hplan hok hno
    unfold roundPlan at hplan
    rw [hplan] at hserves
    obtain ⟨w₁, s, hoff, hadd, heq⟩ := hserves.until_fails hr hok hno
    cases heq
    obtain ⟨hwritten, hs⟩ := offloadEntry_writes hadd
    exact ⟨w₁, s, hoff, rfl, hwritten, hs⟩

theorem ready_crowded : Ready crowded.2 := by
  have hentry : ∀ c, (crowded.2.ctx c).entry.pipe.isSome ∧
      (crowded.2.ctx c).entry.flowQoS_qosHandler = some .flowQoS_qosHandler ∧
      (crowded.2.ctx c).entry.flowQoS_args.isSome := fun c => ⟨rfl, rfl, rfl⟩
  exact ⟨queued_crowded, fun {_ c} _ => (hentry c).1, fun {_ c} _ => (hentry c).2.1,
    fun {_ c} _ => (hentry c).2.2⟩

/-- The driver processes every entry. -/
def inTime (_ : CtxId) : Outcome := ⟨true, 1⟩

/-- The driver takes the entry of context 2, and does not process it in time. -/
def notInTime (c : CtxId) : Outcome := ⟨true, if c = 2 then 0 else 1⟩

theorem round_reference_crowded :
    (∃ w₁, Offloads inTime crowded [(1, 0), (0, 2)] w₁ ∧
      doEntryEvent 2000000 inTime crowded = .ok (2, w₁.1,
        { w₁.2 with qos := { w₁.2.qos with lastStmp := 2000000 } })) ∧
    ∃ w₁ s, Offloads notInTime crowded [(1, 0)] w₁ ∧
      doEntryEvent 2000000 notInTime crowded = .ok (0, w₁.1, s) := by
  have hdue : (2000000 : UInt64) - crowded.2.qos.lastStmp > crowded.2.qos.gap := by decide +kernel
  have hplan : roundPlan crowded.2.qos = [(1, 0), (0, 2)] := by decide +kernel
  constructor
  · obtain ⟨w₁, hoff, hrun⟩ := (round_reference inTime ready_crowded hdue).1 fun _ _ => rfl
    rw [hplan] at hoff hrun
    exact ⟨w₁, hoff, hrun⟩
  · obtain ⟨w₁, s, hoff, hrun, -⟩ := (round_reference notInTime ready_crowded hdue).2
      [(1, 0)] 0 2 [] hplan (by decide) rfl
    exact ⟨w₁, s, hoff, hrun⟩

/-- The entry whose insertion fails is not left as it was: it has the handle of the hardware entry that the
driver has taken. -/
theorem failing_insertion_writes : ∃ w' : World Unit,
    Ready crowded.2 ∧ (2000000 : UInt64) - crowded.2.qos.lastStmp > crowded.2.qos.gap ∧
    roundPlan crowded.2.qos = [(1, 0)] ++ [(0, 2)] ∧ (notInTime 0).ok = true ∧
    (notInTime 2).ok = false ∧ doEntryEvent 2000000 notInTime crowded = .ok (0, w') ∧
    (w'.2.ctx 2).entry ≠ (crowded.2.ctx 2).entry :=
  ⟨_, ready_crowded, by decide +kernel, by decide +kernel, rfl, rfl, rfl, by decide +kernel⟩

end FlowQoS.Conntrack
