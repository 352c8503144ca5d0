import FlowQoS.Conntrack.Step

/-!
# What becomes of the accepted connections

The events of a run tell of every connection that `newConn_handler` has accepted what has become of it:
it is open, or it has been lost, or it has ended. The connections in the table are exactly the open ones
(`Ledger`).

* `run_paired`: a connection that is not lost is in the table, or has ended once;
* `packet_port_iff`: a packet gets a context of its own port if and only if no open connection of the
  other port has its key.
-/

set_option linter.unusedSectionVars false

namespace FlowQoS.Conntrack

open Lib Pipe Timer

variable {σ ε : Type} {P : Params σ ε} {L : Allowed} {w w' : World σ} {A A' : Set CtxId} {s s' : Core σ}
  {c : CtxId} {n port : ℕ} {k : FlowQoSMatch}

def ConnEvent.conn : ConnEvent → ℕ
  | accepted id _ _ => id
  | lost id => id
  | ended id => id

/-- The events of a connection, in order. -/
def Core.history (s : Core σ) (n : ℕ) : List ConnEvent := s.events.filter fun e => e.conn == n

/-- The connection has been accepted, and nothing else has happened to it. -/
def Core.Open (s : Core σ) (n port : ℕ) (k : FlowQoSMatch) : Prop :=
  s.history n = [.accepted n port k]

/-- The open connections are those in the table. -/
structure Ledger (P : Params σ ε) (s : Core σ) : Prop where
  fresh : ∀ {n}, s.accepted ≤ n → s.history n = []
  alive : ∀ {c}, Alive P s c → s.Open (s.conns c).id (s.conns c).port (s.ctx c).entry.match_
  opened : ∀ {n port k}, s.Open n port k → ∃ c, s.CT k = some c ∧ s.conns c = ⟨n, port⟩
  closed : ∀ {n}, n < s.accepted → ∃ port k, s.Open n port k ∨
    s.history n = [.accepted n port k, .lost n] ∨ s.history n = [.accepted n port k, .ended n]

theorem history_append {es : List ConnEvent} (h : s'.events = s.events ++ es) (n : ℕ) :
    s'.history n = s.history n ++ es.filter fun e => e.conn == n := by
  unfold Core.history
  rw [h, List.filter_append]

/-- The events of the other connections. -/
theorem history_append_of_ne {es : List ConnEvent} (h : s'.events = s.events ++ es)
    (hne : ∀ e ∈ es, e.conn ≠ n) : s'.history n = s.history n := by
  rw [history_append h, List.filter_eq_nil_iff.2, List.append_nil]
  intro e he
  simpa using hne e he

theorem Core.Open.unique {port' : ℕ} {k' : FlowQoSMatch} (h : s.Open n port k) (h' : s.Open n port' k') :
    port = port' ∧ k = k' := by
  have heq := h.symm.trans h'
  simpa using heq

theorem Ledger.lt (h : Ledger P s) (hid : s.history n ≠ []) : n < s.accepted := by
  by_contra hc
  exact hid (h.fresh (Nat.not_lt.1 hc))

theorem Ledger.open_lt (h : Ledger P s) (ho : s.Open n port k) : n < s.accepted := by
  apply h.lt
  rw [ho]
  exact List.cons_ne_nil _ _

theorem Ledger.congr (h : Ledger P s) (hpool : s'.pool.Perm s.pool) (hev : s'.events = s.events)
    (hacc : s'.accepted = s.accepted) (hCT : s'.CT = s.CT) (hconns : s'.conns = s.conns)
    (hctx : ∀ c, (s'.ctx c).entry.match_ = (s.ctx c).entry.match_) : Ledger P s' := by
  have hhist : s'.history = s.history := by
    funext n
    unfold Core.history
    rw [hev]
  have hopen : s'.Open = s.Open := by
    funext n port k
    unfold Core.Open
    rw [hhist]
  refine ⟨fun hid => ?_, fun ha => ?_, fun ho => ?_, fun hid => ?_⟩
  · rw [hhist]
    exact h.fresh (hacc ▸ hid)
  · rw [hopen, hconns, hctx]
    exact h.alive ((alive_congr hpool).1 ha)
  · rw [hCT, hconns]
    exact h.opened (hopen ▸ ho)
  · rw [hopen, hhist]
    exact h.closed (hacc ▸ hid)

/-- A connection is accepted and lost. -/
theorem Ledger.lose (h : Ledger P s) (hpool : s'.pool.Perm s.pool)
    (hev : s'.events = s.events ++ [.accepted s.accepted port k, .lost s.accepted])
    (hacc : s'.accepted = s.accepted + 1) (hCT : s'.CT = s.CT) (hconns : s'.conns = s.conns)
    (hctx : s'.ctx = s.ctx) : Ledger P s' := by
  have hold : ∀ n, n ≠ s.accepted → s'.history n = s.history n := by
    intro n hne
    apply history_append_of_ne hev
    intro e he
    simp only [List.mem_cons, List.not_mem_nil, or_false] at he
    rcases he with rfl | rfl
    · exact hne.symm
    · exact hne.symm
  have hnew : s'.history s.accepted = [.accepted s.accepted port k, .lost s.accepted] := by
    rw [history_append hev, h.fresh (Nat.le_refl _)]
    simp [ConnEvent.conn]
  refine ⟨fun {n} hid => ?_, fun {c} ha => ?_, fun {n port' k'} ho => ?_, fun {n} hid => ?_⟩
  · rw [hold n (by omega)]
    exact h.fresh (by omega)
  · have ho := h.alive ((alive_congr hpool).1 ha)
    have hlt := h.open_lt ho
    unfold Core.Open at ho ⊢
    rw [hconns, hctx, hold _ (by omega)]
    exact ho
  · have hne : n ≠ s.accepted := by
      rintro rfl
      have heq := hnew.symm.trans ho
      simp at heq
    rw [hCT, hconns]
    apply h.opened
    unfold Core.Open at ho ⊢
    rwa [hold n hne] at ho
  · by_cases hne : n = s.accepted
    · subst hne
      exact ⟨port, k, .inr (.inl hnew)⟩
    · unfold Core.Open
      rw [hold n hne]
      exact h.closed (by omega)

/-- A connection is accepted and put into the table. -/
theorem Ledger.insert (h : Ledger P s) (ht : TableInv P A s) (hc : c ∈ s.pool)
    (hpool : s'.pool = s.pool.erase c) (hev : s'.events = s.events ++ [.accepted s.accepted port k])
    (hacc : s'.accepted = s.accepted + 1) (hCT : s'.CT = Function.update s.CT k (some c))
    (habs : s.CT k = none) (hconns : s'.conns = Function.update s.conns c ⟨s.accepted, port⟩)
    (hctx : ∀ c', c' ≠ c → s'.ctx c' = s.ctx c') (hkey : (s'.ctx c).entry.match_ = k) :
    Ledger P s' := by
  have halive : ∀ c', Alive P s' c' ↔ Alive P s c' ∨ c' = c :=
    fun c' => alive_erase ht.pool_nodup hc (ht.pool_lt hc) hpool
  have hnew : ∀ {c'}, Alive P s c' → c' ≠ c := fun ha he => ha.2 (he ▸ hc)
  have hold : ∀ n, n ≠ s.accepted → s'.history n = s.history n := by
    intro n hne
    apply history_append_of_ne hev
    intro e he
    rw [List.mem_singleton] at he
    subst he
    exact hne.symm
  have hself : s'.history s.accepted = [.accepted s.accepted port k] := by
    rw [history_append hev, h.fresh (Nat.le_refl _)]
    simp [ConnEvent.conn]
  refine ⟨fun {n} hid => ?_, fun {c'} ha => ?_, fun {n port' k'} ho => ?_, fun {n} hid => ?_⟩
  · rw [hold n (by omega)]
    exact h.fresh (by omega)
  · rcases (halive c').1 ha with ha | rfl
    · have ho := h.alive ha
      have hlt := h.open_lt ho
      unfold Core.Open at ho ⊢
      rw [hconns, Function.update_of_ne (hnew ha), hctx c' (hnew ha), hold _ (by omega)]
      exact ho
    · unfold Core.Open
      rw [hconns, Function.update_self, hkey]
      exact hself
  · by_cases hne : n = s.accepted
    · subst hne
      have heq := hself.symm.trans ho
      simp only [List.cons.injEq, ConnEvent.accepted.injEq, true_and, and_true] at heq
      obtain ⟨rfl, rfl⟩ := heq
      refine ⟨c, ?_, ?_⟩
      · rw [hCT, Function.update_self]
      · rw [hconns, Function.update_self]
    · have ho' : s.Open n port' k' := by
        unfold Core.Open at ho ⊢
        rwa [hold n hne] at ho
      obtain ⟨c', hk', hc'⟩ := h.opened ho'
      have hkne : k' ≠ k := by
        rintro rfl
        rw [habs] at hk'
        cases hk'
      refine ⟨c', ?_, ?_⟩
      · rw [hCT, Function.update_of_ne hkne]
        exact hk'
      · rw [hconns, Function.update_of_ne (hnew (ht.table hk').1)]
        exact hc'
  · by_cases hne : n = s.accepted
    · subst hne
      exact ⟨port, k, .inl hself⟩
    · unfold Core.Open
      rw [hold n hne]
      exact h.closed (by omega)

/-- A connection ends. -/
theorem Ledger.release (h : Ledger P s) (ht : TableInv P A s) (hc : Alive P s c)
    (hpool : s'.pool = c :: s.pool) (hev : s'.events = s.events ++ [.ended (s.conns c).id])
    (hacc : s'.accepted = s.accepted)
    (hCT : s'.CT = Function.update s.CT (s.ctx c).entry.match_ none) (hconns : s'.conns = s.conns)
    (hctx : s'.ctx = s.ctx) : Ledger P s' := by
  have hold : ∀ n, n ≠ (s.conns c).id → s'.history n = s.history n := by
    intro n hne
    apply history_append_of_ne hev
    intro e he
    rw [List.mem_singleton] at he
    subst he
    exact hne.symm
  have hopen := h.alive hc
  have hself : s'.history (s.conns c).id =
      [.accepted (s.conns c).id (s.conns c).port (s.ctx c).entry.match_, .ended (s.conns c).id] := by
    rw [history_append hev, hopen]
    simp [ConnEvent.conn]
  have hlt := h.open_lt hopen
  refine ⟨fun {n} hid => ?_, fun {c'} ha => ?_, fun {n port' k'} ho => ?_, fun {n} hid => ?_⟩
  · rw [hold n (by omega)]
    exact h.fresh (by omega)
  · obtain ⟨ha, hne⟩ := (alive_cons hpool).1 ha
    have ho := h.alive ha
    have hid : (s.conns c').id ≠ (s.conns c).id := by
      intro heq
      rw [heq] at ho
      exact hne (ht.match_inj ha hc (ho.unique hopen).2)
    unfold Core.Open at ho ⊢
    rw [hconns, hctx, hold _ hid]
    exact ho
  · have hne : n ≠ (s.conns c).id := by
      rintro rfl
      have heq := hself.symm.trans ho
      simp at heq
    have ho' : s.Open n port' k' := by
      unfold Core.Open at ho ⊢
      rwa [hold n hne] at ho
    obtain ⟨c', hk', hc'⟩ := h.opened ho'
    refine ⟨c', ?_, ?_⟩
    · rw [hCT, Function.update_of_ne]
      · exact hk'
      · intro heq
        rw [heq, ht.stored hc] at hk'
        cases hk'
        exact hne (by rw [hc'])
    · rw [hconns]
      exact hc'
  · by_cases hne : n = (s.conns c).id
    · rw [hne]
      exact ⟨_, _, .inr (.inr hself)⟩
    · unfold Core.Open
      rw [hold n hne]
      exact h.closed (hacc ▸ hid)

/-- Every move keeps the ledger. -/
theorem ledger_move {w w' : Set CtxId × Core σ} (hok : HandlerOk P w.2.attr) (hinv : Inv P w)
    (h : Ledger P w.2) (hm : Move P L w w') : Ledger P w'.2 := by
  cases hm with
  | @still A s s' hs =>
    exact h.congr (hs.pool ▸ List.Perm.refl _) hs.events hs.accepted hs.CT hs.conns
      fun c => by rw [(hs.ctx c).1]
  | app => exact h.congr (List.Perm.refl _) rfl rfl rfl rfl fun _ => rfl
  | report => exact h.congr (List.Perm.refl _) rfl rfl rfl rfl fun _ => rfl
  | refuse => exact h.congr (List.Perm.refl _) rfl rfl rfl rfl fun _ => rfl
  | lose _ hask hret hperm =>
    exact h.lose hperm (List.append_assoc _ _ _) rfl rfl rfl rfl
  | @opened A s m e ret e' app c tsc A' hask hret hc hA =>
    have hkey : e'.match_ = e.match_ := (hask.made hret hinv.table.conf hok.keeps).2
    refine h.insert hinv.table hc rfl rfl rfl (hkey ▸ rfl) hask.absent rfl (fun c' hne => ?_) ?_
    · exact Function.update_of_ne hne _ _
    · show (Function.update s.ctx c _ c).entry.match_ = _
      rw [Function.update_self, ← hkey]
      exact fill_entry.1.1
  | rearm => exact h
  | @enqueue A s k c hk hst hen =>
    refine h.congr (List.Perm.refl _) rfl rfl rfl rfl fun c' => ?_
    rw [enqueueConn_ctx, Function.update_apply]
    split
    · next heq =>
      rw [heq]
    · rfl
  | @install A s k c o s₁ hk hst hen hnum hadd =>
    have hmade := hinv.table.made (hinv.table.table hk).1
    obtain ⟨pipe, -, rfl⟩ := hmade.offloadEntry_one hadd
    exact h.congr (List.Perm.refl _) rfl rfl rfl rfl fun c' => toHw_setEntry_match s c _ _ c'
  | @schedule A s i c o s₁ arg s' hmem hmax hadd harg hdel =>
    obtain ⟨hmade, -, rfl, -⟩ := hinv.scheduled hmem hadd harg
    obtain ⟨pipe, -, rfl⟩ := hmade.offloadEntry_one hadd
    obtain ⟨qos, attr, rfl, -⟩ := scheduled_ok hdel
    exact h.congr (List.Perm.refl _) rfl rfl rfl rfl fun c' => toHw_setEntry_match s arg _ _ c'
  | @addFail A s c o s' hin hst hadd =>
    have ha : Alive P s c := hinv.alive_of_waiting hin
    obtain ⟨x, hw, rfl⟩ := (hinv.table.made ha).offloadEntry_fail hadd
    exact h.congr (List.Perm.refl _) rfl rfl rfl rfl fun c' => (setEntry_same s c x hw c').1.1
  | expireSw hc hexp =>
    obtain ⟨hrel, -⟩ := connExpireSw_ok hexp
    exact h.release hinv.table (hinv.table.armed hc) hrel.pool hrel.events hrel.accepted hrel.CT hrel.conns
      hrel.ctx
  | rmEntry => exact h.congr (List.Perm.refl _) rfl rfl rfl rfl fun _ => rfl
  | expireHw hmem hu hrm hcb harg hexp =>
    obtain ⟨ha, -, -, hargs⟩ := hinv.hw.reported hinv.table hok hmem hu hrm hcb
    rw [hargs] at harg
    cases harg
    obtain ⟨hrel, -⟩ := connExpireHw_ok hexp
    exact h.release hinv.table ha hrel.pool hrel.events hrel.accepted hrel.CT hrel.conns hrel.ctx

theorem ledger_boot {a : InitArgs} (ha : a.maxConntrack = P.maxConntrack) (ports : List (ℕ × UInt64))
    (app : σ) : Ledger P (boot a ports app).2 := by
  have hhist : ∀ n, (boot a ports app).2.history n = [] := by
    intro n
    rw [boot_frame]
    rfl
  have hacc : (boot a ports app).2.accepted = 0 := by
    rw [boot_frame]
    rfl
  refine ⟨fun {n} _ => hhist n, fun {c} hc => absurd hc (boot_not_alive ha ports app c),
    fun {n p k} ho => ?_, fun {n} hn => ?_⟩
  · have heq := (hhist n).symm.trans ho
    cases heq
  · rw [hacc] at hn
    omega

/-- The ledger of every run. -/
theorem run_ledger {a : InitArgs} (ha : a.maxConntrack = P.maxConntrack) {ports : List (ℕ × UInt64)}
    {app : σ} (hok : HandlerOk P (boot a ports app).2.attr) {es : List (Event σ ε)}
    (hr : Runs P (boot a ports app) es w) : WorldInv P w ∧ Ledger P w.2 :=
  Runs.inv (Q := fun w => Ledger P w.2) (fun _ _ hok hinv hl hm => ledger_move hok hinv hl hm)
    (worldInv_boot ha ports app hok) (ledger_boot ha ports app) hr

/-! ### Acceptance and aging -/

/-- Every accepted connection is in the table, or it has ended once, after it was accepted. -/
def Paired (w : World σ) : Prop :=
  ∀ n port k, .accepted n port k ∈ w.2.events →
    (w.2.history n = [.accepted n port k] ∧ ∃ c, w.2.CT k = some c ∧ w.2.conns c = ⟨n, port⟩) ∨
    (w.2.history n = [.accepted n port k, .ended n] ∧
      ∀ k' c, w.2.CT k' = some c → (w.2.conns c).id ≠ n)

theorem mem_history {e : ConnEvent} : e ∈ s.history e.conn ↔ e ∈ s.events := by
  unfold Core.history
  simp [List.mem_filter]

/-- Where nothing is lost, a move loses nothing. -/
theorem noLoss_move {w w' : Set CtxId × Core σ} (h : ∀ n, .lost n ∉ w.2.events)
    (hm : Move P ⟨False, True⟩ w w') : ∀ n, .lost n ∉ w'.2.events := by
  intro n
  cases hm with
  | still hs =>
    rw [hs.events]
    exact h n
  | app => exact h n
  | report => exact h n
  | refuse => exact h n
  | lose hL => exact hL.elim
  | @opened A s m e ret e' app c tsc A' =>
    show _ ∉ s.events ++ [.accepted s.accepted m.port e.match_]
    simpa using h n
  | rearm => exact h n
  | enqueue => exact h n
  | install _ _ _ _ hadd =>
    obtain ⟨-, entry, hw, rfl⟩ := offloadEntry_frame hadd
    exact h n
  | schedule _ _ hadd _ hdel =>
    obtain ⟨-, entry, hw, rfl⟩ := offloadEntry_frame hadd
    obtain ⟨qos, attr, rfl, -⟩ := scheduled_ok hdel
    exact h n
  | addFail _ _ hadd =>
    obtain ⟨-, entry, hw, rfl⟩ := offloadEntry_frame hadd
    exact h n
  | expireSw _ hexp =>
    rw [(connExpireSw_ok hexp).1.events]
    simpa using h n
  | rmEntry => exact h n
  | expireHw _ _ _ _ _ hexp =>
    rw [(connExpireHw_ok hexp).1.events]
    simpa using h n

theorem Ledger.paired (h : Ledger P w.2) (hinv : TableInv P A w.2) (hno : ∀ n, .lost n ∉ w.2.events) :
    Paired w := by
  intro n port k hacc
  have hmem : .accepted n port k ∈ w.2.history n := (mem_history (s := w.2)).2 hacc
  obtain ⟨port', k', hcase⟩ := h.closed (h.lt (List.ne_nil_of_mem hmem))
  rcases hcase with ho | hlost | hended
  · have ho' : w.2.history n = [.accepted n port' k'] := ho
    rw [ho'] at hmem
    simp only [List.mem_singleton, ConnEvent.accepted.injEq, true_and] at hmem
    obtain ⟨rfl, rfl⟩ := hmem
    exact .inl ⟨ho, h.opened ho⟩
  · refine absurd ((mem_history (e := .lost n)).1 ?_) (hno n)
    show ConnEvent.lost n ∈ w.2.history n
    rw [hlost]
    simp
  · rw [hended] at hmem
    simp only [List.mem_cons, ConnEvent.accepted.injEq, true_and, reduceCtorEq, List.not_mem_nil,
      or_false] at hmem
    obtain ⟨rfl, rfl⟩ := hmem
    refine .inr ⟨hended, fun k'' c hc heq => ?_⟩
    have ho := h.alive (hinv.table hc).1
    unfold Core.Open at ho
    rw [heq, hended] at ho
    simp at ho

/-- **Acceptance and aging are paired** in every run in which every accepted connection gets a context and
its place in the table. -/
theorem run_paired (P : Params σ ε) {a : InitArgs} (ha : a.maxConntrack = P.maxConntrack)
    (ports : List (ℕ × UInt64)) (app : σ) (hok : HandlerOk P (boot a ports app).2.attr)
    {es : List (Event σ ε)} (hr : RunsWhile P (Room P) (boot a ports app) es w) : Paired w := by
  have hinv : WorldInv P w ∧ Ledger P w.2 ∧ ∀ n, .lost n ∉ w.2.events := by
    refine Trace.inv (P := fun w => WorldInv P w ∧ Ledger P w.2 ∧ ∀ n, .lost n ∉ w.2.events) ?_ hr
      ⟨worldInv_boot ha ports app hok, ledger_boot ha ports app, fun n => ?_⟩
    · rintro w e w' ⟨hw, hl, hno⟩ ⟨hroom, hs⟩
      exact hs.inv (L := ⟨False, True⟩) (Q := fun w => Ledger P w.2 ∧ ∀ n, .lost n ∉ w.2.events)
        (fun _ _ hok hinv hq hm => ⟨ledger_move hok hinv hq.1 hm, noLoss_move hq.2 hm⟩) hw ⟨hl, hno⟩
        (fun hn => hn hroom) fun _ _ => trivial
    · have hframe : (boot a ports app).2.events = [] := by
        simp only [boot]
        rw [initPorts_eq]
        rfl
      rw [hframe]
      exact List.not_mem_nil
  exact hinv.2.1.paired hinv.1.inv.table hinv.2.2

theorem run_paired_accepting : ∃ w, RunsWhile (accepting id) (Room (accepting id))
    (boot oneEntry [(0, AGING ||| SIP)] 0)
    [.packet (packetOf L4_TCP) (offloads 0), .packet (packetOf L4_UDP) (offloads 1),
      .aging fun _ => [(0, true)]] w ∧ w.2.app = 1 ∧ Paired w := by
  obtain ⟨w, happ, hw⟩ : ∃ w, w.2.app = 1 ∧ RunsWhile (accepting id) (Room (accepting id))
      (boot oneEntry [(0, AGING ||| SIP)] 0)
      [.packet (packetOf L4_TCP) (offloads 0), .packet (packetOf L4_UDP) (offloads 1),
        .aging fun _ => [(0, true)]] w :=
    ⟨_, rfl, .cons ⟨fun _ => ⟨rfl, 0, by decide +kernel, rfl⟩, by decide, rfl⟩
      (.cons ⟨fun _ => ⟨rfl, 1, by decide +kernel, rfl⟩, by decide +kernel, rfl⟩
        (.cons ⟨trivial, by decide +kernel, rfl⟩ (.nil _)))⟩
  exact ⟨w, hw, happ, run_paired (accepting id) rfl _ 0 (.inl keepsAll_accepting) hw⟩

/-- Where the table does not take the key of an accepted connection, and where the pool is empty, nobody is
told that the connection is gone: the application counts it for ever. -/
theorem lost_not_paired :
    (∃ w, Runs (accepting id) (boot oneEntry [(0, AGING ||| SIP)] 0)
      [.packet (packetOf L4_TCP) { offloads 0 with hash := false }] w ∧
      w.2.app = 1 ∧ w.2.pool = [0, 1] ∧ ¬ Paired w) ∧
    ∃ w, Runs (accepting id) (boot oneEntry [(0, AGING ||| SIP)] 0)
      [.packet (packetOf L4_TCP) (offloads 0), .packet (packetOf L4_UDP) (offloads 1),
        .packet { packetOf L4_TCP with sport := 9 } { offloads 0 with ctx := none }] w ∧
      w.2.pool = [] ∧ ¬ Paired w := by
  refine ⟨⟨_, .cons ⟨by decide, rfl⟩ (.nil _), rfl, by decide +kernel, fun h => ?_⟩,
    _, .cons ⟨by decide, rfl⟩ (.cons ⟨by decide +kernel, rfl⟩ (.cons ⟨by decide +kernel, rfl⟩ (.nil _))),
    by decide +kernel, fun h => ?_⟩
  · rcases h 0 0 _ List.mem_cons_self with ⟨hhist, -⟩ | ⟨hhist, -⟩
    · revert hhist
      decide +kernel
    · revert hhist
      decide +kernel
  · rcases h 2 0 _ (List.mem_cons_of_mem _ (List.mem_cons_of_mem _ List.mem_cons_self)) with
      ⟨hhist, -⟩ | ⟨hhist, -⟩
    · revert hhist
      decide +kernel
    · revert hhist
      decide +kernel

/-! ### The port of a packet -/

/-- **A packet gets a context of its own port**, is rewritten with the action flags of the port and leaves
by the other one, if and only if no open connection from another port has its key. -/
theorem packet_port_iff (P : Params σ ε) {a : InitArgs} (ha : a.maxConntrack = P.maxConntrack)
    (ports : List (ℕ × UInt64)) (app : σ) (hok : HandlerOk P (boot a ports app).2.attr)
    {es : List (Event σ ε)} (hr : Runs P (boot a ports app) es w) (hclock : w.1.timeout < 2 ^ 64 - 2 ^ 36)
    {m : Mbuf} {env : PacketEnv ε} {v : Verdict}
    (hrun : conntrackPacketProcessor P m env w = .ok (v, w')) (hc : v.ctx = some c) :
    ((w'.2.conns c).port = m.port ∧
      (∃ x : ConnContext, x.entry.action.flags = w.2.attr.ActionFlags m.port ∧ v.m = rewrite m x) ∧
      v.action = (m.port ^^^ 1 : ℕ) ∧ v.action ≠ m.port) ↔
    ∀ e n port, packetParser w.2.attr m = some e → w.2.Open n port e.match_ → port = m.port := by
  obtain ⟨hinv, hl⟩ := run_ledger ha hok hr
  obtain ⟨-, hctx⟩ := packet_goes (L := ⟨True, True⟩) hinv.ok hinv.inv hinv.mgr (by omega) (fun _ => trivial)
    hrun
  obtain ⟨-, e, hparse, hcase, -, ⟨x, hx, hm⟩, hact⟩ := hctx c hc
  constructor
  · rintro ⟨hport, -⟩ e' n port hparse' ho
    rw [hparse] at hparse'
    cases hparse'
    obtain ⟨c', hk, hconn⟩ := hl.opened ho
    rcases hcase with ⟨hk', hconns⟩ | ⟨hk', -⟩
    · rw [hk'] at hk
      cases hk
      rw [hconns, hconn] at hport
      exact hport
    · rw [hk'] at hk
      cases hk
  · intro h
    have hport : (w'.2.conns c).port = m.port := by
      rcases hcase with ⟨hk, hconns⟩ | ⟨-, hconns⟩
      · obtain ⟨halive, hmatch⟩ := hinv.inv.table.table hk
        rw [hconns]
        refine h e (w.2.conns c).id _ hparse ?_
        rw [← hmatch]
        exact hl.alive halive
      · rw [hconns]
    refine ⟨hport, ⟨x, ?_, hm⟩, ?_, ?_⟩
    · rw [hx, hport]
    · rw [hact, hport]
    · rw [hact, hport]
      intro heq
      have hxor : m.port ^^^ 1 = m.port := Int.ofNat.inj heq
      have hone : m.port ^^^ (m.port ^^^ 1) = 1 := by rw [← Nat.xor_assoc, Nat.xor_self, Nat.zero_xor]
      rw [hxor, Nat.xor_self] at hone
      omega

theorem packet_port_accepting : ∃ w w' v, Runs (accepting id) (boot oneEntry [(0, AGING ||| SIP)] 0)
      [.packet (packetOf L4_TCP) (offloads 0)] w ∧
    conntrackPacketProcessor (accepting id) (packetOf L4_TCP) (offloads 0) w = .ok (v, w') ∧
    v.ctx = some 0 ∧
    (((w'.2.conns 0).port = 0 ∧
      (∃ x : ConnContext, x.entry.action.flags = w.2.attr.ActionFlags 0 ∧
        v.m = rewrite (packetOf L4_TCP) x) ∧ v.action = ((0 ^^^ 1 : ℕ) : ℤ) ∧ v.action ≠ 0) ↔
    ∀ e n port, packetParser w.2.attr (packetOf L4_TCP) = some e → w.2.Open n port e.match_ →
      port = 0) := by
  obtain ⟨w, w', v, hr, hclock, hrun, hc⟩ : ∃ w w' v,
      Runs (accepting id) (boot oneEntry [(0, AGING ||| SIP)] 0)
        [.packet (packetOf L4_TCP) (offloads 0)] w ∧ w.1.timeout < 2 ^ 64 - 2 ^ 36 ∧
      conntrackPacketProcessor (accepting id) (packetOf L4_TCP) (offloads 0) w = .ok (v, w') ∧
      v.ctx = some 0 :=
    ⟨_, _, _, .cons ⟨by decide, rfl⟩ (.nil _), by decide +kernel, rfl, rfl⟩
  exact ⟨w, w', v, hr, hrun, hc, packet_port_iff (accepting id) rfl _ 0 (.inl keepsAll_accepting) hr hclock
    hrun hc⟩

/-- The key has no port: a packet from port 1 with the header of an open connection from port 0 is given
the context of that connection, and is sent out of the port that it came from. -/
theorem packet_of_other_port :
    ∃ w w' v, Runs (accepting id) (boot oneEntry [(0, AGING ||| SIP), (1, AGING ||| DIP)] 0)
        [.packet (packetOf L4_TCP) (offloads 0)] w ∧
      conntrackPacketProcessor (accepting id) { packetOf L4_TCP with port := 1 } (offloads 0) w =
        .ok (v, w') ∧
      v.ctx = some 0 ∧ (w'.2.conns 0).port = 0 ∧ v.action = 1 :=
  ⟨_, _, _, .cons ⟨by decide, rfl⟩ (.nil _), rfl, rfl, by decide +kernel, by decide +kernel⟩

end FlowQoS.Conntrack
