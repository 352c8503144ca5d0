import FlowQoS.Conntrack.Step

/-!
# Which connections an event ends

A packet of a connection that is in the table leaves every connection as it is (`Quiet`). A tick and an
aging poll put contexts back to the pool, one after the other, and nothing else happens to the connections
(`Ends`). Which contexts these are can be told from the state before the event (`Ending`): those whose
timer is due, or whose entry the hardware reports and the driver removes.

* `forward_quiet`: a packet of a connection;
* `tick_ends`, `connAgingHandle_ends`: a tick and a poll end exactly these connections.
-/

set_option linter.unusedSectionVars false

namespace FlowQoS.Conntrack

open Lib Pipe Timer

variable {σ ε : Type} {P : Params σ ε} {w w' : World σ} {mgr : Mgr} {A : Set CtxId} {s s' s'' : Core σ}
  {c : CtxId} {cs : List CtxId} {m : Mbuf} {env : PacketEnv ε}

/-- Nothing happens to the connections and to the application. -/
structure Quiet (s s' : Core σ) : Prop where
  pool : s'.pool = s.pool
  CT : s'.CT = s.CT
  conns : s'.conns = s.conns
  app : s'.app = s.app
  entry : ∀ c, SameEntry (s.ctx c).entry (s'.ctx c).entry

/-- The contexts go back to the pool one after the other, each with the call of `agingConn_handler`. -/
inductive Ends (P : Params σ ε) : Core σ → List CtxId → Core σ → Prop
  | nil {s s' : Core σ} : Quiet s s' → Ends P s [] s'
  | cons {s s₀ s₁ s' : Core σ} {c : CtxId} {cs : List CtxId} : Quiet s s₀ → Alive P s c →
      Released P s₀ s₁ c → Ends P s₁ cs s' → Ends P s (c :: cs) s'

/-- The hardware entry of the context is reported as aged, and the driver removes it. -/
structure Aged (P : Params σ ε) (s : Core σ) (reports : List (Handle × Bool)) (c : CtxId) : Prop where
  alive : Alive P s c
  offloaded : (s.ctx c).ct_state = .HW_FWD_STATE
  reported : ∃ h, (s.ctx c).entry.entry = some h ∧ (h, true) ∈ reports

/-- The event ends the connection of the context. -/
def Ending (P : Params σ ε) (w : World σ) (c : CtxId) : Event σ ε → Prop
  | .tick rdtsc => (w.1.startStmp + w.1.timeout * P.GAP) % 2 ^ 64 < rdtsc ∧ (alarms w.1).Due c
  | .aging reports => ∃ i < maxEthPorts, w.2.attr.PORT_CT_ENABLED i ∧ Aged P w.2 (reports i) c
  | _ => False

/-! ### Quiet steps -/

theorem Quiet.refl (s : Core σ) : Quiet s s := ⟨rfl, rfl, rfl, rfl, fun _ => SameEntry.refl _⟩

theorem Quiet.trans (h : Quiet s s') (h' : Quiet s' s'') : Quiet s s'' where
  pool := h'.pool.trans h.pool
  CT := h'.CT.trans h.CT
  conns := h'.conns.trans h.conns
  app := h'.app.trans h.app
  entry c := ⟨(h'.entry c).1.trans (h.entry c).1, (h'.entry c).2.1.trans (h.entry c).2.1,
    (h'.entry c).2.2.trans (h.entry c).2.2⟩

theorem Quiet.alive (h : Quiet s s') : Alive P s' c ↔ Alive P s c := by
  unfold Alive
  rw [h.pool]

/-- A context whose entry stays what it is. -/
theorem quiet_setCtx {x : ConnContext} (hx : SameEntry (s.ctx c).entry x.entry) :
    Quiet s (s.setCtx c x) := by
  refine ⟨rfl, rfl, rfl, rfl, fun c' => ?_⟩
  have hctx : (s.setCtx c x).ctx = Function.update s.ctx c x := rfl
  rw [hctx, Function.update_apply]
  split
  · next heq =>
    rw [heq]
    exact hx
  · exact SameEntry.refl _

theorem Made.quiet {attr : ConnAttr} {p : ℕ} (hm : Made attr p (s.ctx c).entry) {o : Outcome} {ret : ℤ}
    (h : Conntrack.offloadEntry s c o = .ok (ret, s')) : Quiet s s' := by
  obtain ⟨pipe, -, -, rfl⟩ := hm.offloadEntry h
  exact ⟨rfl, rfl, rfl, rfl, fun c' => (setEntry_same s c _ _ c').1⟩

/-- Offloading leaves the match, the pipe and the actions of every context alone. -/
theorem offloadConn_quiet {attr : ConnAttr} {p : ℕ} (hmade : Made attr p (w.2.ctx c).entry)
    (h : offloadConn w c env = .ok w') : Quiet w.2 w'.2 := by
  obtain ⟨mgr, s⟩ := w
  obtain ⟨attr₁, -, hcase⟩ := offloadConn_cases h
  generalize (shouldOffloadCt attr₁ (s.ctx c) env.offload_tsc).2 = attr' at hcase
  have hattr : Quiet s { s with attr := attr' } := ⟨rfl, rfl, rfl, rfl, fun _ => SameEntry.refl _⟩
  cases hcase with
  | stay heq =>
    subst heq
    exact hattr
  | enqueue hst hen heq =>
    subst heq
    refine ⟨rfl, rfl, rfl, rfl, fun c' => ?_⟩
    rw [enqueueConn_ctx, Function.update_apply]
    split
    · next heq =>
      rw [heq]
      exact ⟨rfl, rfl, rfl⟩
    · exact SameEntry.refl _
  | install hst hen hnum ret s₁ hadd hret heq =>
    subst heq
    have hq : Quiet s s₁ := hattr.trans (Made.quiet (s := { s with attr := attr' }) hmade hadd)
    have hhw : Quiet s₁ (s₁.toHw c) := quiet_setCtx (SameEntry.refl _)
    refine hq.trans (hhw.trans ?_)
    exact ⟨rfl, rfl, rfl, rfl, fun _ => SameEntry.refl _⟩
  | fail hst s₁ hadd heq =>
    subst heq
    exact hattr.trans (Made.quiet (s := { s with attr := attr' }) hmade hadd)

theorem flushTimer_quiet (h : flushTimer w c env = .ok w') : Quiet w.2 w'.2 := by
  obtain ⟨-, r, -, rfl⟩ | rfl := flushTimer_cases h
  · exact quiet_setCtx (SameEntry.refl _)
  · exact Quiet.refl _

/-- **A packet of a connection** leaves the connections as they are. -/
theorem forward_quiet {attr : ConnAttr} {p : ℕ} (hmade : Made attr p (w.2.ctx c).entry) {v : Verdict}
    (h : forward m w c env = .ok (v, w')) : Quiet w.2 w'.2 := by
  obtain ⟨mgr, s⟩ := w
  obtain ⟨w₁, pipe, hoff, -, hflush, -⟩ := forward_cases h
  have hcount : Quiet s (s.setCtx c { s.ctx c with pktCount := (s.ctx c).pktCount + 1 }) :=
    quiet_setCtx (SameEntry.refl _)
  have hoffload := offloadConn_quiet (hmade.congr (SameConfig.refl _) (hcount.entry c)) hoff
  exact (hcount.trans hoffload).trans (flushTimer_quiet hflush)

/-! ### Contexts that go back to the pool -/

theorem Released.alive (h : Released P s s' c) {c' : CtxId} :
    Alive P s' c' ↔ Alive P s c' ∧ c' ≠ c := alive_cons h.pool

/-- What `Ends` does to the contexts. -/
theorem Ends.spec (h : Ends P s cs s') : s'.conns = s.conns ∧
    (∀ c, SameEntry (s.ctx c).entry (s'.ctx c).entry) ∧
    ∀ c, Alive P s' c ↔ Alive P s c ∧ c ∉ cs := by
  induction h with
  | nil hq =>
    refine ⟨hq.conns, hq.entry, fun c => ?_⟩
    rw [hq.alive]
    simp
  | @cons s s₀ s₁ s' c cs hq _ hrel _ ih =>
    obtain ⟨hconns, hentry, halive⟩ := ih
    refine ⟨hconns.trans (hrel.conns.trans hq.conns), fun c' => ?_, fun c' => ?_⟩
    · obtain ⟨h1, h2, h3⟩ := hentry c'
      rw [hrel.ctx] at h1 h2 h3
      obtain ⟨h4, h5, h6⟩ := hq.entry c'
      exact ⟨h1.trans h4, h2.trans h5, h3.trans h6⟩
    · rw [halive, hrel.alive, hq.alive, List.mem_cons]
      tauto

theorem Ends.quiet (h : Quiet s s') (he : Ends P s' cs s'') : Ends P s cs s'' := by
  cases he with
  | nil hq => exact .nil (h.trans hq)
  | cons hq ha hrel hrest => exact .cons (h.trans hq) (h.alive.1 ha) hrel hrest

theorem Ends.append {cs' : List CtxId} (h : Ends P s cs s') (h' : Ends P s' cs' s'') :
    Ends P s (cs ++ cs') s'' := by
  induction h with
  | nil hq => exact h'.quiet hq
  | cons hq ha hrel _ ih => exact .cons hq ha hrel (ih h')

/-! ### Contexts that are opened -/

/-- A context is taken from the pool for a connection from port `p` and filled with its entry. -/
structure Opened (P : Params σ ε) (s s' : Core σ) (c : CtxId) (p : ℕ) (e : FlowQoSEntry) : Prop where
  free : ¬ Alive P s c
  alive : ∀ {c'}, Alive P s' c' ↔ Alive P s c' ∨ c' = c
  ctx : ∀ {c'}, c' ≠ c → s'.ctx c' = s.ctx c'
  conns : ∀ {c'}, c' ≠ c → s'.conns c' = s.conns c'
  entry : SameEntry e (s'.ctx c).entry
  port : (s'.conns c).port = p

theorem TableInv.insert_opened (h : TableInv P A s) (hc : c ∈ s.pool) {e e' : FlowQoSEntry} {app : σ}
    {tsc : UInt64} :
    Opened P s ((s.accept m.port e.match_ app).insert c e' ⟨s.accepted, m.port⟩ tsc) c m.port e' where
  free ha := ha.2 hc
  alive := alive_erase h.pool_nodup hc (h.pool_lt hc) rfl
  ctx hne := Function.update_of_ne hne _ _
  conns hne := Function.update_of_ne hne _ _
  entry := by
    have hctx : ((s.accept m.port e.match_ app).insert c e' ⟨s.accepted, m.port⟩ tsc).ctx c =
        (s.ctx c).fill c e' tsc := Function.update_self _ _ _
    rw [hctx]
    exact fill_entry.1
  port := by
    have hconns : ((s.accept m.port e.match_ app).insert c e' ⟨s.accepted, m.port⟩ tsc).conns c =
        ⟨s.accepted, m.port⟩ := Function.update_self _ _ _
    rw [hconns]

/-! ### Ticks -/

theorem fires_ends (hmgr : MgrInv mgr) : ∀ (due : List (Mgr × CtxId)) (s : Core σ) {s' : Core σ},
    (due.map Prod.snd).Nodup → (∀ x ∈ due, SameCallbacks mgr x.1 ∧ Alive P s x.2) →
    due.foldlM (fire (fired P)) s = .ok s' → Ends P s (due.map Prod.snd) s'
  | [], s, _, _, _, hrun => by
    cases hrun
    exact .nil (Quiet.refl _)
  | x :: due, s, s', hnd, hdue, hrun => by
    rw [List.foldlM_cons] at hrun
    obtain ⟨s₁, hfire, hrun⟩ := bind_eq_ok.1 hrun
    obtain ⟨hsame, hx⟩ := hdue x List.mem_cons_self
    rw [List.map_cons, List.nodup_cons] at hnd
    obtain ⟨hrel, -⟩ := connExpireSw_ok (fire_expires hmgr hsame hfire)
    refine .cons (Quiet.refl _) hx hrel (fires_ends hmgr due s₁ hnd.2 (fun y hy => ?_) hrun)
    obtain ⟨hs, hy'⟩ := hdue y (List.mem_cons_of_mem _ hy)
    refine ⟨hs, hrel.alive.2 ⟨hy', fun heq => hnd.1 ?_⟩⟩
    rw [← heq]
    exact List.mem_map_of_mem hy

/-- **A tick ends the connections whose timers are due.** -/
theorem tick_ends (h : Inv P (view w)) (hmgr : MgrInv w.1) (hT : w.1.timeout + 68719476735 < 2 ^ 64)
    {rdtsc n : ℕ} (hrun : flowQoSTimerTick (timerCallback P) (P.maxConntrack + 1) P.GAP rdtsc w =
      .ok (n, w')) : ∃ cs, Ends P w.2 cs w'.2 ∧ ∀ c, c ∈ cs ↔ Ending P w c (.tick rdtsc) := by
  unfold flowQoSTimerTick at hrun
  unfold Ending
  split at hrun
  · next hbehind =>
    obtain ⟨mgr, s⟩ := w
    obtain ⟨mgr', due, htick, hnd, hdue, hsame, -, -⟩ :=
      hmgr.timerTick (n := P.maxConntrack) inert_timerCallback hT fun t ht => (h.table.armed ht).1
    rw [htick] at hrun
    obtain ⟨s₁, hfold, heq⟩ := map_eq_ok.1 hrun
    cases heq
    refine ⟨_, fires_ends hmgr due s hnd (fun x hx => ⟨hsame x hx, ?_⟩) hfold, fun c => ?_⟩
    · obtain ⟨p, hp⟩ := (hdue x.2).1 (List.mem_map_of_mem hx)
      refine h.table.armed ?_
      show x.2 ∈ armedSet mgr
      rw [mem_armedSet, hp]
      rfl
    · rw [hdue]
      exact ⟨fun hd => ⟨hbehind, hd⟩, fun hd => hd.2⟩
  · next hnot =>
    cases hrun
    exact ⟨[], .nil (Quiet.refl _), fun c => ⟨fun hc => absurd hc List.not_mem_nil,
      fun hc => absurd hc.1 hnot⟩⟩

/-! ### Aging polls -/

/-- A context in the hardware has an entry there, with its handle. -/
theorem HwInv.entry_of (h : HwInv P A s) (hat : Attaches s.attr) (ha : Alive P s c)
    (hst : (s.ctx c).ct_state = .HW_FWD_STATE) :
    ∃ e ∈ s.hw.entries, e.user_data = some c ∧ (s.ctx c).entry.entry = some e.handle := by
  obtain ⟨-, e, he, hu⟩ := h.offloaded hat ha hst
  exact ⟨e, he, hu, h.handle_eq hat he hu⟩

/-- An aged entry ends the connection of its context, unless the driver cannot remove it or it has been
removed before. -/
theorem agedStep_cases (h : Inv P (A, s)) (hat : Attaches s.attr) {aged : HwEntry × Bool}
    {all left : List HwEntry} (hpoll : PollInv all (aged.1 :: left) s)
    (hrun : agedStep P s aged = .ok s') :
    (s' = s ∧ ¬ (aged.2 = true ∧ aged.1 ∈ s.hw.entries)) ∨
      ∃ c hw, aged.2 = true ∧ aged.1 ∈ s.hw.entries ∧ aged.1.user_data = some c ∧
        Released P { s with hw := hw } s' c := by
  obtain ⟨c, hu, hcase⟩ := agedStep_ok hrun
  have hx := (hpoll.left _ List.mem_cons_self).2 c hu
  obtain ⟨hrm, rfl⟩ | ⟨hw, hrm, hcase⟩ := hcase
  · refine .inl ⟨rfl, fun hin => ?_⟩
    rw [hx, Hardware.rmEntry, if_pos ⟨hin.1, ⟨_, hin.2, rfl⟩⟩] at hrm
    cases hrm
  · have hmem : aged.1 ∈ s.hw.entries := hpoll.removed hu hrm
    have hok : aged.2 = true := by
      rw [hx] at hrm
      unfold Hardware.rmEntry at hrm
      simp only at hrm
      split at hrm
      · next hin => exact hin.1
      · cases hrm
    obtain ⟨c', hu', ha, -⟩ := h.hw.exact hat _ hmem
    rw [hu] at hu'
    cases hu'
    have hmade : Made s.attr (s.conns c).port (s.ctx c).entry := h.table.made ha
    obtain ⟨hcb, hargs, -⟩ := h.hw.cb ha fun heq => hat _ hmade.enabled (hmade.flags.symm.trans heq)
    obtain ⟨hnone, -⟩ | ⟨-, arg, harg, hexp⟩ := hcase
    · rw [hnone] at hcb
      cases hcb
    · rw [hargs] at harg
      cases harg
      exact .inr ⟨c, hw, hok, hmem, hu, (connExpireHw_ok hexp).1⟩

/-- **The entries of a poll** end the connections of the contexts they belong to. -/
theorem agedSteps_ends {all : List HwEntry} : ∀ (left : List (HwEntry × Bool)) (s : Core σ) {s' : Core σ},
    HandlerOk P s.attr → Inv P (A, s) → Attaches s.attr → PollInv all (left.map Prod.fst) s →
    left.foldlM (agedStep P) s = .ok s' → ∃ cs, Ends P s cs s' ∧ s'.ctx = s.ctx ∧ ∀ c, c ∈ cs ↔
      Aged P s (left.map fun a => (a.1.handle, a.2)) c
  | [], s, _, _, _, _, _, hrun => by
    cases hrun
    refine ⟨[], .nil (Quiet.refl _), rfl, fun c => ⟨fun hc => absurd hc List.not_mem_nil, fun hc => ?_⟩⟩
    obtain ⟨h, -, hin⟩ := hc.reported
    exact absurd hin List.not_mem_nil
  | aged :: left, s, s', hok, h, hat, hpoll, hrun => by
    rw [List.foldlM_cons] at hrun
    obtain ⟨s₁, hstep, hrun⟩ := bind_eq_ok.1 hrun
    obtain ⟨hmoves, hattr, hpoll₁⟩ := agedStep_moves (A := A) (L := ⟨True, True⟩) (fun _ => hpoll) hstep
    have hat₁ : Attaches s₁.attr := (attaches_congr hattr).2 hat
    obtain ⟨cs, hends, hctx, hcs⟩ := agedSteps_ends left s₁ (hok.congr hattr) (inv_moves hok h hmoves)
      hat₁ (hpoll₁ hat₁) hrun
    -- a context in the hardware with the handle of the aged entry is the one of the entry
    have hhead : ∀ {c}, Alive P s c → (s.ctx c).ct_state = .HW_FWD_STATE →
        (s.ctx c).entry.entry = some aged.1.handle → aged.1 ∈ s.hw.entries ∧ aged.1.user_data = some c := by
      intro c ha hst hx
      obtain ⟨e, he, hu, hx'⟩ := h.hw.entry_of hat ha hst
      rw [hx, Option.some.injEq] at hx'
      have heq : e = aged.1 := List.inj_on_of_nodup_map hpoll.nodup (hpoll.sub e he)
        (hpoll.left _ List.mem_cons_self).1 hx'.symm
      rw [← heq]
      exact ⟨he, hu⟩
    rcases agedStep_cases h hat hpoll hstep with ⟨rfl, hno⟩ | ⟨c₀, hw, htrue, hmem, hu, hrel⟩
    · refine ⟨cs, hends, hctx, fun c => ?_⟩
      rw [hcs]
      constructor
      · rintro ⟨ha, hst, x, hx, hin⟩
        exact ⟨ha, hst, x, hx, List.mem_cons_of_mem _ hin⟩
      · rintro ⟨ha, hst, x, hx, hin⟩
        refine ⟨ha, hst, x, hx, ?_⟩
        rcases List.mem_cons.1 hin with heq | hin
        · rw [Prod.mk.injEq] at heq
          rw [heq.1] at hx
          exact absurd ⟨heq.2.symm, (hhead ha hst hx).1⟩ hno
        · exact hin
    · obtain ⟨c₁, hu₁, ha₀, hst₀, -, hx₀⟩ := h.hw.exact hat _ hmem
      rw [hu] at hu₁
      cases hu₁
      have hquiet : Quiet s ({ s with hw := hw } : Core σ) :=
        ⟨rfl, rfl, rfl, rfl, fun _ => SameEntry.refl _⟩
      have hctx₁ : s₁.ctx = s.ctx := hrel.ctx
      have halive : ∀ {c}, Alive P s₁ c ↔ Alive P s c ∧ c ≠ c₀ := hrel.alive
      refine ⟨c₀ :: cs, .cons hquiet ha₀ hrel hends, hctx.trans hctx₁, fun c => ?_⟩
      rw [List.mem_cons, hcs]
      constructor
      · rintro (rfl | ⟨ha, hst, x, hx, hin⟩)
        · exact ⟨ha₀, hst₀, _, hx₀, List.mem_cons.2 (.inl (by simp only [htrue]))⟩
        · rw [hctx₁] at hst hx
          exact ⟨(halive.1 ha).1, hst, x, hx, List.mem_cons_of_mem _ hin⟩
      · rintro ⟨ha, hst, x, hx, hin⟩
        by_cases heq : c = c₀
        · exact .inl heq
        · refine .inr ⟨halive.2 ⟨ha, heq⟩, by rw [hctx₁]; exact hst, x, by rw [hctx₁]; exact hx, ?_⟩
          rcases List.mem_cons.1 hin with heq' | hin
          · rw [Prod.mk.injEq] at heq'
            rw [heq'.1] at hx
            have hu' := (hhead ha hst hx).2
            rw [hu, Option.some.injEq] at hu'
            exact absurd hu'.symm heq
          · exact hin

theorem agingHandle_ends (hok : HandlerOk P s.attr) (h : Inv P (A, s)) (hat : Attaches s.attr)
    {reports : List (Handle × Bool)} (hrun : agingHandle P reports s = .ok s') :
    ∃ cs, Ends P s cs s' ∧ s'.ctx = s.ctx ∧ ∀ c, c ∈ cs ↔ Aged P s reports c := by
  unfold agingHandle at hrun
  set s₁ : Core σ := { s with hw := s.hw.report (reports.map Prod.fst) } with hs₁
  have hmove : Move P ⟨True, True⟩ (A, s) (A, s₁) := .report _ trivial
  have h₁ : Inv P (A, s₁) := inv_move hok h hmove
  have hpoll : PollInv s₁.hw.entries ((agedEntries s₁.hw reports).map Prod.fst) s₁ := by
    refine ⟨h₁.hw.nodup, fun e he => he, fun e he => ?_⟩
    obtain ⟨a, ha, rfl⟩ := List.mem_map.1 he
    have hmem := (mem_agedEntries ha).1
    exact ⟨hmem, fun c hu => h₁.hw.handle_eq hat hmem hu⟩
  obtain ⟨cs, hends, hctx, hcs⟩ := agedSteps_ends _ s₁ hok h₁ hat hpoll hrun
  have hreport : Quiet s s₁ := ⟨rfl, rfl, rfl, rfl, fun _ => SameEntry.refl _⟩
  refine ⟨cs, hends.quiet hreport, hctx, fun c => ?_⟩
  rw [hcs]
  constructor
  · rintro ⟨ha, hst, x, hx, hin⟩
    refine ⟨ha, hst, x, hx, ?_⟩
    obtain ⟨a, ha', heq⟩ := List.mem_map.1 hin
    rw [← heq]
    exact (mem_agedEntries ha').2
  · rintro ⟨ha, hst, x, hx, hin⟩
    refine ⟨ha, hst, x, hx, ?_⟩
    -- the entry of the context is found under its handle
    obtain ⟨e, he, -, hx'⟩ := h₁.hw.entry_of hat ha hst
    have hfind : (s₁.hw.entries.find? fun e => e.handle == x).isSome := by
      rw [List.find?_isSome]
      refine ⟨e, he, ?_⟩
      rw [beq_iff_eq]
      have hx₁ : some x = some e.handle := hx.symm.trans hx'
      exact (Option.some.inj hx₁).symm
    obtain ⟨e', he'⟩ := Option.isSome_iff_exists.1 hfind
    have hhandle : e'.handle = x := by simpa using List.find?_some he'
    refine List.mem_map.2 ⟨(e', true), List.mem_filterMap.2 ⟨(x, true), hin, ?_⟩, by rw [hhandle]⟩
    rw [he']
    rfl

theorem ports_ends {reports : ℕ → List (Handle × Bool)} : ∀ (is : List ℕ) (s : Core σ) {s' : Core σ},
    HandlerOk P s.attr → Inv P (A, s) → Attaches s.attr →
    is.foldlM (fun s i => agingHandle P (reports i) s) s = .ok s' → ∃ cs, Ends P s cs s' ∧
      ∀ c, c ∈ cs ↔ ∃ i ∈ is, Aged P s (reports i) c
  | [], s, _, _, _, _, hrun => by
    cases hrun
    refine ⟨[], .nil (Quiet.refl _), fun c => ⟨fun hc => absurd hc List.not_mem_nil, ?_⟩⟩
    rintro ⟨i, hi, -⟩
    exact absurd hi List.not_mem_nil
  | i :: is, s, s', hok, h, hat, hrun => by
    rw [List.foldlM_cons] at hrun
    obtain ⟨s₁, hstep, hrun⟩ := bind_eq_ok.1 hrun
    obtain ⟨cs, hends, hctx, hcs⟩ := agingHandle_ends hok h hat hstep
    have hmoves := agingHandle_moves (L := ⟨True, True⟩) trivial h hok hstep
    have hattr := Moves.sameConfig hmoves
    obtain ⟨cs', hends', hcs'⟩ := ports_ends is s₁ (hok.congr hattr) (inv_moves hok h hmoves)
      ((attaches_congr hattr).2 hat) hrun
    refine ⟨cs ++ cs', hends.append hends', fun c => ?_⟩
    rw [List.mem_append, hcs, hcs']
    constructor
    · rintro (hc | ⟨j, hj, ha, hst, x, hx, hin⟩)
      · exact ⟨i, List.mem_cons_self, hc⟩
      · rw [hctx] at hst hx
        exact ⟨j, List.mem_cons_of_mem _ hj, ((hends.spec.2.2 c).1 ha).1, hst, x, hx, hin⟩
    · rintro ⟨j, hj, hc⟩
      rcases List.mem_cons.1 hj with rfl | hj
      · exact .inl hc
      · by_cases hin : c ∈ cs
        · exact .inl ((hcs c).1 hin)
        · obtain ⟨ha, hst, x, hx, hr⟩ := hc
          exact .inr ⟨j, hj, (hends.spec.2.2 c).2 ⟨ha, hin⟩, by rw [hctx]; exact hst, x,
            by rw [hctx]; exact hx, hr⟩

/-- **An aging poll ends the connections whose entries age.** -/
theorem connAgingHandle_ends (hok : HandlerOk P w.2.attr) (h : Inv P (view w)) (hat : Attaches w.2.attr)
    {reports : ℕ → List (Handle × Bool)} (hrun : connAgingHandle P reports w.2 = .ok s') :
    ∃ cs, Ends P w.2 cs s' ∧ ∀ c, c ∈ cs ↔ Ending P w c (.aging reports) := by
  obtain ⟨cs, hends, hcs⟩ := ports_ends _ w.2 hok h hat hrun
  refine ⟨cs, hends, fun c => ?_⟩
  rw [hcs]
  constructor
  · rintro ⟨i, hi, hc⟩
    obtain ⟨hlt, hen⟩ := List.mem_filter.1 hi
    exact ⟨i, List.mem_range.1 hlt, hen, hc⟩
  · rintro ⟨i, hlt, hen, hc⟩
    exact ⟨i, List.mem_filter.2 ⟨List.mem_range.2 hlt, hen⟩, hc⟩

end FlowQoS.Conntrack
