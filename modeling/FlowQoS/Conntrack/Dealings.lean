import FlowQoS.Conntrack.Waiting
import FlowQoS.Conntrack.Endings
import Mathlib.Data.Multiset.AddSub
import Mathlib.Data.Finset.Range

/-!
# What the tracker tells the application

To the application the tracker is a sequence of calls: `newConn_handler` for packets that belong to no
connection, and `agingConn_handler` for connections that have ended. `Dealing` is one such call for an
application that keeps account of its connections, each of them known by its match and its actions
(`label`): only a connection that has been accepted is ended, and only once. The tracker refines this
(`run_dealings`): what is held are the connections of the contexts in use, and those that have been accepted
but lost, for want of a context or of a place in the table; of those the application never hears again.
-/

namespace FlowQoS.Conntrack

open Lib Pipe Timer

variable {σ ε : Type} {P : Params σ ε} {L : Allowed} {w w' w₁ : World σ} {s s' s₁ : Core σ} {c : CtxId} {i : ℕ}
  {cs : List CtxId} {m : Mbuf} {env : PacketEnv ε} {outcome : CtxId → Outcome}

/-! ### The account of an application -/

/-- What an application knows a connection by. -/
abbrev Label := FlowQoSMatch × FlowQoSAction

def label (e : FlowQoSEntry) : Label := (e.match_, e.action)

/-- The state of an application, and the connections that it has accepted and not seen the end of. -/
structure Account (σ : Type) where
  app : σ
  held : Multiset Label

/-- The call of `agingConn_handler`, where it is registered. -/
def Aging (P : Params σ ε) (e : FlowQoSEntry) (app app' : σ) : Prop :=
  match P.agingConn_handler with
  | none => app' = app
  | some agingConn_handler => agingConn_handler e app = .ok app'

/-- **A call** of a handler. `G` is what the environment of a call of `newConn_handler` is relied on for, and
`attr` has the configuration of the ports. -/
inductive Dealing (P : Params σ ε) (G : ε → FlowQoSEntry → σ → Prop) (attr : ConnAttr) :
    Account σ → Account σ → Prop
  | refuse {a : Account σ} {m : Mbuf} {f x e ret e' app} : attr.PORT_CT_ENABLED m.port →
      packetParser attr m = some e → P.newConn_handler = some f → G x e a.app →
      f x e a.app = .ok (ret, e', app) → ret < 0 → Dealing P G attr a { a with app := app }
  | accept {a : Account σ} {m : Mbuf} {f x e ret e' app} : attr.PORT_CT_ENABLED m.port →
      packetParser attr m = some e → P.newConn_handler = some f → G x e a.app →
      f x e a.app = .ok (ret, e', app) → 0 ≤ ret →
      Dealing P G attr a { app := app, held := label e' ::ₘ a.held }
  | finish {a : Account σ} {e : FlowQoSEntry} {app} : label e ∈ a.held → Aging P e a.app app →
      Dealing P G attr a { app := app, held := a.held.erase (label e) }

/-- The calls of a run. -/
abbrev Dealings (P : Params σ ε) (G : ε → FlowQoSEntry → σ → Prop) (attr : ConnAttr) :
    Account σ → Account σ → Prop :=
  Relation.ReflTransGen (Dealing P G attr)

/-! ### The contexts in use -/

/-- The contexts that are not in the pool. -/
def inUse (P : Params σ ε) (s : Core σ) : Finset CtxId :=
  (Finset.range P.maxConntrack).filter (· ∉ s.pool)

theorem mem_inUse : c ∈ inUse P s ↔ Alive P s c := by
  unfold inUse Alive
  rw [Finset.mem_filter, Finset.mem_range]

/-- The labels of the connections of the contexts in use. -/
def labels (P : Params σ ε) (s : Core σ) : Multiset Label := (inUse P s).val.map fun c => label (s.ctx c).entry

theorem label_same {e e' : FlowQoSEntry} (h : SameEntry e e') : label e' = label e :=
  Prod.ext h.1 h.2.2

theorem labels_congr (halive : ∀ c, Alive P s' c ↔ Alive P s c)
    (hentry : ∀ c, SameEntry (s.ctx c).entry (s'.ctx c).entry) : labels P s' = labels P s := by
  have huse : inUse P s' = inUse P s := by
    ext c
    rw [mem_inUse, mem_inUse, halive]
  unfold labels
  rw [huse]
  exact Multiset.map_congr rfl fun c _ => label_same (hentry c)

theorem Quiet.labels (h : Quiet s s') : labels P s' = Conntrack.labels P s :=
  labels_congr (fun _ => h.alive) h.entry

theorem Opened.labels {p : ℕ} {e : FlowQoSEntry} (h : Opened P s s' c p e) :
    labels P s' = label e ::ₘ Conntrack.labels P s := by
  have hfree : c ∉ inUse P s := fun hc => h.free (mem_inUse.1 hc)
  have huse : inUse P s' = insert c (inUse P s) := by
    ext c'
    rw [Finset.mem_insert, mem_inUse, mem_inUse, h.alive, or_comm]
  unfold Conntrack.labels
  rw [huse, Finset.insert_val_of_notMem hfree, Multiset.map_cons, label_same h.entry]
  congr 1
  refine Multiset.map_congr rfl fun c' hc' => ?_
  rw [h.ctx]
  rintro rfl
  exact hfree hc'

theorem Released.labels (h : Released P s s' c) (hc : Alive P s c) :
    labels P s = label (s.ctx c).entry ::ₘ Conntrack.labels P s' := by
  have hfree : c ∉ inUse P s' := fun hc' => (h.alive.1 (mem_inUse.1 hc')).2 rfl
  have huse : inUse P s = insert c (inUse P s') := by
    ext c'
    rw [Finset.mem_insert, mem_inUse, mem_inUse, h.alive]
    by_cases heq : c' = c
    · subst heq
      exact ⟨fun _ => .inl rfl, fun _ => hc⟩
    · exact ⟨fun ha => .inr ⟨ha, heq⟩, fun hor => (hor.resolve_left heq).1⟩
  unfold Conntrack.labels
  rw [huse, Finset.insert_val_of_notMem hfree, Multiset.map_cons]
  congr 1
  exact Multiset.map_congr rfl fun c' _ => by rw [h.ctx]

/-! ### Rounds of the scheduler -/

theorem schedule_quiet {attr : ConnAttr} {p : ℕ} (hmade : Made attr p (w.2.ctx c).entry) {o : Outcome} {ret : ℤ}
    (hadd : offloadEntry w.2 c o = .ok (ret, s₁)) {arg : CtxId}
    (hdel : delEntryEvent (congestion (spendEntry (qosHandler (w.1, s₁) arg).2 i)) c = .ok s') :
    Quiet w.2 s' := by
  have hq : Quiet w.2 s₁ := Made.quiet hmade hadd
  have hhw : Quiet s₁ (s₁.toHw arg) := quiet_setCtx (SameEntry.refl _)
  obtain ⟨qos, attr', rfl, -⟩ := scheduled_ok hdel
  exact (hq.trans hhw).trans ⟨rfl, rfl, rfl, rfl, fun _ => SameEntry.refl _⟩

theorem qosLoop_quiet : ∀ (rest : List CtxId) (weight res : ℤ) (w : World σ) {r : ℤ × Bool × World σ},
    HandlerOk P w.2.attr → Inv P (view w) → MgrInv w.1 → w.2.qos.buckets i = rest →
    qosLoop i outcome rest weight res w = .ok r → Quiet w.2 r.2.2.2
  | [], _, _, w, _, _, _, _, _, hrun => by
    cases hrun
    exact .refl w.2
  | c :: rest, weight, res, w, r, hok, h, hmgr, hb, hrun => by
    have hmem : c ∈ w.2.qos.buckets i := by
      rw [hb]
      exact List.mem_cons_self
    have hmade : Made w.2.attr (w.2.conns c).port (w.2.ctx c).entry := h.table.made (h.queue.mem.1 hmem).1
    obtain ⟨-, rfl⟩ | ⟨hgo, ret, s₁, hadd, hcase⟩ := qosLoop_cons_ok hrun
    · exact .refl w.2
    obtain ⟨-, rfl⟩ | ⟨hpos, arg, s', harg, hdel, hrest⟩ := hcase
    · exact Made.quiet hmade hadd
    · obtain rfl : ret = 1 := by
        rcases (offloadEntry_frame hadd).1 with h0 | h1
        · omega
        · exact h1
      obtain ⟨hgoes, hb'⟩ := schedule_goes (L := ⟨True, True⟩) h hmgr hb (by omega) hadd harg hdel
      obtain ⟨hok', h'⟩ := hgoes.inv hok h
      exact (schedule_quiet hmade hadd hdel).trans (qosLoop_quiet rest _ _ _ hok' h' hgoes.mgr hb' hrest)

theorem qosQueues_quiet : ∀ (is : List ℕ) (res : ℤ) (w : World σ) {r : ℤ × Bool × World σ},
    HandlerOk P w.2.attr → Inv P (view w) → MgrInv w.1 → qosQueues outcome is res w = .ok r →
    Quiet w.2 r.2.2.2
  | [], _, w, _, _, _, _, hrun => by
    cases hrun
    exact .refl w.2
  | i :: is, res, w, r, hok, h, hmgr, hrun => by
    unfold qosQueues at hrun
    obtain ⟨⟨res', goes, w₁⟩, hloop, hrun⟩ := bind_eq_ok.1 hrun
    have hquiet : Quiet w.2 w₁.2 := qosLoop_quiet _ _ _ _ hok h hmgr rfl hloop
    simp only at hrun
    split at hrun
    · have hgoes : Goes P ⟨True, True⟩ w w₁ := qosLoop_goes _ _ _ _ hok h hmgr rfl hloop
      obtain ⟨hok', h'⟩ := hgoes.inv hok h
      exact hquiet.trans (qosQueues_quiet is _ _ hok' h' hgoes.mgr hrun)
    · cases hrun
      exact hquiet

/-- **A call of the scheduler** is nothing to the application. -/
theorem doEntryEvent_quiet (h : WorldInv P w) {cur : UInt64} {r : ℤ × World σ}
    (hrun : doEntryEvent cur outcome w = .ok r) : Quiet w.2 r.2.2 := by
  unfold doEntryEvent at hrun
  split at hrun
  · obtain ⟨⟨res, goes, w₁⟩, hqs, hrun⟩ := bind_eq_ok.1 hrun
    have hquiet : Quiet w.2 w₁.2 := qosQueues_quiet _ _ _ h.ok h.inv h.mgr hqs
    simp only at hrun
    split at hrun
    · cases hrun
      exact hquiet.trans ⟨rfl, rfl, rfl, rfl, fun _ => SameEntry.refl _⟩
    · cases hrun
      exact hquiet
  · cases hrun
    exact .refl w.2

/-! ### Connections that are lost -/

/-- The connections among the events that were accepted and then lost. -/
def lostCount (events : List ConnEvent) : ℕ :=
  events.countP fun e => match e with
    | .lost _ => true
    | _ => false

theorem lostCount_append (es es' : List ConnEvent) : lostCount (es ++ es') = lostCount es + lostCount es' :=
  List.countP_append

/-- A move loses no connection, but where it is allowed to. -/
theorem Move.lostCount {v v' : Set CtxId × Core σ} (hm : Move P L v v') (hL : ¬ L.lose) :
    lostCount v'.2.events = Conntrack.lostCount v.2.events := by
  cases hm with
  | still hs => rw [hs.events]
  | app => rfl
  | report => rfl
  | refuse => rfl
  | lose hlose => exact absurd hlose hL
  | opened =>
    show Conntrack.lostCount (_ ++ [ConnEvent.accepted _ _ _]) = _
    rw [lostCount_append]
    rfl
  | rearm => rfl
  | enqueue => rfl
  | install _ _ _ _ hadd =>
    obtain ⟨-, entry, hw, rfl⟩ := offloadEntry_frame hadd
    rfl
  | schedule _ _ hadd _ hdel =>
    obtain ⟨-, entry, hw, rfl⟩ := offloadEntry_frame hadd
    obtain ⟨qos, attr, rfl, -⟩ := scheduled_ok hdel
    rfl
  | addFail _ _ hadd =>
    obtain ⟨-, entry, hw, rfl⟩ := offloadEntry_frame hadd
    rfl
  | expireSw _ hexp =>
    rw [(connExpireSw_ok hexp).1.events, lostCount_append]
    rfl
  | rmEntry => rfl
  | expireHw _ _ _ _ _ hexp =>
    rw [(connExpireHw_ok hexp).1.events, lostCount_append]
    rfl

theorem Moves.lostCount {v v' : Set CtxId × Core σ} (hm : Moves P L v v') (hL : ¬ L.lose) :
    lostCount v'.2.events = Conntrack.lostCount v.2.events := by
  induction hm with
  | refl => rfl
  | tail _ hm ih => rw [hm.lostCount hL, ih]

/-! ### Events -/

variable {G : ε → FlowQoSEntry → σ → Prop} {attr : ConnAttr} {lost : Multiset Label}

theorem packetParser_same {attr attr' : ConnAttr} (h : SameConfig attr attr') (m : Mbuf) :
    packetParser attr' m = packetParser attr m := by
  unfold packetParser
  rw [h.ActionFlags, h.TCP_MatchFlags, h.UDP_MatchFlags, h.TCP_PIPE, h.UDP_PIPE]

/-- The account of the application in a state of the core, with the connections that have been lost. -/
def books (P : Params σ ε) (s : Core σ) (lost : Multiset Label) : Account σ where
  app := s.app
  held := labels P s + lost

/-- The tracker has come to an account by calls of the handlers; the connections lost are those of the
events. -/
def Kept (P : Params σ ε) (G : ε → FlowQoSEntry → σ → Prop) (attr : ConnAttr) (s s' : Core σ)
    (lost : Multiset Label) : Prop :=
  ∃ lost', Dealings P G attr (books P s lost) (books P s' lost') ∧
    lost'.card + lostCount s.events = lost.card + lostCount s'.events

theorem Kept.trans {s'' : Core σ} (h : ∀ lost, Kept P G attr s s' lost)
    (h' : ∀ lost, Kept P G attr s' s'' lost) (lost : Multiset Label) : Kept P G attr s s'' lost := by
  obtain ⟨lost', hcalls, hcard⟩ := h lost
  obtain ⟨lost'', hcalls', hcard'⟩ := h' lost'
  exact ⟨lost'', hcalls.trans hcalls', by omega⟩

theorem Kept.quiet (hq : Quiet s s') (hlost : lostCount s'.events = lostCount s.events)
    (lost : Multiset Label) : Kept P G attr s s' lost := by
  refine ⟨lost, ?_, by rw [hlost]⟩
  have heq : books P s' lost = books P s lost := by
    unfold books
    rw [hq.app, hq.labels]
  rw [heq]

/-- The connections that end are told to the application one after the other. -/
theorem Ends.dealings (he : Ends P s cs s') (lost : Multiset Label) :
    Dealings P G attr (books P s lost) (books P s' lost) := by
  induction he with
  | @nil s s' hq =>
    have heq : books P s' lost = books P s lost := by
      unfold books
      rw [hq.app, hq.labels]
    rw [heq]
  | @cons s s₀ s₁ s' c cs hq hc hrel _ ih =>
    refine .head ?_ ih
    have hbooks : books P s lost = books P s₀ lost := by
      unfold books
      rw [hq.app, hq.labels]
    have hlabels := hrel.labels (hq.alive.2 hc)
    have hheld : labels P s₁ + lost = (labels P s₀ + lost).erase (label (s₀.ctx c).entry) := by
      rw [hlabels, Multiset.cons_add, Multiset.erase_cons_head]
    rw [hbooks]
    unfold books
    rw [hheld]
    refine .finish ?_ hrel.app
    rw [hlabels, Multiset.cons_add]
    exact Multiset.mem_cons_self _ _

/-- The environment does what it is relied on for, and the state of the application is left to its handlers. -/
def Outside (G : ε → FlowQoSEntry → σ → Prop) (w : World σ) : Event σ ε → Prop
  | .packet m env => ∀ e, packetParser w.2.attr m = some e → w.2.CT e.match_ = none → G env.app e w.2.app
  | .app _ => False
  | _ => True

/-- **A packet of a new connection**: it is refused, lost or opened. -/
theorem openConn_kept (h : WorldInv P w) (hsame : SameConfig attr w.2.attr) {e : FlowQoSEntry}
    (hen : w.2.attr.PORT_CT_ENABLED m.port) (hparse : packetParser w.2.attr m = some e)
    (habs : w.2.CT e.match_ = none) (hG : G env.app e w.2.app) {r : Option CtxId}
    (hrun : openConn P m e env w = .ok (r, w')) (lost : Multiset Label) : Kept P G attr w.2 w'.2 lost := by
  obtain ⟨mgr, s⟩ := w
  have hen₀ : attr.PORT_CT_ENABLED m.port := by
    rw [← hsame.PORT_CT_ENABLED]
    exact hen
  have hparse₀ : packetParser attr m = some e := by
    rw [← packetParser_same hsame]
    exact hparse
  rcases openConn_cases hrun with ⟨-, rfl, rfl⟩ |
    ⟨f, ret, e', app, hf, hr, ⟨hneg, rfl, rfl⟩ | ⟨hret, hadd⟩⟩
  · exact .quiet (.refl s) rfl lost
  · exact ⟨lost, .single (.refuse hen₀ hparse₀ hf hG hr hneg), rfl⟩
  · rcases addConnToHash_cases hadd with ⟨rfl, pool, hperm, rfl, -⟩ | ⟨c, mgr', rfl, hc, -, rfl⟩
    · refine ⟨label e' ::ₘ lost, .single ?_, ?_⟩
      · have haccept := Dealing.accept (a := books P s lost) hen₀ hparse₀ hf hG hr hret
        have hsame : labels P ({ s.accept m.port e.match_ app with pool := pool }.log
            (.lost s.accepted)) = labels P s :=
          labels_congr (fun _ => alive_congr hperm) fun _ => SameEntry.refl _
        unfold books at haccept ⊢
        rw [hsame, Multiset.add_cons]
        exact haccept
      · show _ + lostCount s.events = _ + lostCount ((s.events ++ [.accepted _ _ _]) ++ [.lost _])
        rw [lostCount_append, lostCount_append, Multiset.card_cons]
        show _ = _ + (_ + 0 + 1)
        omega
    · have ho : Opened P s ((s.accept m.port e.match_ app).insert c e' ⟨s.accepted, m.port⟩ env.start_tsc) c
          m.port e' := h.inv.table.insert_opened hc
      refine ⟨lost, .single ?_, ?_⟩
      · have haccept := Dealing.accept (a := books P s lost) hen₀ hparse₀ hf hG hr hret
        have hlabels := ho.labels
        unfold books at haccept ⊢
        rw [← Multiset.cons_add, ← hlabels] at haccept
        exact haccept
      · show _ = _ + lostCount (s.events ++ [.accepted _ _ _])
        rw [lostCount_append]
        rfl

theorem packet_kept (h : WorldInv P w) (hT : w.1.timeout + 68719476735 < 2 ^ 64) (hsame : SameConfig attr w.2.attr)
    (ho : Outside G w (.packet m env)) {v : Verdict} (hrun : conntrackPacketProcessor P m env w = .ok (v, w'))
    (lost : Multiset Label) : Kept P G attr w.2 w'.2 lost := by
  -- a packet that is forwarded is nothing to the application
  have hforward : ∀ {w₁ : World σ} {k : FlowQoSMatch} {c : CtxId} {v : Verdict}, HandlerOk P w₁.2.attr →
      Inv P (view w₁) → MgrInv w₁.1 → w₁.1.timeout + 68719476735 < 2 ^ 64 → w₁.2.CT k = some c →
      forward m w₁ c env = .ok (v, w') → ∀ lost, Kept P G attr w₁.2 w'.2 lost := by
    intro w₁ k c v hok hinv hmgr hT hk hfwd
    obtain ⟨hgoes, -⟩ := forward_goes (L := ⟨False, False⟩) hok hinv hmgr hT hk hfwd
    exact .quiet (forward_quiet (hinv.table.made (hinv.table.table hk).1) hfwd)
      (hgoes.moves.lostCount not_false)
  rcases packet_cases hrun with ⟨-, -, rfl⟩ | ⟨e, hen, hparse, hrest⟩
  · exact .quiet (.refl _) rfl lost
  rcases hrest with ⟨c, hk, hfwd⟩ | ⟨habs, r, w₁, hopen, hrest⟩
  · exact hforward h.ok h.inv h.mgr hT hk hfwd lost
  · have hkept := openConn_kept h hsame hen hparse habs (ho e hparse habs) hopen
    rcases hrest with ⟨-, -, -, rfl⟩ | ⟨c, rfl, hfwd⟩
    · exact hkept lost
    · obtain ⟨hgoes, hnew⟩ := openConn_goes (L := ⟨True, True⟩) h.ok h.inv h.mgr hT (fun _ => trivial) hen
        hparse habs hopen
      obtain ⟨hok₁, hinv₁⟩ := hgoes.inv h.ok h.inv
      refine Kept.trans hkept (hforward hok₁ hinv₁ hgoes.mgr ?_ (hnew c rfl).1 hfwd) lost
      rw [hgoes.timeout]
      exact hT

/-- **An event of the core** is some calls of the handlers. -/
theorem step_kept (h : WorldInv P w) (hat : Attaches w.2.attr) (hsame : SameConfig attr w.2.attr) {e : Event σ ε}
    (ho : Outside G w e) (hs : Steps P w e w') (lost : Multiset Label) : Kept P G attr w.2 w'.2 lost := by
  have hT : w.1.timeout + 68719476735 < 2 ^ 64 := by
    have := hs.1
    omega
  have hmoves : Room P w e → lostCount w'.2.events = lostCount w.2.events := fun hroom =>
    (hs.moves (L := ⟨False, True⟩) h (fun hno => hno hroom) fun _ _ => trivial).1.lostCount not_false
  have hrun := hs.2
  cases e with
  | packet m env =>
    obtain ⟨⟨v, w₁⟩, hp, rfl⟩ := map_eq_ok.1 hrun
    exact packet_kept h hT hsame ho hp lost
  | tick rdtsc =>
    obtain ⟨⟨n, w₁⟩, htick, rfl⟩ := map_eq_ok.1 hrun
    obtain ⟨cs, hends, -⟩ := tick_ends h.inv h.mgr hT htick
    exact ⟨lost, hends.dealings lost, by rw [hmoves trivial]⟩
  | qos rdtsc outcome =>
    refine .quiet ?_ (hmoves trivial) lost
    simp only [step] at hrun
    split at hrun
    · obtain ⟨r, hq, rfl⟩ := map_eq_ok.1 hrun
      exact doEntryEvent_quiet h hq
    · cases hrun
      exact .refl _
  | aging reports =>
    obtain ⟨s', haging, rfl⟩ := map_eq_ok.1 hrun
    obtain ⟨cs, hends, -⟩ := connAgingHandle_ends h.ok h.inv hat haging
    exact ⟨lost, hends.dealings lost, by rw [hmoves trivial]⟩
  | app app => exact ho.elim

/-! ### Runs -/

/-- **The tracker keeps the account of its application.** Every run of a core is a sequence of calls of the
handlers, in which only connections are ended that have been accepted, and each of them once. The connections
that are held at the end of it are those of the contexts in use, and those that have been lost. -/
theorem run_dealings (P : Params σ ε) (G : ε → FlowQoSEntry → σ → Prop) {a : InitArgs}
    (ha : a.maxConntrack = P.maxConntrack) (ports : List (ℕ × UInt64)) (app : σ)
    (hok : HandlerOk P (boot a ports app).2.attr) (hat : Attaches (boot a ports app).2.attr)
    {es : List (Event σ ε)} (hr : RunsWhile P (Outside G) (boot a ports app) es w) :
    ∃ lost, Dealings P G (boot a ports app).2.attr ⟨app, 0⟩ ⟨w.2.app, labels P w.2 + lost⟩ ∧
      lost.card = lostCount w.2.events := by
  have hinv := Trace.inv (P := fun w => WorldInv P w ∧ SameConfig (boot a ports app).2.attr w.2.attr ∧
    ∀ lost, Kept P G (boot a ports app).2.attr (boot a ports app).2 w.2 lost)
    (fun w e w' ⟨h, hsame, hkept⟩ hs => ?_) hr
    ⟨worldInv_boot ha ports app hok, SameConfig.refl _, fun lost => .quiet (.refl _) rfl lost⟩
  · obtain ⟨-, -, hkept⟩ := hinv
    obtain ⟨lost, hcalls, hcard⟩ := hkept 0
    have hnone : labels P (boot a ports app).2 = 0 := by
      unfold labels
      have huse : inUse P (boot a ports app).2 = ∅ := by
        ext c
        simp only [mem_inUse, Finset.notMem_empty, iff_false]
        exact boot_not_alive ha ports app c
      rw [huse]
      rfl
    have hevents : (boot a ports app).2.events = [] := by
      rw [boot_frame]
      rfl
    refine ⟨lost, ?_, ?_⟩
    · unfold books at hcalls
      rwa [hnone, boot_app, Multiset.zero_add] at hcalls
    · rw [hevents, Multiset.card_zero, Nat.zero_add] at hcard
      exact hcard
  · obtain ⟨hm, hw⟩ := hs.2.moves (L := ⟨True, True⟩) h (fun _ => trivial) fun _ _ => trivial
    have hat' : Attaches w.2.attr := (attaches_congr hsame).2 hat
    exact ⟨hw, hsame.trans (Moves.sameConfig hm), Kept.trans hkept (step_kept h hat' hsame hs.1 hs.2)⟩

/-- Of two connections the second one finds no context. -/
theorem run_dealings_two : ∃ (w : World ℕ) (lost : Multiset Label),
    Dealings (accepting id) (fun _ _ _ => True) (boot oneEntry [(0, AGING ||| SIP)] 0).2.attr ⟨0, 0⟩
      ⟨w.2.app, labels (accepting id) w.2 + lost⟩ ∧ lost.card = 1 ∧ w.2.app = 2 := by
  obtain ⟨w, hr, happ, hlost⟩ : ∃ w, RunsWhile (accepting id) (Outside fun _ _ _ => True)
      (boot oneEntry [(0, AGING ||| SIP)] 0) [.packet (packetOf L4_TCP) (offloads 0),
        .packet (packetOf L4_UDP) { offloads 1 with ctx := none }] w ∧ w.2.app = 2 ∧
      lostCount w.2.events = 1 :=
    ⟨_, .cons ⟨fun _ _ _ => trivial, by decide, rfl⟩
      (.cons ⟨fun _ _ _ => trivial, by decide +kernel, rfl⟩ (.nil _)), rfl, by decide +kernel⟩
  obtain ⟨lost, hcalls, hcard⟩ := run_dealings (accepting id) (fun _ _ _ => True) rfl [(0, AGING ||| SIP)] 0
    (.inl keepsAll_accepting) (attaches_boot oneEntry 0 (by decide)) hr
  exact ⟨w, lost, hcalls, hcard.trans hlost, happ⟩

end FlowQoS.Conntrack
