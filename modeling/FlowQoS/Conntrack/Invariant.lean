import FlowQoS.Conntrack.Moves
import Mathlib.Tactic.Tauto

/-!
# The invariant of the tracker

The table and the contexts that the pool has given away are in bijection (`TableInv`), a context waits
in the queue of its priority exactly in `FLOW_QOS_STATE` (`QueueInv`), and an entry of the hardware
belongs to a context in `HW_FWD_STATE` (`HwInv`). Every move preserves the three of them.

A handler of new connections has to leave some fields of the entry alone (`Keeps`, `KeepsAll`).
-/

set_option linter.unusedSectionVars false

namespace FlowQoS.Conntrack

open Pipe Timer

variable {σ ε : Type} {P : Params σ ε} {A A' : Set CtxId} {s s' : Core σ} {c c' : CtxId}
  {k : FlowQoSMatch}

/-- The handler leaves the match, the pipe and the action flags of a connection it accepts alone. -/
def Keeps (P : Params σ ε) : Prop :=
  ∀ f x e a ret e' a', P.newConn_handler = some f → f x e a = .ok (ret, e', a') → 0 ≤ ret →
    e'.match_ = e.match_ ∧ e'.pipe = e.pipe ∧ e'.action.flags = e.action.flags

/-- The handler also leaves the hardware entry and the callback alone. -/
def KeepsAll (P : Params σ ε) : Prop :=
  ∀ f x e a ret e' a', P.newConn_handler = some f → f x e a = .ok (ret, e', a') → 0 ≤ ret →
    e'.match_ = e.match_ ∧ e'.pipe = e.pipe ∧ e'.action.flags = e.action.flags ∧
      e'.entry = e.entry ∧ e'.cb = e.cb

theorem KeepsAll.keeps (h : KeepsAll P) : Keeps P := by
  intro f x e a ret e' a' hf hr h0
  obtain ⟨h1, h2, h3, -⟩ := h f x e a ret e' a' hf hr h0
  exact ⟨h1, h2, h3⟩

/-- The handler gives expire times that the timing wheel can hold, where the entry it is given has none
yet. -/
def ShortExpire (P : Params σ ε) : Prop :=
  ∀ f x e a ret e' a', P.newConn_handler = some f → e.expireTime = 0 → f x e a = .ok (ret, e', a') →
    0 ≤ ret → e'.expireTime.toNat * 1000 ≤ timerMaxTimeout

/-- The pool has given the context away. -/
def Alive (P : Params σ ε) (s : Core σ) (c : CtxId) : Prop := c < P.maxConntrack ∧ c ∉ s.pool

/-- The pipes of the ports are those that `flowQoS_conntrack_init_port` builds. -/
structure Configured (attr : ConnAttr) : Prop where
  tcp : ∀ p, attr.PORT_CT_ENABLED p →
    attr.TCP_PIPE p = some (buildPipe p attr.TCP_MatchFlags (attr.ActionFlags p))
  udp : ∀ p, attr.PORT_CT_ENABLED p →
    attr.UDP_PIPE p = some (buildPipe p attr.UDP_MatchFlags (attr.ActionFlags p))

/-- The entry of a connection that a packet from port `p` has opened. -/
structure Made (attr : ConnAttr) (p : ℕ) (e : FlowQoSEntry) : Prop where
  enabled : attr.PORT_CT_ENABLED p
  flags : e.action.flags = attr.ActionFlags p
  pipe : ∃ pipe, e.pipe = some pipe ∧ pipe.port_id = p ∧
    pipe.match_pattern.flags = e.match_.flags ∧ pipe.action_pattern.flags = e.action.flags

/-- The table, the pool and the timers. -/
structure TableInv (P : Params σ ε) (A : Set CtxId) (s : Core σ) : Prop where
  conf : Configured s.attr
  pool_nodup : s.pool.Nodup
  pool_lt : ∀ {c}, c ∈ s.pool → c < P.maxConntrack
  armed : ∀ {c}, c ∈ A → Alive P s c
  table : ∀ {k c}, s.CT k = some c → Alive P s c ∧ (s.ctx c).entry.match_ = k
  stored : ∀ {c}, Alive P s c → s.CT (s.ctx c).entry.match_ = some c
  made : ∀ {c}, Alive P s c → Made s.attr (s.conns c).port (s.ctx c).entry

/-- The priority queues. -/
structure QueueInv (P : Params σ ε) (s : Core σ) : Prop where
  nodup : ∀ i, (s.qos.buckets i).Nodup
  mem : ∀ {c i}, c ∈ s.qos.buckets i ↔
    Alive P s c ∧ (s.ctx c).ct_state = .FLOW_QOS_STATE ∧ (s.ctx c).entry.priority.toNat = i
  queued : ∀ {c}, Alive P s c → (s.ctx c).ct_state = .FLOW_QOS_STATE →
    s.attr.ENABLE_FLOWQOS ∧ (s.ctx c).entry.flowQoS_qosHandler = some .flowQoS_qosHandler ∧
      (s.ctx c).entry.flowQoS_args = some c

/-- The entries of the hardware. -/
structure HwInv (P : Params σ ε) (A : Set CtxId) (s : Core σ) : Prop where
  nodup : (s.hw.entries.map HwEntry.handle).Nodup
  lt : ∀ e ∈ s.hw.entries, e.handle < s.hw.next
  cb : ∀ {c}, Alive P s c → (s.ctx c).entry.action.flags ≠ AGING →
    (s.ctx c).entry.cb.isSome ∧ (s.ctx c).entry.cb_args = some c ∧ (s.ctx c).entry.expireTime ≠ 0
  cb_none : KeepsAll P → ∀ {c}, Alive P s c → (s.ctx c).entry.action.flags = AGING →
    (s.ctx c).entry.cb = none
  entry_lt : KeepsAll P → ∀ {c h}, (s.ctx c).entry.entry = some h → h < s.hw.next
  own : KeepsAll P → ∀ {c e}, e ∈ s.hw.entries → (s.ctx c).entry.entry = some e.handle →
    (s.ctx c).entry.cb.isSome → Alive P s c ∧ (s.ctx c).ct_state = .HW_FWD_STATE ∧ c ∉ A
  exact : Attaches s.attr → ∀ e ∈ s.hw.entries, ∃ c, e.user_data = some c ∧ Alive P s c ∧
    (s.ctx c).ct_state = .HW_FWD_STATE ∧ c ∉ A ∧ (s.ctx c).entry.entry = some e.handle
  offloaded : Attaches s.attr → ∀ {c}, Alive P s c → (s.ctx c).ct_state = .HW_FWD_STATE →
    c ∉ A ∧ ∃ e ∈ s.hw.entries, e.user_data = some c

/-- The software timers that run. -/
structure TimedInv (P : Params σ ε) (A : Set CtxId) (s : Core σ) : Prop where
  armed : ∀ {c}, Alive P s c → (s.ctx c).ct_state ≠ .HW_FWD_STATE → c ∈ A
  short : ∀ {c}, Alive P s c → (s.ctx c).entry.expireTime.toNat * 1000 ≤ timerMaxTimeout

structure Inv (P : Params σ ε) (w : Set CtxId × Core σ) : Prop where
  table : TableInv P w.1 w.2
  queue : QueueInv P w.2
  hw : HwInv P w.1 w.2

/-- What the handler of new connections is relied on for. -/
def HandlerOk (P : Params σ ε) (attr : ConnAttr) : Prop := KeepsAll P ∨ Keeps P ∧ Attaches attr

theorem HandlerOk.keeps {attr : ConnAttr} (h : HandlerOk P attr) : Keeps P := by
  rcases h with h | h
  · exact h.keeps
  · exact h.1

/-! ### Entries -/

theorem xor_ne_zero {x : UInt64} : x ^^^ AGING ≠ 0 ↔ x ≠ AGING := by
  rw [ne_eq, UInt64.xor_eq_zero_iff]

/-- The entry keeps its match, its pipe and its flags. -/
def SameEntry (e e' : FlowQoSEntry) : Prop :=
  e'.match_ = e.match_ ∧ e'.pipe = e.pipe ∧ e'.action = e.action

theorem SameEntry.refl (e : FlowQoSEntry) : SameEntry e e := ⟨rfl, rfl, rfl⟩

theorem Made.congr {attr attr' : ConnAttr} {p : ℕ} {e e' : FlowQoSEntry} (h : Made attr p e)
    (hattr : SameConfig attr attr') (he : SameEntry e e') : Made attr' p e' := by
  obtain ⟨hm, hp, ha⟩ := he
  refine ⟨?_, ?_, ?_⟩
  · rw [hattr.PORT_CT_ENABLED]
    exact h.enabled
  · rw [ha, hattr.ActionFlags]
    exact h.flags
  · rw [hp, hm, ha]
    exact h.pipe

theorem Configured.congr {attr attr' : ConnAttr} (h : Configured attr) (hattr : SameConfig attr attr') :
    Configured attr' := by
  constructor
  · rw [hattr.PORT_CT_ENABLED, hattr.TCP_PIPE, hattr.TCP_MatchFlags, hattr.ActionFlags]
    exact h.tcp
  · rw [hattr.PORT_CT_ENABLED, hattr.UDP_PIPE, hattr.UDP_MatchFlags, hattr.ActionFlags]
    exact h.udp

theorem attaches_congr {attr attr' : ConnAttr} (hattr : SameConfig attr attr') :
    Attaches attr' ↔ Attaches attr := by
  unfold Attaches
  rw [hattr.PORT_CT_ENABLED, hattr.ActionFlags]

theorem SameConfig.refl (attr : ConnAttr) : SameConfig attr attr :=
  ⟨rfl, rfl, rfl, rfl, rfl, rfl, rfl, rfl⟩

theorem SameConfig.trans {a b d : ConnAttr} (h : SameConfig a b) (h' : SameConfig b d) : SameConfig a d :=
  ⟨h'.1.trans h.1, h'.2.trans h.2, h'.3.trans h.3, h'.4.trans h.4, h'.5.trans h.5, h'.6.trans h.6,
    h'.7.trans h.7, h'.8.trans h.8⟩

/-- The hardware entry of the next insertion for a context. -/
def nextHw (s : Core σ) (c : CtxId) (pipe : FlowQoSPipe) : HwEntry where
  handle := s.hw.next
  pipe := pipe
  match_ := (s.ctx c).entry.match_
  action := (s.ctx c).entry.action
  aging := (s.ctx c).entry.action.flags &&& AGING != 0
  user_data := if (s.ctx c).entry.expireTime > 0 then some c else none

/-- The core with another hardware entry in a context. -/
def Core.setEntry (s : Core σ) (c : CtxId) (h : Option Handle) (hw : Hardware) : Core σ :=
  { s.setCtx c { s.ctx c with entry := { (s.ctx c).entry with entry := h } } with hw := hw }

/-- The flags of the pipe are those of the connections opened from its port. -/
theorem Made.offloadEntry {attr : ConnAttr} {p : ℕ} (hm : Made attr p (s.ctx c).entry) {o : Outcome}
    {ret : ℤ} (h : offloadEntry s c o = .ok (ret, s')) :
    ∃ pipe, (s.ctx c).entry.pipe = some pipe ∧ ret = (if o.ok then 1 else 0) ∧
      s' = s.setEntry c (if o.entry then some s.hw.next else none)
        { entries := if o.ok then s.hw.entries ++ [nextHw s c pipe] else s.hw.entries
          next := if o.entry then s.hw.next + 1 else s.hw.next } := by
  obtain ⟨pipe, hpipe, -, hmatch, haction⟩ := hm.pipe
  refine ⟨pipe, hpipe, ?_⟩
  unfold Conntrack.offloadEntry at h
  rw [hpipe] at h
  simp only [addEntry, Except.ok.injEq, Prod.mk.injEq] at h
  refine ⟨h.1.symm, ?_⟩
  rw [← h.2, hmatch, haction, ← hpipe]
  rfl

theorem Made.offloadEntry_one {attr : ConnAttr} {p : ℕ} (hm : Made attr p (s.ctx c).entry) {o : Outcome}
    (h : Conntrack.offloadEntry s c o = .ok (1, s')) : ∃ pipe, (s.ctx c).entry.pipe = some pipe ∧
      s' = s.setEntry c (some s.hw.next)
        { entries := s.hw.entries ++ [nextHw s c pipe], next := s.hw.next + 1 } := by
  obtain ⟨pipe, hpipe, hret, hs'⟩ := hm.offloadEntry h
  have hok : o.ok = true := by
    by_contra hc
    rw [if_neg hc] at hret
    cases hret
  have hentry : o.entry = true := by
    unfold Outcome.ok at hok
    simp only [Bool.and_eq_true] at hok
    exact hok.1
  rw [hok, hentry] at hs'
  exact ⟨pipe, hpipe, hs'⟩

theorem Made.offloadEntry_zero {attr : ConnAttr} {p : ℕ} (hm : Made attr p (s.ctx c).entry) {o : Outcome}
    (h : Conntrack.offloadEntry s c o = .ok (0, s')) :
    s' = s.setEntry c none s.hw ∨
      s' = s.setEntry c (some s.hw.next) { s.hw with next := s.hw.next + 1 } := by
  obtain ⟨pipe, -, hret, hs'⟩ := hm.offloadEntry h
  have hok : o.ok = false := by
    by_contra hc
    rw [Bool.not_eq_false] at hc
    rw [if_pos hc] at hret
    cases hret
  rw [hok] at hs'
  cases hentry : o.entry with
  | false =>
    rw [hentry] at hs'
    exact .inl hs'
  | true =>
    rw [hentry] at hs'
    exact .inr hs'

/-! ### The table -/

theorem alive_congr (hpool : s'.pool.Perm s.pool) : Alive P s' c ↔ Alive P s c := by
  unfold Alive
  rw [hpool.mem_iff]

theorem TableInv.congr (h : TableInv P A s) (hattr : SameConfig s.attr s'.attr)
    (hpool : s'.pool.Perm s.pool) (hCT : s'.CT = s.CT) (hconns : s'.conns = s.conns)
    (hctx : ∀ c, SameEntry (s.ctx c).entry (s'.ctx c).entry) (hA : ∀ c ∈ A', Alive P s c) :
    TableInv P A' s' where
  conf := h.conf.congr hattr
  pool_nodup := hpool.nodup_iff.2 h.pool_nodup
  pool_lt hm := h.pool_lt (hpool.mem_iff.1 hm)
  armed hm := (alive_congr hpool).2 (hA _ hm)
  table hk := by
    rw [hCT] at hk
    obtain ⟨ha, hm⟩ := h.table hk
    exact ⟨(alive_congr hpool).2 ha, (hctx _).1.trans hm⟩
  stored ha := by
    rw [hCT, (hctx _).1]
    exact h.stored ((alive_congr hpool).1 ha)
  made ha := by
    rw [hconns]
    exact (h.made ((alive_congr hpool).1 ha)).congr hattr (hctx _)

theorem TableInv.match_inj (h : TableInv P A s) (hc : Alive P s c) (hc' : Alive P s c')
    (heq : (s.ctx c).entry.match_ = (s.ctx c').entry.match_) : c = c' := by
  have h1 := h.stored hc
  rw [heq, h.stored hc'] at h1
  exact (Option.some.inj h1).symm

theorem alive_cons (hpool : s'.pool = c :: s.pool) : Alive P s' c' ↔ Alive P s c' ∧ c' ≠ c := by
  unfold Alive
  rw [hpool, List.mem_cons]
  tauto

/-- A context goes out of the table and back to the pool. -/
theorem TableInv.release (h : TableInv P A s) (hc : Alive P s c) (hattr : SameConfig s.attr s'.attr)
    (hpool : s'.pool = c :: s.pool) (hCT : s'.CT = Function.update s.CT (s.ctx c).entry.match_ none)
    (hconns : s'.conns = s.conns) (hctx : ∀ c, SameEntry (s.ctx c).entry (s'.ctx c).entry)
    (hA : ∀ c' ∈ A', Alive P s c' ∧ c' ≠ c) : TableInv P A' s' where
  conf := h.conf.congr hattr
  pool_nodup := by
    rw [hpool, List.nodup_cons]
    exact ⟨hc.2, h.pool_nodup⟩
  pool_lt hm := by
    rw [hpool, List.mem_cons] at hm
    rcases hm with rfl | hm
    · exact hc.1
    · exact h.pool_lt hm
  armed hm := (alive_cons hpool).2 (hA _ hm)
  table {k c'} hk := by
    rw [hCT, Function.update_apply] at hk
    split at hk
    · cases hk
    · next hne =>
      obtain ⟨ha, hm⟩ := h.table hk
      refine ⟨(alive_cons hpool).2 ⟨ha, ?_⟩, (hctx _).1.trans hm⟩
      rintro rfl
      exact hne hm.symm
  stored {c'} ha := by
    obtain ⟨ha, hne⟩ := (alive_cons hpool).1 ha
    rw [hCT, (hctx _).1, Function.update_of_ne]
    · exact h.stored ha
    · exact fun heq => hne (h.match_inj ha hc heq)
  made ha := by
    rw [hconns]
    exact (h.made ((alive_cons hpool).1 ha).1).congr hattr (hctx _)

theorem alive_erase (hnd : s.pool.Nodup) (hc : c ∈ s.pool) (hlt : c < P.maxConntrack)
    (hpool : s'.pool = s.pool.erase c) : Alive P s' c' ↔ Alive P s c' ∨ c' = c := by
  unfold Alive
  rw [hpool, hnd.mem_erase_iff]
  by_cases heq : c' = c
  · subst heq
    tauto
  · tauto

/-- The parser gives the entry of a connection from the packet's port. -/
theorem made_parsed {attr : ConnAttr} {m : Mbuf} {e : FlowQoSEntry} (hconf : Configured attr)
    (hen : attr.PORT_CT_ENABLED m.port) (hparse : packetParser attr m = some e) :
    Made attr m.port e ∧ e.entry = none ∧ e.cb = none ∧ e.expireTime = 0 := by
  unfold packetParser at hparse
  split at hparse
  · split at hparse
    · cases hparse
      exact ⟨⟨hen, rfl, _, hconf.tcp _ hen, rfl, rfl, rfl⟩, rfl, rfl, rfl⟩
    · split at hparse
      · cases hparse
        exact ⟨⟨hen, rfl, _, hconf.udp _ hen, rfl, rfl, rfl⟩, rfl, rfl, rfl⟩
      · cases hparse
  · cases hparse

section Fill

variable {x : ConnContext} {e : FlowQoSEntry} {tsc : UInt64}

theorem fill_attached (h : e.action.flags ≠ AGING) : (x.fill c e tsc).entry =
    { e with
      expireTime := if e.expireTime = 0 then 10 else e.expireTime
      cb := some .flowQoS_conn_expire_hw_cb
      cb_args := some c } := by
  simp only [ConnContext.fill, if_pos (xor_ne_zero.2 h)]

theorem fill_not_attached (h : e.action.flags = AGING) : (x.fill c e tsc).entry = e := by
  have hx : ¬ e.action.flags ^^^ AGING ≠ 0 := by
    rw [xor_ne_zero]
    exact fun hc => hc h
  simp only [ConnContext.fill, if_neg hx]

theorem fill_entry : SameEntry e (x.fill c e tsc).entry ∧ (x.fill c e tsc).entry.entry = e.entry := by
  by_cases h : e.action.flags = AGING
  · rw [fill_not_attached h]
    exact ⟨SameEntry.refl e, rfl⟩
  · rw [fill_attached h]
    exact ⟨⟨rfl, rfl, rfl⟩, rfl⟩

theorem fill_state : (x.fill c e tsc).ct_state = .SW_FWD_STATE := rfl

end Fill

/-- The entry of the connection that is opened. -/
theorem Asked.made {m : Mbuf} {e e' : FlowQoSEntry} {ret : ℤ} {app : σ} (h : Asked P s m e ret e' app)
    (hret : 0 ≤ ret) (hconf : Configured s.attr) (hkeep : Keeps P) :
    Made s.attr m.port e' ∧ e'.match_ = e.match_ := by
  obtain ⟨f, x, hf, hr⟩ := h.handler
  obtain ⟨h1, h2, h3⟩ := hkeep f x e s.app ret e' app hf hr hret
  have hm := (made_parsed hconf h.enabled h.parsed).1
  refine ⟨⟨hm.enabled, h3.trans hm.flags, ?_⟩, h1⟩
  rw [h2, h1, h3]
  exact hm.pipe

theorem TableInv.opened (h : TableInv P A s) {m : Mbuf} {e e' : FlowQoSEntry} {ret : ℤ} {app : σ}
    {tsc : UInt64} (hask : Asked P s m e ret e' app) (hret : 0 ≤ ret) (hkeep : Keeps P) (hc : c ∈ s.pool)
    (hA : ∀ c' ∈ A', c' ∈ A ∨ c' = c) :
    TableInv P A' ((s.accept m.port e.match_ app).insert c e' ⟨s.accepted, m.port⟩ tsc) := by
  obtain ⟨hmade, hmatch⟩ := hask.made hret h.conf hkeep
  set s' := (s.accept m.port e.match_ app).insert c e' ⟨s.accepted, m.port⟩ tsc with hs'
  have halive : ∀ c', Alive P s' c' ↔ Alive P s c' ∨ c' = c :=
    fun c' => alive_erase h.pool_nodup hc (h.pool_lt hc) rfl
  have hctx : s'.ctx c = (s.ctx c).fill c e' tsc := Function.update_self _ _ _
  have hctx_ne : ∀ c', c' ≠ c → s'.ctx c' = s.ctx c' := fun c' hne => Function.update_of_ne hne _ _
  have hkey : (s'.ctx c).entry.match_ = e'.match_ := by rw [hctx]; exact fill_entry.1.1
  have hne : ∀ c', Alive P s c' → c' ≠ c := fun c' ha he => ha.2 (he ▸ hc)
  refine ⟨h.conf, ?_, fun hm => ?_, fun {c'} hm => ?_, fun {k c'} hk => ?_, fun {c'} ha => ?_,
    fun {c'} ha => ?_⟩
  · exact h.pool_nodup.erase c
  · exact h.pool_lt (List.mem_of_mem_erase hm)
  · rw [halive]
    rcases hA c' hm with hm | hm
    · exact .inl (h.armed hm)
    · exact .inr hm
  · change Function.update s.CT e'.match_ (some c) k = some c' at hk
    rw [Function.update_apply] at hk
    split at hk
    · next heq =>
      cases hk
      exact ⟨(halive c).2 (.inr rfl), hkey.trans heq.symm⟩
    · obtain ⟨ha, hm⟩ := h.table hk
      refine ⟨(halive c').2 (.inl ha), ?_⟩
      rw [hctx_ne c' (hne c' ha)]
      exact hm
  · show Function.update s.CT e'.match_ (some c) (s'.ctx c').entry.match_ = some c'
    rcases (halive c').1 ha with ha | rfl
    · rw [hctx_ne c' (hne c' ha), Function.update_of_ne]
      · exact h.stored ha
      · intro heq
        have := h.stored ha
        rw [heq, hmatch, hask.absent] at this
        cases this
    · rw [hkey, Function.update_self]
  · rcases (halive c').1 ha with ha | rfl
    · rw [hctx_ne c' (hne c' ha)]
      have hconns : s'.conns c' = s.conns c' := Function.update_of_ne (hne c' ha) _ _
      rw [hconns]
      exact h.made ha
    · have hconns : s'.conns c' = ⟨s.accepted, m.port⟩ := Function.update_self _ _ _
      rw [hctx, hconns]
      exact hmade.congr (SameConfig.refl _) fill_entry.1

end FlowQoS.Conntrack
