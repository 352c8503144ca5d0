import FlowQoS.Conntrack.Defs
import FlowQoS.Timer.Tick
import Mathlib.Data.Set.Insert
import Mathlib.Logic.Relation

/-!
# What a step of the tracker can do

`Move` lists what can happen to a worker core, with the timer manager reduced to the set of the armed
timers: a connection is refused, lost, opened, queued, offloaded, ended, and so on. An event of the
core is a sequence of moves, so that an invariant needs to be proved for the moves only. Where the
action flags of a port are exactly `AGING`, the code attaches neither timer nor callback to the port's
connections; `Attaches` excludes such ports.
-/

namespace FlowQoS.Conntrack

open Pipe Timer

variable {σ ε : Type}

/-- The part of the attributes that a run does not change. -/
structure SameConfig (a a' : ConnAttr) : Prop where
  TCP_PIPE : a'.TCP_PIPE = a.TCP_PIPE
  UDP_PIPE : a'.UDP_PIPE = a.UDP_PIPE
  ActionFlags : a'.ActionFlags = a.ActionFlags
  TCP_MatchFlags : a'.TCP_MatchFlags = a.TCP_MatchFlags
  UDP_MatchFlags : a'.UDP_MatchFlags = a.UDP_MatchFlags
  PORT_CT_ENABLED : a'.PORT_CT_ENABLED = a.PORT_CT_ENABLED
  MaxOffloadedEntry : a'.MaxOffloadedEntry = a.MaxOffloadedEntry
  ENABLE_FLOWQOS : a'.ENABLE_FLOWQOS = a.ENABLE_FLOWQOS

/-- Nothing happens to the connections. -/
structure Still (s s' : Core σ) : Prop where
  attr : SameConfig s.attr s'.attr
  buckets : s'.qos.buckets = s.qos.buckets
  maxEntry : s'.qos.maxEntry = s.qos.maxEntry
  maxEntryLimit : s'.qos.maxEntryLimit = s.qos.maxEntryLimit
  pool : s'.pool = s.pool
  ctx : ∀ c, (s'.ctx c).entry = (s.ctx c).entry ∧ (s'.ctx c).ct_state = (s.ctx c).ct_state
  CT : s'.CT = s.CT
  CT_NUM : s'.CT_NUM = s.CT_NUM
  hw : s'.hw = s.hw
  app : s'.app = s.app
  conns : s'.conns = s.conns
  accepted : s'.accepted = s.accepted
  events : s'.events = s.events

/-- The timer of the context runs once the context is opened. -/
def Attached (x : ConnContext) : Prop :=
  x.entry.action.flags ≠ AGING ∧ (x.entry.expireTime * 1000).toNat ≤ timerMaxTimeout

/-- The timers that are armed after the context has gone to the hardware. -/
def disarm (A : Set CtxId) (s : Core σ) (c : CtxId) : Set CtxId :=
  {t | t ∈ A ∧ ¬ (t = c ∧ (s.ctx c).entry.action.flags ≠ AGING)}

/-- The core after `newConn_handler` has accepted a connection. -/
def Core.accept (s : Core σ) (port : ℕ) (match_ : FlowQoSMatch) (app : σ) : Core σ :=
  { s with app := app, accepted := s.accepted + 1 }.log (.accepted s.accepted port match_)

/-- The core after the context has been filled and put into the table. -/
def Core.insert (s : Core σ) (c : CtxId) (newEntry : FlowQoSEntry) (conn : Conn) (tsc : UInt64) : Core σ :=
  { s.setCtx c ((s.ctx c).fill c newEntry tsc) with
    pool := s.pool.erase c
    CT := Function.update s.CT newEntry.match_ (some c)
    conns := Function.update s.conns c conn }

/-- `newConn_handler` is called for a packet whose connection is not in the table. -/
structure Asked (P : Params σ ε) (s : Core σ) (m : Mbuf) (e : FlowQoSEntry) (ret : ℤ)
    (e' : FlowQoSEntry) (app : σ) : Prop where
  enabled : s.attr.PORT_CT_ENABLED m.port
  parsed : packetParser s.attr m = some e
  absent : s.CT e.match_ = none
  handler : ∃ f x, P.newConn_handler = some f ∧ f x e s.app = .ok (ret, e', app)

/-- No port has action flags that are exactly `AGING`. -/
def Attaches (attr : ConnAttr) : Prop := ∀ p, attr.PORT_CT_ENABLED p → attr.ActionFlags p ≠ AGING

/-- The moves that only some events make. -/
structure Allowed where
  lose : Prop
  report : Prop

/-- What can happen to the armed timers and the rest of a core. -/
inductive Move (P : Params σ ε) (L : Allowed) : Set CtxId × Core σ → Set CtxId × Core σ → Prop
  | still {A s s'} : Still s s' → Move P L (A, s) (A, s')
  | app {A s} (app : σ) : Move P L (A, s) (A, { s with app := app })
  | report {A s} (hs : List Handle) : L.report → Move P L (A, s) (A, { s with hw := s.hw.report hs })
  | refuse {A s m e ret e' app} : Asked P s m e ret e' app → ret < 0 →
      Move P L (A, s) (A, { s with app := app })
  | lose {A s m e ret e' app pool} : L.lose → Asked P s m e ret e' app → 0 ≤ ret → pool.Perm s.pool →
      Move P L (A, s) (A, ({ s.accept m.port e.match_ app with pool := pool }).log (.lost s.accepted))
  | opened {A s m e ret e' app c tsc A'} : Asked P s m e ret e' app → 0 ≤ ret → c ∈ s.pool →
      (A' = A ∧ ¬ Attached ((s.ctx c).fill c e' tsc) ∨
        A' = insert c A ∧ Attached ((s.ctx c).fill c e' tsc)) →
      Move P L (A, s) (A', (s.accept m.port e.match_ app).insert c e' ⟨s.accepted, m.port⟩ tsc)
  | rearm {A s k c A'} : s.CT k = some c → (s.ctx c).ct_state ≠ .HW_FWD_STATE →
      (A' = A ∨ A' = insert c A ∨
        A' = A \ {c} ∧ timerMaxTimeout < ((s.ctx c).entry.expireTime * 1000).toNat) →
      Move P L (A, s) (A', s)
  | enqueue {A s k c} : s.CT k = some c → (s.ctx c).ct_state = .SW_FWD_STATE →
      s.attr.ENABLE_FLOWQOS → Move P L (A, s) (A, enqueueConn s c)
  | install {A s k c o s'} : s.CT k = some c → (s.ctx c).ct_state = .SW_FWD_STATE →
      s.attr.ENABLE_FLOWQOS = false → s.CT_NUM ≠ 0 → offloadEntry s c o = .ok (1, s') →
      Move P L (A, s) (disarm A s' c, { s'.toHw c with CT_NUM := s'.CT_NUM - 1 })
  | schedule {A s i c o s₁ arg s'} : c ∈ s.qos.buckets i → 0 < s.qos.maxEntry →
      offloadEntry s c o = .ok (1, s₁) → (s₁.ctx c).entry.flowQoS_args = some arg →
      delEntryEvent (congestion (spendEntry (s₁.toHw arg) i)) c = .ok s' →
      Move P L (A, s) (disarm A s₁ arg, s')
  | addFail {A s c o s'} : (∃ k, s.CT k = some c) ∨ (∃ i, c ∈ s.qos.buckets i) →
      (s.ctx c).ct_state ≠ .HW_FWD_STATE → offloadEntry s c o = .ok (0, s') → Move P L (A, s) (A, s')
  | expireSw {A s c s'} : c ∈ A → connExpireSw P c s = .ok s' → Move P L (A, s) (A \ {c}, s')
  | rmEntry {A s c e ok hw} : (Attaches s.attr → e ∈ s.hw.entries) → e.user_data = some c →
      s.hw.rmEntry (s.ctx c).entry.entry ok = some hw → (s.ctx c).entry.cb = none →
      Move P L (A, s) (A, { s with hw := hw })
  | expireHw {A s c arg e ok hw s'} : (Attaches s.attr → e ∈ s.hw.entries) → e.user_data = some c →
      s.hw.rmEntry (s.ctx c).entry.entry ok = some hw →
      (s.ctx c).entry.cb.isSome → (s.ctx c).entry.cb_args = some arg →
      connExpireHw P arg { s with hw := hw } = .ok s' → Move P L (A, s) (A, s')

/-- A sequence of moves. -/
abbrev Moves (P : Params σ ε) (L : Allowed) : Set CtxId × Core σ → Set CtxId × Core σ → Prop :=
  Relation.ReflTransGen (Move P L)

end FlowQoS.Conntrack
