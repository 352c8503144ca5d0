import FlowQoS.Message.Transport
import Mathlib.Data.List.Nodup

/-!
# Where the message buffers are

What a step of a core does (`Moved`, one constructor for each access), and from it the custody of the
buffers: a buffer is in the pool, in one ring, or in the hands of one running call, and a call hands it
on from one of these to the next (`Places.get`, `Places.enqueue`, `Places.dequeue`, `Places.put`).
-/

namespace FlowQoS.Message.Transport

open Lib

/-! ### What a step does -/

/-- The call a core is in. -/
def Act.call : Act → Option ℕ
  | .idle => none
  | .send call _ _ _ _ => some call
  | .recv call _ _ _ _ _ _ => some call

/-- The workers that are left to the call. -/
def Act.todo : Act → List ℕ
  | .idle => []
  | .send _ _ todo _ _ => todo
  | .recv _ _ _ todo _ _ _ => todo

/-- The buffer in the hands of the call. -/
def Act.hand : Act → Option ℕ
  | .send _ _ _ _ (.copy b) => some b
  | .send _ _ _ _ (.enqueue b) => some b
  | .send _ _ _ _ (.free b) => some b
  | .recv _ _ _ _ _ _ (.copy b) => some b
  | .recv _ _ _ _ _ _ (.free b) => some b
  | _ => none

/-- The core that makes the step. -/
def Event.core : Event → Core
  | .send core _ => core
  | .recv core _ _ => core
  | .access core _ => core

/-- The states a core can go to. -/
inductive Moved (n : ℕ) (s : State) (core : Core) : State → Prop
  | startSend (msg : List UInt8) (hv : core.Valid n) (ha : s.act core = .idle) :
    Moved n s core
      ({ s with calls := s.calls + 1 }.setAct core (.send s.calls msg (targets n core) 0 .make))
  | startRecv (msg_arr len : ℕ) (hv : core.Valid n) (ha : s.act core = .idle) :
    Moved n s core
      ({ s with calls := s.calls + 1 }.setAct core (.recv s.calls msg_arr len (targets n core) 0 0 .dequeue))
  | endSend {call msg res pc} (ha : s.act core = .send call msg [] res pc) :
    Moved n s core ((s.noteReturned ⟨core, true, call, res⟩).setAct core .idle)
  | endRecv {call arr len count res pc} (ha : s.act core = .recv call arr len [] count res pc) :
    Moved n s core ((s.noteReturned ⟨core, false, call, res⟩).setAct core .idle)
  | noBuffer {call msg w rest res} (ha : s.act core = .send call msg (w :: rest) res .make) :
    Moved n s core ((s.noteFailed (call, w)).setAct core (.send call msg rest (res + 0) .make))
  | getBuffer {call msg w rest res b} (ha : s.act core = .send call msg (w :: rest) res .make)
      (hlen : msg.length ≤ messageMaxSize) (hb : b ∈ s.pool) :
    Moved n s core ((s.perform (call, w) (.get b)).setAct core (.send call msg (w :: rest) res (.copy b)))
  | fill {call msg w rest res b} (ha : s.act core = .send call msg (w :: rest) res (.copy b)) :
    Moved n s core ((copyMsg b msg s).setAct core (.send call msg (w :: rest) res (.enqueue b)))
  | enqueue {call msg w rest res b} (ha : s.act core = .send call msg (w :: rest) res (.enqueue b)) :
    Moved n s core
      (((s.perform (call, w) (.enqueue (sendRing core w) b)).noteSent (sendRing core w) ⟨call, msg⟩).setAct
        core (.send call msg rest (res + 1) .make))
  | full {call msg w rest res b} (ha : s.act core = .send call msg (w :: rest) res (.enqueue b)) :
    Moved n s core (s.setAct core (.send call msg (w :: rest) res (.free b)))
  | giveBack {call msg w rest res b} (ha : s.act core = .send call msg (w :: rest) res (.free b)) :
    Moved n s core
      (((s.perform (call, w) (.put b)).noteFailed (call, w)).setAct core (.send call msg rest (res + 0) .make))
  | nothing {call arr len w rest count res arr' count' todo'}
      (ha : s.act core = .recv call arr len (w :: rest) count res .dequeue)
      (htodo : todo' = w :: rest ∨ todo' = rest) :
    Moved n s core (s.setAct core (.recv call arr' len todo' count' res .dequeue))
  | dequeue {call arr len w rest count res b q}
      (ha : s.act core = .recv call arr len (w :: rest) count res .dequeue)
      (hq : s.ring (recvRing core w) = b :: q) :
    Moved n s core
      ((s.perform (call, w) (.dequeue (recvRing core w))).setAct core
        (.recv call arr len (w :: rest) count res (.copy b)))
  | take {call arr len w rest count res b}
      (ha : s.act core = .recv call arr len (w :: rest) count res (.copy b)) :
    Moved n s core
      ((s.noteDelivered (recvRing core w)
        ⟨core, call, len, arr, (s.mem b).take (if len > messageMaxSize then messageMaxSize else len)⟩).setAct
        core (.recv call arr len (w :: rest) count res (.free b)))
  | release {call arr len w rest count res b arr' count'}
      (ha : s.act core = .recv call arr len (w :: rest) count res (.free b)) :
    Moved n s core
      ((s.perform (call, w) (.put b)).setAct core (.recv call arr' len rest count' (res + 1) .dequeue))

variable {n : ℕ} {s s' : State} {core : Core}

theorem multicastSend_moved {call : ℕ} {msg : List UInt8} {todo : List ℕ} {res : ℤ} {pc : SendPc}
    (ha : s.act core = .send call msg todo res pc) (pick : Option ℕ) :
    Moved n s core (multicastSend pick core call msg todo res pc s) := by
  cases todo with
  | nil => exact .endSend ha
  | cons w rest =>
    cases pc with
    | make =>
      simp only [multicastSend, sendMsg, makeMsg]
      by_cases hlen : msg.length > messageMaxSize
      · rw [if_pos hlen]
        exact .noBuffer ha
      · rw [if_neg hlen]
        cases pick with
        | none => exact .noBuffer ha
        | some b =>
          by_cases hb : b ∈ s.pool
          · simp only [if_pos hb]
            exact .getBuffer ha (by omega) hb
          · simp only [if_neg hb]
            exact .noBuffer ha
    | copy b => exact .fill ha
    | enqueue b =>
      simp only [multicastSend, sendMsg]
      by_cases hroom : (s.ring (sendRing core w)).length < maxRingCount - 1
      · rw [if_pos hroom]
        exact .enqueue ha
      · rw [if_neg hroom]
        exact .full ha
    | free b => exact .giveBack ha

/-- A poll that finds nothing, of the master or of a worker. -/
theorem multicastRecv_nothing {call msg_arr len count w : ℕ} {rest : List ℕ} {res : ℤ}
    (ha : s.act core = .recv call msg_arr len (w :: rest) count res .dequeue)
    (h : recvMsg (call, w) core (recvRing core w) msg_arr len s .dequeue = (s, .inr 0)) :
    Moved n s core (multicastRecv core call msg_arr len (w :: rest) count res .dequeue s) := by
  simp only [multicastRecv, h]
  cases core with
  | worker v =>
    rw [Int.add_zero]
    exact .nothing ha (.inr rfl)
  | master =>
    simp only [if_pos]
    by_cases hlast : count + 1 = maxPolls
    · rw [if_pos hlast, Int.sub_add_cancel]
      exact .nothing ha (.inr rfl)
    · rw [if_neg hlast]
      exact .nothing ha (.inl rfl)

theorem multicastRecv_moved {call msg_arr len count : ℕ} {todo : List ℕ} {res : ℤ} {pc : RecvPc}
    (ha : s.act core = .recv call msg_arr len todo count res pc) :
    Moved n s core (multicastRecv core call msg_arr len todo count res pc s) := by
  cases todo with
  | nil => exact .endRecv ha
  | cons w rest =>
    cases pc with
    | dequeue =>
      by_cases hbuf : msg_arr = 0
      · exact multicastRecv_nothing ha (by simp only [recvMsg, if_pos hbuf])
      · cases hq : s.ring (recvRing core w) with
        | nil => exact multicastRecv_nothing ha (by simp only [recvMsg, if_neg hbuf, hq])
        | cons b q =>
          simp only [multicastRecv, recvMsg, if_neg hbuf, hq]
          exact .dequeue ha hq
    | copy b => exact .take ha
    | free b =>
      cases core with
      | master => exact .release ha
      | worker v => exact .release ha

/-- **What a step can do.** -/
theorem step_moved {e : Event} (h : step n s e = some s') : Moved n s e.core s' := by
  cases e with
  | send core msg =>
    simp only [step, Option.ite_none_right_eq_some, Option.some_inj] at h
    obtain ⟨⟨hv, ha⟩, rfl⟩ := h
    exact .startSend msg hv ha
  | recv core msg_arr len =>
    simp only [step, Option.ite_none_right_eq_some, Option.some_inj] at h
    obtain ⟨⟨hv, ha⟩, rfl⟩ := h
    exact .startRecv msg_arr len hv ha
  | access core pick =>
    show Moved n s core s'
    simp only [step] at h
    cases ha : s.act core with
    | idle => simp [ha] at h
    | send call msg todo res pc =>
      simp only [ha, Option.some_inj] at h
      rw [← h]
      exact multicastSend_moved ha pick
    | recv call msg_arr len todo count res pc =>
      simp only [ha, Option.some_inj] at h
      rw [← h]
      exact multicastRecv_moved ha

/-! ### The calls -/

/-- The running calls have different numbers below the counter, each has some of its core's workers
left, and holds a buffer only while it does. -/
structure Calls (n : ℕ) (s : State) : Prop where
  fresh : ∀ {core k}, (s.act core).call = some k → k < s.calls
  one : ∀ {core core' k}, (s.act core).call = some k → (s.act core').call = some k → core = core'
  todo : ∀ core, (s.act core).todo <:+ targets n core
  empty : ∀ core, (s.act core).todo = [] → (s.act core).hand = none

theorem act_setAct (a : Act) (c : Core) :
    (s.setAct core a).act c = if c = core then a else s.act c := by
  by_cases hc : c = core
  · simp [State.setAct, hc]
  · simp [State.setAct, hc]

/-- The core goes on with its call, or ends it. -/
theorem Calls.go (h : Calls n s) {a₀ a : Act} (hact : s'.act = Function.update s.act core a)
    (hcalls : s'.calls = s.calls) (ha : s.act core = a₀) (hcall : ∀ k, a.call = some k → a₀.call = some k)
    (htodo : a.todo <:+ a₀.todo) (hempty : a.todo = [] → a.hand = none) : Calls n s' := by
  subst ha
  have hsub : ∀ {c k}, (s'.act c).call = some k → (s.act c).call = some k := by
    intro c k hk
    rw [hact] at hk
    by_cases hc : c = core
    · subst hc
      rw [Function.update_self] at hk
      exact hcall k hk
    · rwa [Function.update_of_ne hc] at hk
  refine ⟨fun hk => ?_, fun hk hk' => h.one (hsub hk) (hsub hk'), fun c => ?_, fun c => ?_⟩
  · rw [hcalls]
    exact h.fresh (hsub hk)
  · rw [hact]
    by_cases hc : c = core
    · subst hc
      rw [Function.update_self]
      exact htodo.trans (h.todo c)
    · rw [Function.update_of_ne hc]
      exact h.todo c
  · rw [hact]
    by_cases hc : c = core
    · subst hc
      rw [Function.update_self]
      exact hempty
    · rw [Function.update_of_ne hc]
      exact h.empty c

/-- The core starts a call. -/
theorem Calls.start (h : Calls n s) {a : Act} (hcall : a.call = some s.calls)
    (htodo : a.todo = targets n core) (hhand : a.hand = none) :
    Calls n ({ s with calls := s.calls + 1 }.setAct core a) := by
  have hold : ∀ {c k}, c ≠ core → (({ s with calls := s.calls + 1 }.setAct core a).act c).call = some k →
      (s.act c).call = some k := by
    intro c k hc hk
    rwa [act_setAct, if_neg hc] at hk
  have hnew : ∀ {k}, (({ s with calls := s.calls + 1 }.setAct core a).act core).call = some k →
      k = s.calls := by
    intro k hk
    rw [act_setAct, if_pos rfl, hcall, Option.some_inj] at hk
    exact hk.symm
  refine ⟨fun {c k} hk => ?_, fun {c c' k} hk hk' => ?_, fun c => ?_, fun c => ?_⟩
  · by_cases hc : c = core
    · subst hc
      rw [hnew hk]
      exact Nat.lt_succ_self _
    · exact Nat.lt_succ_of_lt (h.fresh (hold hc hk))
  · by_cases hc : c = core
    · subst hc
      by_contra hne
      have := h.fresh (hold (Ne.symm hne) hk')
      rw [hnew hk] at this
      exact Nat.lt_irrefl _ this
    · by_cases hc' : c' = core
      · subst hc'
        have := h.fresh (hold hc hk)
        rw [hnew hk'] at this
        exact absurd this (Nat.lt_irrefl _)
      · exact h.one (hold hc hk) (hold hc' hk')
  · rw [act_setAct]
    by_cases hc : c = core
    · subst hc
      rw [if_pos rfl]
      exact htodo ▸ List.suffix_rfl
    · rw [if_neg hc]
      exact h.todo c
  · rw [act_setAct]
    by_cases hc : c = core
    · rw [if_pos hc]
      exact fun _ => hhand
    · rw [if_neg hc]
      exact h.empty c

theorem Calls.step (h : Calls n s) (hm : Moved n s core s') : Calls n s' := by
  cases hm with
  | startSend msg hv ha => exact h.start rfl rfl rfl
  | startRecv msg_arr len hv ha => exact h.start rfl rfl rfl
  | endSend ha => exact h.go rfl rfl ha nofun List.nil_suffix fun _ => rfl
  | endRecv ha => exact h.go rfl rfl ha nofun List.nil_suffix fun _ => rfl
  | noBuffer ha => exact h.go rfl rfl ha (fun _ => id) (List.suffix_cons _ _) fun _ => rfl
  | getBuffer ha hlen hb => exact h.go rfl rfl ha (fun _ => id) List.suffix_rfl nofun
  | fill ha => exact h.go rfl rfl ha (fun _ => id) List.suffix_rfl nofun
  | enqueue ha => exact h.go rfl rfl ha (fun _ => id) (List.suffix_cons _ _) fun _ => rfl
  | full ha => exact h.go rfl rfl ha (fun _ => id) List.suffix_rfl nofun
  | giveBack ha => exact h.go rfl rfl ha (fun _ => id) (List.suffix_cons _ _) fun _ => rfl
  | nothing ha htodo =>
    refine h.go rfl rfl ha (fun _ => id) ?_ fun _ => rfl
    rcases htodo with rfl | rfl
    · exact List.suffix_rfl
    · exact List.suffix_cons _ _
  | dequeue ha hq => exact h.go rfl rfl ha (fun _ => id) List.suffix_rfl nofun
  | take ha => exact h.go rfl rfl ha (fun _ => id) List.suffix_rfl nofun
  | release ha => exact h.go rfl rfl ha (fun _ => id) (List.suffix_cons _ _) fun _ => rfl

/-! ### Custody -/

inductive Place where
  | pool
  | ring (r : Ring)
  | hand (core : Core)
  deriving DecidableEq

/-- The buffer is in that place. -/
def State.At (s : State) (b : ℕ) : Place → Prop
  | .pool => b ∈ s.pool
  | .ring r => b ∈ s.ring r
  | .hand core => (s.act core).hand = some b

/-- The places of the buffers `bufs` are as `loc` has them, each place holds a buffer once, and no other
buffer is anywhere. -/
structure Places (bufs : List ℕ) (s : State) (loc : ℕ → Place) : Prop where
  place : ∀ b pl, s.At b pl ↔ b ∈ bufs ∧ loc b = pl
  pool : s.pool.Nodup
  ring : ∀ r, (s.ring r).Nodup

/-- Every buffer is in the pool, in one ring, or in the hands of one running call, and there once; no
other buffer is anywhere. -/
def Kept (bufs : List ℕ) (s : State) : Prop :=
  (∀ b ∈ bufs, ∃! pl, s.At b pl) ∧ (∀ b pl, s.At b pl → b ∈ bufs) ∧ s.pool.Nodup ∧ ∀ r, (s.ring r).Nodup

variable {bufs : List ℕ} {loc : ℕ → Place} {b : ℕ} {pl : Place} {t : ℕ × ℕ} {a : Act} {r : Ring}

theorem Places.kept (h : Places bufs s loc) : Kept bufs s := by
  refine ⟨fun b hb => ⟨loc b, (h.place b _).2 ⟨hb, rfl⟩, fun pl hpl => ?_⟩,
    fun b pl hpl => ((h.place b pl).1 hpl).1, h.pool, h.ring⟩
  exact ((h.place b pl).1 hpl).2.symm

/-- A buffer is nowhere else. -/
theorem Places.only (h : Places bufs s loc) (hat : s.At b pl) (pl' : Place) : s.At b pl' ↔ pl' = pl := by
  obtain ⟨hb, hloc⟩ := (h.place b pl).1 hat
  rw [h.place, hloc]
  constructor
  · rintro ⟨-, rfl⟩
    rfl
  · rintro rfl
    exact ⟨hb, rfl⟩

/-- A place that a buffer neither comes from nor goes to is not concerned by its move. -/
theorem Places.elsewhere (h : Places bufs s loc) {pl : Place} (hat : s.At b pl) (pl' q : Place) (hq : q ≠ pl)
    (hq' : q ≠ pl') (b' : ℕ) : s.At b' q ↔ if b' = b then q = pl' else s.At b' q := by
  by_cases hbb : b' = b
  · subst hbb
    rw [if_pos rfl, h.only hat]
    exact iff_of_false hq hq'
  · rw [if_neg hbb]

/-- One buffer goes to another place. -/
theorem Places.move (h : Places bufs s loc) (hb : b ∈ bufs) (pl : Place)
    (hat : ∀ b' q, s'.At b' q ↔ if b' = b then q = pl else s.At b' q)
    (hpool : s'.pool.Nodup) (hring : ∀ r, (s'.ring r).Nodup) :
    Places bufs s' (Function.update loc b pl) := by
  refine ⟨fun b' q => ?_, hpool, hring⟩
  rw [hat]
  by_cases hne : b' = b
  · subst hne
    rw [if_pos rfl, Function.update_self]
    constructor
    · rintro rfl
      exact ⟨hb, rfl⟩
    · rintro ⟨-, rfl⟩
      rfl
  · rw [if_neg hne, h.place, Function.update_of_ne hne]

theorem hand_setAct (c : Core) :
    ((s.setAct core a).act c).hand = if c = core then a.hand else (s.act c).hand := by
  by_cases hc : c = core
  · simp [State.setAct, hc]
  · simp [State.setAct, hc]

/-- The core goes on with the same hands. -/
theorem Places.stay (h : Places bufs s loc) (ha : a.hand = (s.act core).hand) :
    Places bufs (s.setAct core a) loc := by
  refine ⟨fun b pl => ?_, h.pool, h.ring⟩
  rw [← h.place]
  cases pl with
  | pool => rfl
  | ring r => rfl
  | hand c =>
    simp only [State.At, hand_setAct]
    by_cases hc : c = core
    · rw [if_pos hc, ha, hc]
    · rw [if_neg hc]

/-- The hands after a core has taken up a buffer that nobody held. -/
theorem hand_takeUp (hempty : (s.act core).hand = none) (ha : a.hand = some b)
    (hnone : ∀ c, (s.act c).hand ≠ some b) (b' : ℕ) (c : Core) :
    ((s.setAct core a).act c).hand = some b' ↔
      if b' = b then Place.hand c = .hand core else (s.act c).hand = some b' := by
  rw [hand_setAct, Place.hand.injEq]
  by_cases hc : c = core
  · subst hc
    rw [if_pos rfl, ha, hempty]
    by_cases hb : b' = b
    · simp [hb]
    · simp [hb, Ne.symm hb]
  · rw [if_neg hc]
    by_cases hb : b' = b
    · simp [hb, hc, hnone]
    · rw [if_neg hb]

/-- The hands after a core has laid down its buffer. -/
theorem hand_layDown (hb : (s.act core).hand = some b) (ha : a.hand = none)
    (honly : ∀ c, (s.act c).hand = some b → c = core) (b' : ℕ) (c : Core) :
    ((s.setAct core a).act c).hand = some b' ↔ b' ≠ b ∧ (s.act c).hand = some b' := by
  rw [hand_setAct]
  by_cases hc : c = core
  · subst hc
    rw [if_pos rfl, ha, hb]
    simp only [reduceCtorEq, Option.some_inj, false_iff]
    rintro ⟨hne, rfl⟩
    exact hne rfl
  · rw [if_neg hc]
    constructor
    · intro h
      refine ⟨?_, h⟩
      rintro rfl
      exact hc (honly c h)
    · exact And.right

/-- From the pool into the hands of the call. -/
theorem Places.get (h : Places bufs s loc) (hb : b ∈ s.pool) (hempty : (s.act core).hand = none)
    (ha : a.hand = some b) :
    Places bufs ((s.perform t (.get b)).setAct core a) (Function.update loc b (.hand core)) := by
  have hat : s.At b .pool := hb
  have hnone : ∀ c, (s.act c).hand ≠ some b := fun c hc => by simpa using (h.only hat (.hand c)).1 hc
  refine h.move ((h.place b _).1 hat).1 _ (fun b' q => ?_) (h.pool.erase b) h.ring
  cases q with
  | pool =>
    have hp : b' ∈ s.pool.erase b ↔ b' ≠ b ∧ b' ∈ s.pool := h.pool.mem_erase_iff
    simp only [State.At, State.setAct, State.perform, Access.onPool, hp]
    by_cases hbb : b' = b
    · simp [hbb]
    · simp [hbb]
  | ring r => exact h.elsewhere hat (.hand core) (.ring r) (by simp) (by simp) b'
  | hand c => exact hand_takeUp (s := s.perform t (.get b)) hempty ha hnone b' c

/-- From the hands of the call into a ring. -/
theorem Places.enqueue (h : Places bufs s loc) (hb : (s.act core).hand = some b) (ha : a.hand = none) :
    Places bufs ((s.perform t (.enqueue r b)).setAct core a) (Function.update loc b (.ring r)) := by
  have hat : s.At b (.hand core) := hb
  have hring : ∀ r', b ∉ s.ring r' := fun r' hr => by simpa using (h.only hat (.ring r')).1 hr
  have hnd : ∀ r', (Function.update s.ring r (s.ring r ++ [b]) r').Nodup := by
    intro r'
    by_cases hr : r' = r
    · subst hr
      rw [Function.update_self]
      exact List.nodup_append.2 ⟨h.ring r', List.nodup_singleton b, fun x hx y hy hxy => hring r' (by
        rw [List.mem_singleton.1 hy] at hxy
        rwa [← hxy])⟩
    · rw [Function.update_of_ne hr]
      exact h.ring r'
  refine h.move ((h.place b _).1 hat).1 _ (fun b' q => ?_) h.pool hnd
  cases q with
  | pool => exact h.elsewhere hat (.ring r) .pool (by simp) (by simp) b'
  | ring r' =>
    simp only [State.At, State.setAct, State.perform, Access.onRings, Place.ring.injEq]
    by_cases hr : r' = r
    · subst hr
      rw [Function.update_self, List.mem_append, List.mem_singleton]
      by_cases hbb : b' = b
      · simp [hbb]
      · simp [hbb]
    · rw [Function.update_of_ne hr]
      simpa [State.At] using h.elsewhere hat (.ring r) (.ring r') (by simp) (by simp [hr]) b'
  | hand c =>
    refine (hand_layDown (s := s.perform t (.enqueue r b)) hb ha (fun c hc => ?_) b' c).trans ?_
    · simpa using (h.only hat (.hand c)).1 hc
    · by_cases hbb : b' = b
      · simp [hbb]
      · simp [hbb, State.At, State.perform]

/-- From a ring into the hands of the call. -/
theorem Places.dequeue {q : List ℕ} (h : Places bufs s loc) (hq : s.ring r = b :: q)
    (hempty : (s.act core).hand = none) (ha : a.hand = some b) :
    Places bufs ((s.perform t (.dequeue r)).setAct core a) (Function.update loc b (.hand core)) := by
  have hat : s.At b (.ring r) := by
    simp [State.At, hq]
  have hnone : ∀ c, (s.act c).hand ≠ some b := fun c hc => by simpa using (h.only hat (.hand c)).1 hc
  have hnd := h.ring r
  rw [hq, List.nodup_cons] at hnd
  refine h.move ((h.place b _).1 hat).1 _ (fun b' q' => ?_) h.pool fun r' => ?_
  · cases q' with
    | pool => exact h.elsewhere hat (.hand core) .pool (by simp) (by simp) b'
    | ring r' =>
      simp only [State.At, State.setAct, State.perform, Access.onRings, reduceCtorEq]
      by_cases hr : r' = r
      · subst hr
        rw [Function.update_self, hq, List.tail_cons]
        by_cases hbb : b' = b
        · simp [hbb, hnd.1]
        · simp [hbb]
      · rw [Function.update_of_ne hr]
        simpa [State.At] using h.elsewhere hat (.hand core) (.ring r') (by simp [hr]) (by simp) b'
    | hand c => exact hand_takeUp (s := s.perform t (.dequeue r)) hempty ha hnone b' c
  · by_cases hr : r' = r
    · subst hr
      simpa [State.setAct, State.perform, Access.onRings, hq] using hnd.2
    · simpa [State.setAct, State.perform, Access.onRings, hr] using h.ring r'

/-- From the hands of the call into the pool. -/
theorem Places.put (h : Places bufs s loc) (hb : (s.act core).hand = some b) (ha : a.hand = none) :
    Places bufs ((s.perform t (.put b)).setAct core a) (Function.update loc b .pool) := by
  have hat : s.At b (.hand core) := hb
  have hpool : b ∉ s.pool := fun hp => by simpa using (h.only hat .pool).1 hp
  refine h.move ((h.place b _).1 hat).1 _ (fun b' q => ?_) (List.nodup_cons.2 ⟨hpool, h.pool⟩) h.ring
  cases q with
  | pool =>
    simp only [State.At, State.setAct, State.perform, Access.onPool, List.mem_cons]
    by_cases hbb : b' = b
    · simp [hbb]
    · simp [hbb]
  | ring r => exact h.elsewhere hat .pool (.ring r) (by simp) (by simp) b'
  | hand c =>
    refine (hand_layDown (s := s.perform t (.put b)) hb ha (fun c hc => ?_) b' c).trans ?_
    · simpa using (h.only hat (.hand c)).1 hc
    · by_cases hbb : b' = b
      · simp [hbb]
      · simp [hbb, State.At, State.perform]

/-- Where the buffers are does not depend on what is noted beside the code's state. -/
theorem Places.congr (h : Places bufs s loc) (hpool : s'.pool = s.pool) (hring : s'.ring = s.ring)
    (hact : s'.act = s.act) : Places bufs s' loc := by
  refine ⟨fun b pl => ?_, by rw [hpool]; exact h.pool, by rw [hring]; exact h.ring⟩
  rw [← h.place]
  cases pl with
  | pool => simp only [State.At, hpool]
  | ring r => simp only [State.At, hring]
  | hand c => simp only [State.At, hact]

/-- **Custody.** A step keeps the buffers. -/
theorem Places.step (h : Places bufs s loc) (hc : Calls n s) (hm : Moved n s core s') :
    ∃ loc', Places bufs s' loc' := by
  have hidle : (s.act core).todo = [] → (Act.idle).hand = (s.act core).hand := by
    intro htodo
    exact (hc.empty core htodo).symm
  cases hm with
  | startSend msg hv ha => exact ⟨_, (h.stay (by rw [ha]; rfl)).congr rfl rfl rfl⟩
  | startRecv msg_arr len hv ha => exact ⟨_, (h.stay (by rw [ha]; rfl)).congr rfl rfl rfl⟩
  | endSend ha => exact ⟨_, (h.stay (hidle (by rw [ha]; rfl))).congr rfl rfl rfl⟩
  | endRecv ha => exact ⟨_, (h.stay (hidle (by rw [ha]; rfl))).congr rfl rfl rfl⟩
  | noBuffer ha => exact ⟨_, (h.stay (by rw [ha]; rfl)).congr rfl rfl rfl⟩
  | getBuffer ha hlen hb => exact ⟨_, h.get hb (by rw [ha]; rfl) rfl⟩
  | fill ha => exact ⟨_, (h.stay (by rw [ha]; rfl)).congr rfl rfl rfl⟩
  | @enqueue call msg w rest res b ha =>
    exact ⟨_, (h.enqueue (t := (call, w)) (by rw [ha]; rfl) rfl).congr rfl rfl rfl⟩
  | full ha => exact ⟨_, h.stay (by rw [ha]; rfl)⟩
  | @giveBack call msg w rest res b ha =>
    exact ⟨_, (h.put (t := (call, w)) (by rw [ha]; rfl) rfl).congr rfl rfl rfl⟩
  | nothing ha htodo => exact ⟨_, h.stay (by rw [ha]; rfl)⟩
  | dequeue ha hq => exact ⟨_, h.dequeue hq (by rw [ha]; rfl) rfl⟩
  | take ha => exact ⟨_, (h.stay (by rw [ha]; rfl)).congr rfl rfl rfl⟩
  | release ha => exact ⟨_, h.put (by rw [ha]; rfl) rfl⟩

end FlowQoS.Message.Transport
