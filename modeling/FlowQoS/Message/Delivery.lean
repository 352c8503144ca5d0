import FlowQoS.Message.Custody
import FlowQoS.Lib.Trace
import Mathlib.Data.List.Forall2
import Mathlib.Data.List.Range

/-!
# What the transport keeps

Over every interleaving of the calls of the master and of the workers:

* the messages that come out of a ring are those that went in, in order, and the others are still on
  their way in the ring or with its receiver (`InOrder`);
* a call returns the number of workers it has sent to or received from (`Counted`);
* a send that fails has taken a buffer and put it back, or done nothing (`Borrowed`), so that the pool
  and the rings are as they would be without it.

Each of these is an invariant that one step keeps; `run_transported` is the run.
-/

namespace FlowQoS.Message.Transport

open Lib

variable {n : ℕ} {s s' : State} {core : Core} {bufs : List ℕ} {loc : ℕ → Place} {r : Ring} {a : Act}

/-! ### In order -/

/-- The core that receives from a ring. -/
def Ring.consumer (r : Ring) : Core := if r.is_request then .worker r.w else .master

/-- The buffer that the call has taken out of the ring of a worker and has not copied yet. -/
def Act.pending : Act → ℕ → List ℕ
  | .recv _ _ _ (w :: _) _ _ (.copy b), v => if w = v then [b] else []
  | _, _ => []

def State.pending (s : State) (r : Ring) : List ℕ := (s.act r.consumer).pending r.w

/-- The message is in the buffer. -/
def Holds (mem : ℕ → List UInt8) (m : Sent) (b : ℕ) : Prop :=
  m.msg <+: mem b ∧ m.msg.length ≤ messageMaxSize

/-- The message has been received by the consumer of the ring, with the first bytes unchanged. -/
structure Faithful (r : Ring) (m : Sent) (d : Delivered) : Prop where
  core : d.core = r.consumer
  bytes : d.bytes.take (min m.msg.length d.len) = m.msg.take (min m.msg.length d.len)

/-- The messages that went into the ring are those that came out of it, in order, and then those in the
buffers that are on their way. -/
def InOrder (s : State) (r : Ring) : Prop :=
  ∃ done rest, s.sent r = done ++ rest ∧ List.Forall₂ (Faithful r) done (s.delivered r) ∧
    List.Forall₂ (Holds s.mem) rest (s.pending r ++ s.ring r)

/-- The message of a send is in its buffer before it goes into the ring. -/
def Act.Filled (mem : ℕ → List UInt8) : Act → Prop
  | .send _ msg _ _ (.copy _) => msg.length ≤ messageMaxSize
  | .send call msg _ _ (.enqueue b) => Holds mem ⟨call, msg⟩ b
  | _ => True

theorem consumer_recvRing {w : ℕ} (hw : w ∈ targets n core) : (recvRing core w).consumer = core := by
  cases core with
  | master => rfl
  | worker v =>
    rw [targets, List.mem_singleton] at hw
    subst hw
    rfl

theorem recvRing_consumer (r : Ring) : recvRing r.consumer r.w = r := by
  obtain ⟨w, req⟩ := r
  cases req <;> rfl

theorem mem_targets {w : ℕ} {rest : List ℕ} (hc : Calls n s) (h : (s.act core).todo = w :: rest) :
    w ∈ targets n core :=
  (hc.todo core).subset (by rw [h]; exact List.mem_cons_self)

section
variable {call arr len count w b : ℕ} {todo rest : List ℕ} {res : ℤ}

theorem pending_dequeue : (Act.recv call arr len todo count res .dequeue).pending = fun _ => [] := by
  funext v
  cases todo <;> rfl

theorem pending_free : (Act.recv call arr len todo count res (.free b)).pending = fun _ => [] := by
  funext v
  cases todo <;> rfl

theorem pending_own :
    (Act.recv call arr len (w :: rest) count res (.copy b)).pending (recvRing core w).w = [b] :=
  if_pos rfl

end

theorem pending_act (hact : s'.act = Function.update s.act core a) (r : Ring) :
    s'.pending r = if r.consumer = core then a.pending r.w else s.pending r := by
  unfold State.pending
  rw [hact]
  by_cases hc : r.consumer = core
  · rw [hc, Function.update_self, if_pos rfl]
  · rw [Function.update_of_ne hc, if_neg hc]

theorem pending_go (hact : s'.act = Function.update s.act core a)
    (h : a.pending = (s.act core).pending) (r : Ring) : s'.pending r = s.pending r := by
  rw [pending_act hact, h]
  by_cases hc : r.consumer = core
  · rw [if_pos hc, ← hc]
    rfl
  · rw [if_neg hc]

/-- Where a core takes a message out of a ring or copies it, nothing is pending from the other rings. -/
theorem pending_other {call arr len count w b : ℕ} {rest : List ℕ} {res : ℤ}
    (hr : r ≠ recvRing core w) (hc : r.consumer = core) :
    (Act.recv call arr len (w :: rest) count res (.copy b)).pending r.w = [] := by
  refine if_neg ?_
  rintro rfl
  rw [← hc, recvRing_consumer] at hr
  exact hr rfl

/-- A buffer that is taken and not copied is in the hands of the consumer. -/
theorem hand_of_pending {b : ℕ} (hb : b ∈ s.pending r) : (s.act r.consumer).hand = some b := by
  simp only [State.pending] at hb
  generalize s.act r.consumer = a at hb
  unfold Act.pending at hb
  split at hb
  · next w _ _ _ b' =>
    by_cases hw : w = r.w
    · rw [if_pos hw, List.mem_singleton] at hb
      rw [hb]
      rfl
    · rw [if_neg hw] at hb
      cases hb
  · cases hb

/-- The same messages and buffers. -/
theorem InOrder.congr (h : InOrder s r) (hsent : s'.sent r = s.sent r)
    (hdelivered : s'.delivered r = s.delivered r) (hmem : ∀ b ∈ s.pending r ++ s.ring r, s'.mem b = s.mem b)
    (hbufs : s'.pending r ++ s'.ring r = s.pending r ++ s.ring r) : InOrder s' r := by
  obtain ⟨done, rest, hs, hd, hr⟩ := h
  refine ⟨done, rest, by rw [hsent, hs], by rw [hdelivered]; exact hd, ?_⟩
  rw [hbufs]
  generalize s.pending r ++ s.ring r = bufs at hr hmem
  clear hs
  induction hr with
  | nil => exact .nil
  | cons hb _ ih =>
    refine .cons ?_ (ih fun b hb => hmem b (List.mem_cons_of_mem _ hb))
    unfold Holds
    rw [hmem _ List.mem_cons_self]
    exact hb

/-- A message goes into the ring. -/
theorem InOrder.enqueue {m : Sent} {b : ℕ} (h : InOrder s r) (hm : Holds s.mem m b)
    (hsent : s'.sent r = s.sent r ++ [m]) (hdelivered : s'.delivered r = s.delivered r)
    (hmem : s'.mem = s.mem) (hbufs : s'.pending r ++ s'.ring r = s.pending r ++ s.ring r ++ [b]) :
    InOrder s' r := by
  obtain ⟨done, rest, hs, hd, hr⟩ := h
  refine ⟨done, rest ++ [m], by rw [hsent, hs, List.append_assoc], by rw [hdelivered]; exact hd, ?_⟩
  rw [hbufs, hmem]
  exact List.rel_append hr (.cons hm .nil)

/-- The first buffer on its way is copied. -/
theorem InOrder.take {d : Delivered} {b : ℕ} {q : List ℕ} (h : InOrder s r)
    (hd : ∀ m, Holds s.mem m b → Faithful r m d) (hbufs : s.pending r ++ s.ring r = b :: q)
    (hsent : s'.sent r = s.sent r) (hdelivered : s'.delivered r = s.delivered r ++ [d])
    (hmem : s'.mem = s.mem) (hbufs' : s'.pending r ++ s'.ring r = q) : InOrder s' r := by
  obtain ⟨done, rest, hs, hdone, hr⟩ := h
  rw [hbufs] at hr
  cases hr with
  | @cons m _ rest' _ hm hrest =>
    refine ⟨done ++ [m], rest', by rw [hsent, hs]; simp, ?_, ?_⟩
    · rw [hdelivered]
      exact List.rel_append hdone (.cons (hd m hm) .nil)
    · rw [hbufs', hmem]
      exact hrest

/-- What is copied out of a buffer with a message begins as the message. -/
theorem faithful_take {m : Sent} {b call len arr : ℕ} (hm : Holds s.mem m b) (hc : r.consumer = core) :
    Faithful r m
      ⟨core, call, len, arr, (s.mem b).take (if len > messageMaxSize then messageMaxSize else len)⟩ := by
  refine ⟨hc.symm, ?_⟩
  obtain ⟨⟨tail, htail⟩, hlen⟩ := hm
  simp only [← htail, List.take_take]
  have hmin : min (min m.msg.length len) (if len > messageMaxSize then messageMaxSize else len) =
      min m.msg.length len := by
    split <;> omega
  rw [hmin, List.take_append_of_le_length (by omega)]

/-- The core goes on, with the rings and the messages as they are. -/
theorem InOrder.go {a₀ : Act} (h : InOrder s r) (hact : s'.act = Function.update s.act core a)
    (hsent : s'.sent = s.sent) (hdelivered : s'.delivered = s.delivered) (hmem : s'.mem = s.mem)
    (hring : s'.ring = s.ring) (ha : s.act core = a₀) (hpend : a.pending = a₀.pending) : InOrder s' r := by
  subst ha
  refine h.congr (by rw [hsent]) (by rw [hdelivered]) (fun b _ => by rw [hmem]) ?_
  rw [pending_go hact hpend, hring]

/-- A buffer that is on its way is not in the hands of a core that sends. -/
theorem ne_of_pending {b b' : ℕ} (hp : Places bufs s loc) (hb : (s.act core).hand = some b)
    (hnone : (s.act core).pending = fun _ => []) (hb' : b' ∈ s.pending r ++ s.ring r) : b' ≠ b := by
  rintro rfl
  have hat : s.At b' (.hand core) := hb
  rcases List.mem_append.1 hb' with hpend | hring
  · have hh := (hp.only hat (.hand r.consumer)).1 (hand_of_pending hpend)
    rw [Place.hand.injEq] at hh
    rw [State.pending, hh, hnone] at hpend
    cases hpend
  · exact nomatch (hp.only hat (.ring r)).1 hring

/-- The cores go on with the messages in their buffers. -/
theorem filled_go (h : ∀ c, (s.act c).Filled s.mem) (hact : s'.act = Function.update s.act core a)
    (ha : a.Filled s'.mem) (hmem : ∀ c, c ≠ core → ∀ b, (s.act c).hand = some b → s'.mem b = s.mem b)
    (c : Core) : (s'.act c).Filled s'.mem := by
  rw [hact]
  by_cases hc : c = core
  · subst hc
    rw [Function.update_self]
    exact ha
  · rw [Function.update_of_ne hc]
    have hold := h c
    have hsame := hmem c hc
    generalize s.act c = a' at hold hsame
    unfold Act.Filled at hold ⊢
    split
    · exact hold
    · simp only [Holds, hsame _ rfl]
      exact hold
    · trivial

theorem filled_step (hp : Places bufs s loc) (h : ∀ c, (s.act c).Filled s.mem) (hm : Moved n s core s') :
    ∀ c, (s'.act c).Filled s'.mem := by
  have hself := h core
  cases hm with
  | startSend msg hv ha => exact filled_go h rfl trivial fun _ _ _ _ => rfl
  | startRecv msg_arr len hv ha => exact filled_go h rfl trivial fun _ _ _ _ => rfl
  | endSend ha => exact filled_go h rfl trivial fun _ _ _ _ => rfl
  | endRecv ha => exact filled_go h rfl trivial fun _ _ _ _ => rfl
  | noBuffer ha => exact filled_go h rfl trivial fun _ _ _ _ => rfl
  | getBuffer ha hlen hb => exact filled_go h rfl hlen fun _ _ _ _ => rfl
  | @fill call msg w rest res b ha =>
    rw [ha] at hself
    refine filled_go h rfl ⟨?_, hself⟩ fun c hc b' hb' => Function.update_of_ne ?_ ..
    · simp only [copyMsg, State.setAct, Function.update_self]
      exact List.prefix_append ..
    · rintro rfl
      have hat : s.At b' (.hand core) := by
        rw [State.At, ha]
        rfl
      exact hc (Place.hand.inj ((hp.only hat (.hand c)).1 hb'))
  | enqueue ha => exact filled_go h rfl trivial fun _ _ _ _ => rfl
  | full ha => exact filled_go h rfl trivial fun _ _ _ _ => rfl
  | giveBack ha => exact filled_go h rfl trivial fun _ _ _ _ => rfl
  | nothing ha htodo => exact filled_go h rfl trivial fun _ _ _ _ => rfl
  | dequeue ha hq => exact filled_go h rfl trivial fun _ _ _ _ => rfl
  | take ha => exact filled_go h rfl trivial fun _ _ _ _ => rfl
  | release ha => exact filled_go h rfl trivial fun _ _ _ _ => rfl

theorem InOrder.step (hp : Places bufs s loc) (hc : Calls n s) (hf : ∀ c, (s.act c).Filled s.mem)
    (h : ∀ r, InOrder s r) (hm : Moved n s core s') : ∀ r, InOrder s' r := by
  intro r
  cases hm with
  | startSend msg hv ha => exact (h r).go rfl rfl rfl rfl rfl ha rfl
  | startRecv msg_arr len hv ha => exact (h r).go rfl rfl rfl rfl rfl ha pending_dequeue
  | endSend ha => exact (h r).go rfl rfl rfl rfl rfl ha rfl
  | endRecv ha => exact (h r).go rfl rfl rfl rfl rfl ha rfl
  | noBuffer ha => exact (h r).go rfl rfl rfl rfl rfl ha rfl
  | getBuffer ha hlen hb => exact (h r).go rfl rfl rfl rfl rfl ha rfl
  | @fill call msg w rest res b ha =>
    refine (h r).congr rfl rfl (fun b' hb' => ?_) ?_
    · exact Function.update_of_ne (ne_of_pending hp (by rw [ha]; rfl) (by rw [ha]; rfl) hb') _ _
    · rw [pending_go (s := s) (a := .send call msg (w :: rest) res (.enqueue b)) rfl (by rw [ha]; rfl)]
      rfl
  | @enqueue call msg w rest res b ha =>
    have hact : (((s.perform (call, w) (.enqueue (sendRing core w) b)).noteSent (sendRing core w)
        ⟨call, msg⟩).setAct core (.send call msg rest (res + 1) .make)).act =
          Function.update s.act core (.send call msg rest (res + 1) .make) := rfl
    have hpend := pending_go hact (by rw [ha]; rfl) r
    by_cases hr : r = sendRing core w
    · subst hr
      have hfilled := hf core
      rw [ha] at hfilled
      refine (h _).enqueue hfilled (Function.update_self ..) rfl rfl ?_
      rw [hpend, List.append_assoc]
      exact congrArg _ (Function.update_self ..)
    · refine (h r).congr (Function.update_of_ne hr ..) rfl (fun _ _ => rfl) ?_
      rw [hpend]
      exact congrArg _ (Function.update_of_ne hr ..)
  | full ha => exact (h r).go rfl rfl rfl rfl rfl ha rfl
  | giveBack ha => exact (h r).go rfl rfl rfl rfl rfl ha rfl
  | nothing ha htodo =>
    exact (h r).go rfl rfl rfl rfl rfl ha (pending_dequeue.trans pending_dequeue.symm)
  | @dequeue call arr len w rest count res b q ha hq =>
    have hact : ((s.perform (call, w) (.dequeue (recvRing core w))).setAct core
        (.recv call arr len (w :: rest) count res (.copy b))).act =
          Function.update s.act core (.recv call arr len (w :: rest) count res (.copy b)) := rfl
    have hpend := pending_act hact r
    have hcons := consumer_recvRing (mem_targets hc (by rw [ha]; rfl))
    have hnone : ∀ v, (s.act core).pending v = [] := by
      intro v
      rw [ha, pending_dequeue]
    refine (h r).congr rfl rfl (fun _ _ => rfl) ?_
    rw [hpend]
    by_cases hr : r = recvRing core w
    · subst hr
      rw [if_pos hcons, pending_own, State.pending, hcons, hnone, hq]
      exact congrArg (b :: ·) ((Function.update_self ..).trans (by rw [hq]; rfl))
    · have hring : Function.update s.ring (recvRing core w) (s.ring (recvRing core w)).tail r = s.ring r :=
        Function.update_of_ne hr ..
      by_cases hcore : r.consumer = core
      · rw [if_pos hcore, pending_other hr hcore, State.pending, hcore, hnone]
        exact congrArg _ hring
      · rw [if_neg hcore]
        exact congrArg _ hring
  | @take call arr len w rest count res b ha =>
    have hact : ((s.noteDelivered (recvRing core w)
        ⟨core, call, len, arr, (s.mem b).take (if len > messageMaxSize then messageMaxSize else len)⟩).setAct
          core (.recv call arr len (w :: rest) count res (.free b))).act =
            Function.update s.act core (.recv call arr len (w :: rest) count res (.free b)) := rfl
    have hpend := pending_act hact r
    rw [pending_free] at hpend
    have hcons := consumer_recvRing (mem_targets hc (by rw [ha]; rfl))
    by_cases hr : r = recvRing core w
    · subst hr
      rw [if_pos hcons] at hpend
      refine (h _).take (q := s.ring (recvRing core w)) (fun m hm => faithful_take hm hcons) ?_ rfl
        (Function.update_self ..) rfl ?_
      · rw [State.pending, hcons, ha, pending_own]
        rfl
      · rw [hpend]
        rfl
    · refine (h r).congr rfl (Function.update_of_ne hr ..) (fun _ _ => rfl) ?_
      rw [hpend]
      by_cases hcore : r.consumer = core
      · rw [if_pos hcore, State.pending, hcore, ha, pending_other hr hcore]
        rfl
      · rw [if_neg hcore]
        rfl
  | release ha => exact (h r).go rfl rfl rfl rfl rfl ha (pending_dequeue.trans pending_free.symm)

/-! ### What the calls return -/

/-- The call has sent a message to, or for, the worker. -/
def State.sentTo (s : State) (core : Core) (call w : ℕ) : Bool :=
  (s.sent (sendRing core w)).any fun m => m.call = call

/-- The call has received a message from, or for, the worker. -/
def State.receivedFrom (s : State) (core : Core) (call w : ℕ) : Bool :=
  (s.delivered (recvRing core w)).any fun d => d.call = call

/-- The number of workers that a call has reached. -/
def State.number (s : State) (n : ℕ) (x : Returned) : ℕ :=
  (targets n x.core).countP fun w =>
    if x.send then s.sentTo x.core x.call w else s.receivedFrom x.core x.call w

/-- Of all the workers, `res` have been reached before those left in `todo`; of these only the first can
have been, and is if `hd`. -/
def Tally (all : List ℕ) (reached : ℕ → Bool) (todo : List ℕ) (res : ℤ) (hd : Bool) : Prop :=
  ∃ fin, all = fin ++ todo ∧ res = fin.countP reached ∧ (∀ w ∈ todo.head?, reached w = hd) ∧
    ∀ v ∈ todo.tail, reached v = false

def RecvPc.copied : RecvPc → Bool
  | .free _ => true
  | _ => false

/-- The count of a running call is that of the workers it has come past. -/
def Act.Tallied (n : ℕ) (s : State) (core : Core) : Act → Prop
  | .idle => True
  | .send call _ todo res _ => Tally (targets n core) (s.sentTo core call) todo res false
  | .recv call _ _ todo _ res pc => Tally (targets n core) (s.receivedFrom core call) todo res pc.copied

/-- The calls count the workers they reach. -/
structure Counted (n : ℕ) (s : State) : Prop where
  sent : ∀ r m, m ∈ s.sent r → m.call < s.calls
  delivered : ∀ r d, d ∈ s.delivered r → d.call < s.calls
  active : ∀ core, (s.act core).Tallied n s core
  returned : ∀ x ∈ s.returned,
    x.call < s.calls ∧ (∀ core, (s.act core).call ≠ some x.call) ∧ x.ret = s.number n x

theorem targets_nodup (n : ℕ) (core : Core) : (targets n core).Nodup := by
  cases core with
  | master => exact List.nodup_range
  | worker w => exact List.nodup_singleton w

section
variable {all todo rest : List ℕ} {reached reached' : ℕ → Bool} {w : ℕ} {res : ℤ} {hd : Bool}

theorem Tally.start (h : ∀ w ∈ all, reached w = false) : Tally all reached all 0 false :=
  ⟨[], rfl, rfl, fun w hw => h w (List.mem_of_mem_head? hw), fun v hv => h v (List.mem_of_mem_tail hv)⟩

theorem Tally.next (h : Tally all reached (w :: rest) res hd) :
    Tally all reached rest (res + if hd then 1 else 0) false := by
  obtain ⟨fin, rfl, rfl, hhead, htail⟩ := h
  refine ⟨fin ++ [w], by simp, ?_, fun v hv => htail v (List.mem_of_mem_head? hv),
    fun v hv => htail v (List.mem_of_mem_tail hv)⟩
  rw [List.countP_append, List.countP_singleton, hhead w rfl]
  split <;> simp

theorem Tally.mark (h : Tally all reached (w :: rest) res false) (hnd : all.Nodup)
    (hw : reached' w = true) (hother : ∀ v, v ≠ w → reached' v = reached v) :
    Tally all reached' (w :: rest) res true := by
  obtain ⟨fin, rfl, rfl, hhead, htail⟩ := h
  obtain ⟨-, hrest, hdisj⟩ := List.nodup_append.1 hnd
  refine ⟨fin, rfl, ?_, fun v hv => ?_, fun v hv => ?_⟩
  · congr 1
    refine List.countP_congr fun v hv => ?_
    rw [hother v (hdisj v hv w List.mem_cons_self)]
  · cases hv
    exact hw
  · rw [hother v fun hvw => (List.nodup_cons.1 hrest).1 (hvw ▸ hv)]
    exact htail v hv

theorem Tally.finish (h : Tally all reached [] res hd) : res = all.countP reached := by
  obtain ⟨fin, rfl, rfl, -⟩ := h
  rw [List.append_nil]

end

/-- A core goes on with its call, or ends it: what it sends and receives has the number of the call. -/
theorem Counted.go {a₀ : Act} {k₀ : ℕ} (h : Counted n s) (hc : Calls n s) (ha : s.act core = a₀)
    (hk₀ : a₀.call = some k₀) (hact : s'.act = Function.update s.act core a) (hcalls : s'.calls = s.calls)
    (hcall : ∀ k, a.call = some k → k = k₀)
    (hsent : ∀ r m, m ∈ s'.sent r → m ∈ s.sent r ∨ m.call = k₀)
    (hdelivered : ∀ r d, d ∈ s'.delivered r → d ∈ s.delivered r ∨ d.call = k₀)
    (hsentTo : ∀ c k w, k ≠ k₀ → s'.sentTo c k w = s.sentTo c k w)
    (hreceivedFrom : ∀ c k w, k ≠ k₀ → s'.receivedFrom c k w = s.receivedFrom c k w)
    (hown : a.Tallied n s' core)
    (hreturned : ∀ x ∈ s'.returned, x ∈ s.returned ∨ x.call = k₀ ∧ a = .idle ∧ x.ret = s'.number n x) :
    Counted n s' := by
  subst ha
  have hlt : k₀ < s'.calls := by
    rw [hcalls]
    exact hc.fresh hk₀
  refine ⟨fun r m hm => ?_, fun r d hd => ?_, fun c => ?_, fun x hx => ?_⟩
  · rcases hsent r m hm with hm | rfl
    · rw [hcalls]
      exact h.sent r m hm
    · exact hlt
  · rcases hdelivered r d hd with hd | rfl
    · rw [hcalls]
      exact h.delivered r d hd
    · exact hlt
  · rw [hact]
    by_cases hcore : c = core
    · subst hcore
      rw [Function.update_self]
      exact hown
    · rw [Function.update_of_ne hcore]
      -- the other calls have other numbers
      have hother : ∀ k, (s.act c).call = some k → k ≠ k₀ := by
        rintro k hk rfl
        exact hcore (hc.one hk hk₀)
      have hold := h.active c
      generalize s.act c = a' at hold hother
      cases a' with
      | idle => trivial
      | send call msg todo res pc =>
        rw [Act.Tallied, funext fun w => hsentTo c call w (hother call rfl)]
        exact hold
      | recv call arr len todo count res pc =>
        rw [Act.Tallied, funext fun w => hreceivedFrom c call w (hother call rfl)]
        exact hold
  · rcases hreturned x hx with hx | ⟨rfl, rfl, hret⟩
    · obtain ⟨hlt', hno, hret⟩ := h.returned x hx
      have hne : x.call ≠ k₀ := by
        intro heq
        exact hno core (by rw [heq]; exact hk₀)
      refine ⟨by rw [hcalls]; exact hlt', fun c hk => ?_, ?_⟩
      · rw [hact] at hk
        by_cases hcore : c = core
        · subst hcore
          rw [Function.update_self] at hk
          exact hne (hcall _ hk)
        · rw [Function.update_of_ne hcore] at hk
          exact hno c hk
      · rw [hret]
        unfold State.number
        simp only [hsentTo _ _ _ hne, hreceivedFrom _ _ _ hne]
    · refine ⟨hlt, fun c hk => ?_, hret⟩
      rw [hact] at hk
      by_cases hcore : c = core
      · subst hcore
        rw [Function.update_self] at hk
        cases hk
      · rw [Function.update_of_ne hcore] at hk
        exact hcore (hc.one hk hk₀)

/-- A core goes on with its call and neither sends nor receives. -/
theorem Counted.quiet {a₀ : Act} {k₀ : ℕ} (h : Counted n s) (hc : Calls n s) (ha : s.act core = a₀)
    (hk₀ : a₀.call = some k₀) (hk : a.call = some k₀) (hact : s'.act = Function.update s.act core a)
    (hcalls : s'.calls = s.calls) (hsent : s'.sent = s.sent) (hdelivered : s'.delivered = s.delivered)
    (hreturned : s'.returned = s.returned) (hown : a.Tallied n s core) : Counted n s' := by
  refine h.go hc ha hk₀ hact hcalls (fun k hk' => ?_) (fun r m hm => .inl (by rwa [hsent] at hm))
    (fun r d hd => .inl (by rwa [hdelivered] at hd)) (fun c k w _ => ?_) (fun c k w _ => ?_) ?_
    fun x hx => .inl (by rwa [hreturned] at hx)
  · rw [hk, Option.some_inj] at hk'
    exact hk'.symm
  · rw [State.sentTo, hsent]
    rfl
  · rw [State.receivedFrom, hdelivered]
    rfl
  · cases a with
    | idle => trivial
    | send call msg todo res pc =>
      unfold Act.Tallied State.sentTo at hown ⊢
      rwa [hsent]
    | recv call arr len todo count res pc =>
      unfold Act.Tallied State.receivedFrom at hown ⊢
      rwa [hdelivered]

/-- A core ends its call, which returns the number of the workers it has reached. -/
theorem Counted.finish {a₀ : Act} {x : Returned} (h : Counted n s) (hc : Calls n s) (ha : s.act core = a₀)
    (hk : a₀.call = some x.call) (hx : x.ret = s.number n x) :
    Counted n ((s.noteReturned x).setAct core .idle) := by
  refine h.go hc ha hk rfl rfl nofun (fun _ _ => .inl) (fun _ _ => .inl) (fun _ _ _ _ => rfl)
    (fun _ _ _ _ => rfl) trivial fun y hy => (List.mem_append.1 hy).imp_right fun hy => ?_
  rw [List.mem_singleton] at hy
  subst hy
  exact ⟨rfl, rfl, hx⟩

/-- A core starts a call. -/
theorem Counted.start (h : Counted n s)
    (hown : a.Tallied n s core) (hcall : a.call = some s.calls) :
    Counted n ({ s with calls := s.calls + 1 }.setAct core a) := by
  refine ⟨fun r m hm => Nat.lt_succ_of_lt (h.sent r m hm),
    fun r d hd => Nat.lt_succ_of_lt (h.delivered r d hd), fun c => ?_, fun x hx => ?_⟩
  · rw [act_setAct]
    by_cases hcore : c = core
    · subst hcore
      rw [if_pos rfl]
      cases a <;> exact hown
    · rw [if_neg hcore]
      have hold := h.active c
      show Act.Tallied n _ c (s.act c)
      generalize s.act c = a' at hold
      cases a' <;> exact hold
  · obtain ⟨hlt, hno, hret⟩ := h.returned x hx
    refine ⟨Nat.lt_succ_of_lt hlt, fun c hk => ?_, hret⟩
    rw [act_setAct] at hk
    by_cases hcore : c = core
    · rw [if_pos hcore, hcall, Option.some_inj] at hk
      rw [hk] at hlt
      exact Nat.lt_irrefl _ hlt
    · rw [if_neg hcore] at hk
      exact hno c hk

theorem mem_of_noted {β : Type*} {f : Ring → List β} {r₀ : Ring} {y m : β}
    (h : m ∈ Function.update f r₀ (f r₀ ++ [y]) r) : m ∈ f r ∨ m = y := by
  by_cases hr : r = r₀
  · subst hr
    rwa [Function.update_self, List.mem_append, List.mem_singleton] at h
  · rw [Function.update_of_ne hr] at h
    exact .inl h

theorem sentTo_noteSent {m : Sent} (c : Core) (k w : ℕ) :
    (s.noteSent r m).sentTo c k w = (s.sentTo c k w || decide (sendRing c w = r ∧ m.call = k)) := by
  unfold State.sentTo State.noteSent
  by_cases hr : sendRing c w = r
  · simp [hr]
  · simp [hr]

theorem receivedFrom_noteDelivered {d : Delivered} (c : Core) (k w : ℕ) :
    (s.noteDelivered r d).receivedFrom c k w =
      (s.receivedFrom c k w || decide (recvRing c w = r ∧ d.call = k)) := by
  unfold State.receivedFrom State.noteDelivered
  by_cases hr : recvRing c w = r
  · simp [hr]
  · simp [hr]

theorem Counted.step (h : Counted n s) (hc : Calls n s) (hm : Moved n s core s') : Counted n s' := by
  have hown := h.active core
  cases hm with
  | startSend msg hv ha =>
    refine h.start (Tally.start fun w _ => ?_) rfl
    simp only [State.sentTo, List.any_eq_false, decide_eq_true_eq]
    exact fun m hm => Nat.ne_of_lt (h.sent _ m hm)
  | startRecv msg_arr len hv ha =>
    refine h.start (Tally.start fun w _ => ?_) rfl
    simp only [State.receivedFrom, List.any_eq_false, decide_eq_true_eq]
    exact fun d hd => Nat.ne_of_lt (h.delivered _ d hd)
  | endSend ha =>
    rw [ha] at hown
    exact h.finish hc ha rfl hown.finish
  | endRecv ha =>
    rw [ha] at hown
    exact h.finish hc ha rfl hown.finish
  | noBuffer ha =>
    rw [ha] at hown
    exact h.quiet hc ha rfl rfl rfl rfl rfl rfl rfl hown.next
  | getBuffer ha hlen hb =>
    rw [ha] at hown
    exact h.quiet hc ha rfl rfl rfl rfl rfl rfl rfl hown
  | fill ha =>
    rw [ha] at hown
    exact h.quiet hc ha rfl rfl rfl rfl rfl rfl rfl hown
  | @enqueue call msg w rest res b ha =>
    rw [ha] at hown
    refine h.go hc ha rfl rfl rfl (fun _ hk => (Option.some_inj.1 hk).symm)
      (fun r m hm => (mem_of_noted hm).imp_right fun hm => by rw [hm]) (fun _ _ => .inl) (fun c k v hk => ?_)
      (fun _ _ _ _ => rfl) ?_ fun _ => .inl
    · refine (sentTo_noteSent c k v).trans ?_
      rw [decide_eq_false fun hr => hk hr.2.symm, Bool.or_false]
      rfl
    · refine (hown.mark (targets_nodup n core) ?_ fun v hv => ?_).next
      · refine (sentTo_noteSent core call w).trans ?_
        rw [decide_eq_true ⟨rfl, rfl⟩, Bool.or_true]
      · refine (sentTo_noteSent core call v).trans ?_
        rw [decide_eq_false fun hr => hv (congrArg Ring.w hr.1), Bool.or_false]
        rfl
  | full ha =>
    rw [ha] at hown
    exact h.quiet hc ha rfl rfl rfl rfl rfl rfl rfl hown
  | giveBack ha =>
    rw [ha] at hown
    exact h.quiet hc ha rfl rfl rfl rfl rfl rfl rfl hown.next
  | nothing ha htodo =>
    rw [ha] at hown
    refine h.quiet hc ha rfl rfl rfl rfl rfl rfl rfl ?_
    rcases htodo with rfl | rfl
    · exact hown
    · have hnext := hown.next
      simp only [RecvPc.copied, Bool.false_eq_true, if_false, Int.add_zero] at hnext
      exact hnext
  | dequeue ha hq =>
    rw [ha] at hown
    exact h.quiet hc ha rfl rfl rfl rfl rfl rfl rfl hown
  | @take call arr len w rest count res b ha =>
    rw [ha] at hown
    refine h.go hc ha rfl rfl rfl (fun _ hk => (Option.some_inj.1 hk).symm) (fun _ _ => .inl)
      (fun r d hd => (mem_of_noted hd).imp_right fun hd => by rw [hd]) (fun _ _ _ _ => rfl)
      (fun c k v hk => ?_) ?_ fun _ => .inl
    · refine (receivedFrom_noteDelivered c k v).trans ?_
      rw [decide_eq_false fun hr => hk hr.2.symm, Bool.or_false]
    · refine hown.mark (targets_nodup n core) ?_ fun v hv => ?_
      · refine (receivedFrom_noteDelivered core call w).trans ?_
        rw [decide_eq_true ⟨rfl, rfl⟩, Bool.or_true]
      · refine (receivedFrom_noteDelivered core call v).trans ?_
        rw [decide_eq_false fun hr => hv (congrArg Ring.w hr.1), Bool.or_false]
  | release ha =>
    rw [ha] at hown
    exact h.quiet hc ha rfl rfl rfl rfl rfl rfl rfl hown.next

/-! ### Sends that fail -/

/-- What a send has done to the pool and the rings when it is there. -/
def SendPc.accesses : SendPc → List (Access Ring ℕ)
  | .make => []
  | .copy b => [.get b]
  | .enqueue b => [.get b]
  | .free b => [.get b]

/-- In the log the send that is running has taken its buffer at most, and those after it have done
nothing. -/
def Act.Borrowing (log : List ((ℕ × ℕ) × Access Ring ℕ)) : Act → Prop
  | .send call _ (w :: rest) _ pc =>
    Access.taggedWith (call, w) log = pc.accesses ∧ ∀ v ∈ rest, Access.taggedWith (call, v) log = []
  | _ => True

/-- The log leads to the pool and to the rings, by accesses of the calls so far. -/
structure Logged (bufs : List ℕ) (s : State) : Prop where
  pool : Access.replayPool bufs s.log = s.pool
  ring : Access.replayRings s.log = s.ring
  sound : Access.Sound bufs s.log
  tags : ∀ e ∈ s.log, e.1.1 < s.calls

/-- A send that fails has taken a buffer and put it back, or done nothing, and is over. -/
structure Borrowed (s : State) : Prop where
  active : ∀ core, (s.act core).Borrowing s.log
  failed : ∀ t ∈ s.failed, t.1 < s.calls ∧
    (∀ core, (s.act core).call = some t.1 → t.2 ∉ (s.act core).todo) ∧
    (Access.taggedWith t s.log = [] ∨ ∃ b, Access.taggedWith t s.log = [.get b, .put b])

theorem Logged.perform {t : ℕ × ℕ} {x : Access Ring ℕ} (h : Logged bufs s) (ht : t.1 < s.calls)
    (hget : ∀ b, x = .get b → b ∈ s.pool) : Logged bufs (s.perform t x) := by
  refine ⟨?_, ?_, h.sound.concat fun b hb => ?_, fun e he => ?_⟩
  · simp only [State.perform, Access.replayPool_concat, h.pool]
  · simp only [State.perform, Access.replayRings_concat, h.ring]
  · rw [h.pool]
    exact hget b hb
  · rcases List.mem_append.1 he with he | he
    · exact h.tags e he
    · rw [List.mem_singleton] at he
      rw [he]
      exact ht

theorem Logged.congr (h : Logged bufs s) (hpool : s'.pool = s.pool) (hring : s'.ring = s.ring)
    (hlog : s'.log = s.log) (hcalls : s.calls ≤ s'.calls) : Logged bufs s' := by
  refine ⟨by rw [hlog, hpool, h.pool], by rw [hlog, hring, h.ring], by rw [hlog]; exact h.sound,
    fun e he => ?_⟩
  rw [hlog] at he
  exact Nat.lt_of_lt_of_le (h.tags e he) hcalls

theorem Logged.step (h : Logged bufs s) (hc : Calls n s) (hm : Moved n s core s') : Logged bufs s' := by
  have hfresh : ∀ {k}, (s.act core).call = some k → k < s.calls := hc.fresh
  cases hm with
  | startSend msg hv ha => exact h.congr rfl rfl rfl (Nat.le_succ _)
  | startRecv msg_arr len hv ha => exact h.congr rfl rfl rfl (Nat.le_succ _)
  | endSend ha => exact h.congr rfl rfl rfl le_rfl
  | endRecv ha => exact h.congr rfl rfl rfl le_rfl
  | noBuffer ha => exact h.congr rfl rfl rfl le_rfl
  | @getBuffer call msg w rest res b ha hlen hb =>
    refine (h.perform (t := (call, w)) (hfresh (by rw [ha]; rfl)) ?_).congr rfl rfl rfl le_rfl
    rintro b' hb'
    cases hb'
    exact hb
  | fill ha => exact h.congr rfl rfl rfl le_rfl
  | @enqueue call msg w rest res b ha =>
    exact (h.perform (t := (call, w)) (x := .enqueue (sendRing core w) b) (hfresh (by rw [ha]; rfl))
      nofun).congr rfl rfl rfl le_rfl
  | full ha => exact h.congr rfl rfl rfl le_rfl
  | @giveBack call msg w rest res b ha =>
    exact (h.perform (t := (call, w)) (x := .put b) (hfresh (by rw [ha]; rfl)) nofun).congr
      rfl rfl rfl le_rfl
  | nothing ha htodo => exact h.congr rfl rfl rfl le_rfl
  | @dequeue call arr len w rest count res b q ha hq =>
    exact (h.perform (t := (call, w)) (x := .dequeue (recvRing core w)) (hfresh (by rw [ha]; rfl))
      nofun).congr rfl rfl rfl le_rfl
  | take ha => exact h.congr rfl rfl rfl le_rfl
  | @release call arr len w rest count res b arr' count' ha =>
    exact (h.perform (t := (call, w)) (x := .put b) (hfresh (by rw [ha]; rfl)) nofun).congr
      rfl rfl rfl le_rfl

theorem todo_nodup (hc : Calls n s) (core : Core) : (s.act core).todo.Nodup :=
  (targets_nodup n core).sublist (hc.todo core).sublist

/-- A core goes on with its call, or ends it: its accesses are for a worker that is left, and a send
that fails is over. -/
theorem Borrowed.go {a₀ : Act} (h : Borrowed s) (hc : Calls n s) (ha : s.act core = a₀)
    (hact : s'.act = Function.update s.act core a) (hcalls : s'.calls = s.calls)
    (hcall : ∀ k, a.call = some k → a₀.call = some k) (htodo : a.todo ⊆ a₀.todo)
    (hlog : ∀ t, Access.taggedWith t s'.log = Access.taggedWith t s.log ∨
      a₀.call = some t.1 ∧ t.2 ∈ a₀.todo)
    (hown : a.Borrowing s'.log)
    (hfailed : ∀ t ∈ s'.failed, t ∈ s.failed ∨ a₀.call = some t.1 ∧ t.2 ∉ a.todo ∧
      (Access.taggedWith t s'.log = [] ∨ ∃ b, Access.taggedWith t s'.log = [.get b, .put b])) :
    Borrowed s' := by
  subst ha
  refine ⟨fun c => ?_, fun t ht => ?_⟩
  · rw [hact]
    by_cases hcore : c = core
    · subst hcore
      rw [Function.update_self]
      exact hown
    · rw [Function.update_of_ne hcore]
      have hother : ∀ k v, (s.act c).call = some k →
          Access.taggedWith (k, v) s'.log = Access.taggedWith (k, v) s.log := by
        intro k v hk
        rcases hlog (k, v) with heq | ⟨hk', -⟩
        · exact heq
        · exact absurd (hc.one hk hk') hcore
      have hold := h.active c
      generalize s.act c = a' at hold hother
      unfold Act.Borrowing at hold ⊢
      split
      · next call _ w rest _ pc =>
        rw [hother call w rfl]
        refine ⟨hold.1, fun v hv => ?_⟩
        rw [hother call v rfl]
        exact hold.2 v hv
      · trivial
  · rcases hfailed t ht with ht | ⟨hk, hover, hacc⟩
    · obtain ⟨hlt, hover, hacc⟩ := h.failed t ht
      refine ⟨by rw [hcalls]; exact hlt, fun c hk => ?_, ?_⟩
      · rw [hact] at hk ⊢
        by_cases hcore : c = core
        · subst hcore
          rw [Function.update_self] at hk ⊢
          exact fun hmem => hover c (hcall _ hk) (htodo hmem)
        · rw [Function.update_of_ne hcore] at hk ⊢
          exact hover c hk
      · rcases hlog t with heq | ⟨hk, hmem⟩
        · rwa [heq]
        · exact absurd hmem (hover core hk)
    · refine ⟨by rw [hcalls]; exact hc.fresh hk, fun c hk' => ?_, hacc⟩
      rw [hact] at hk' ⊢
      by_cases hcore : c = core
      · subst hcore
        rw [Function.update_self]
        exact hover
      · rw [Function.update_of_ne hcore] at hk'
        exact absurd (hc.one hk' hk) hcore

/-- A core starts a call. -/
theorem Borrowed.start (h : Borrowed s) (hcall : a.call = some s.calls) (hown : a.Borrowing s.log) :
    Borrowed ({ s with calls := s.calls + 1 }.setAct core a) := by
  refine ⟨fun c => ?_, fun t ht => ?_⟩
  · rw [act_setAct]
    by_cases hcore : c = core
    · rw [if_pos hcore]
      exact hown
    · rw [if_neg hcore]
      exact h.active c
  · obtain ⟨hlt, hover, hacc⟩ := h.failed t ht
    refine ⟨Nat.lt_succ_of_lt hlt, fun c hk => ?_, hacc⟩
    rw [act_setAct] at hk ⊢
    by_cases hcore : c = core
    · rw [if_pos hcore, hcall, Option.some_inj] at hk
      rw [hk] at hlt
      exact absurd hlt (Nat.lt_irrefl _)
    · rw [if_neg hcore] at hk ⊢
      exact hover c hk

section
variable {call w : ℕ} {msg : List UInt8} {rest : List ℕ} {res res' : ℤ} {pc pc' : SendPc}
  {log log' : List ((ℕ × ℕ) × Access Ring ℕ)}

/-- A send goes on with the next worker. -/
theorem borrowing_next (h : (Act.send call msg (w :: rest) res pc).Borrowing log) (hnd : (w :: rest).Nodup)
    (hlog : ∀ t, Access.taggedWith t log' = Access.taggedWith t log ∨ t = (call, w)) :
    (Act.send call msg rest res' .make).Borrowing log' := by
  have hother : ∀ v ∈ rest, Access.taggedWith (call, v) log' = [] := by
    intro v hv
    rcases hlog (call, v) with heq | heq
    · rw [heq]
      exact h.2 v hv
    · rw [Prod.mk.injEq] at heq
      rw [heq.2] at hv
      exact absurd hv (List.nodup_cons.1 hnd).1
  cases rest with
  | nil => trivial
  | cons v rest => exact ⟨hother v List.mem_cons_self, fun v' hv' => hother v' (List.mem_cons_of_mem _ hv')⟩

/-- A send goes on with the same worker. -/
theorem borrowing_head (h : (Act.send call msg (w :: rest) res pc).Borrowing log) (hnd : (w :: rest).Nodup)
    (hlog : ∀ t, Access.taggedWith t log' = Access.taggedWith t log ∨ t = (call, w))
    (hw : Access.taggedWith (call, w) log' = pc'.accesses) :
    (Act.send call msg (w :: rest) res' pc').Borrowing log' := by
  refine ⟨hw, fun v hv => ?_⟩
  rcases hlog (call, v) with heq | heq
  · rw [heq]
    exact h.2 v hv
  · rw [Prod.mk.injEq] at heq
    rw [heq.2] at hv
    exact absurd hv (List.nodup_cons.1 hnd).1

end

/-- The accesses of the others are not of this tag. -/
theorem tagged_perform {t₀ t : ℕ × ℕ} {x : Access Ring ℕ} {log : List ((ℕ × ℕ) × Access Ring ℕ)} :
    Access.taggedWith t (log ++ [(t₀, x)]) = Access.taggedWith t log ∨ t = t₀ := by
  rw [Access.taggedWith_concat]
  by_cases ht : t₀ = t
  · exact .inr ht.symm
  · rw [if_neg ht]
    exact .inl rfl

theorem tagged_self {t : ℕ × ℕ} {x : Access Ring ℕ} {log : List ((ℕ × ℕ) × Access Ring ℕ)} :
    Access.taggedWith t (log ++ [(t, x)]) = Access.taggedWith t log ++ [x] := by
  rw [Access.taggedWith_concat, if_pos rfl]

theorem Borrowed.step (h : Borrowed s) (hl : Logged bufs s) (hc : Calls n s) (hm : Moved n s core s') :
    Borrowed s' := by
  have hown := h.active core
  have hnd := todo_nodup hc core
  cases hm with
  | startSend msg hv ha =>
    refine h.start rfl ?_
    have hnil : ∀ v, Access.taggedWith (s.calls, v) s.log = [] := fun v =>
      Access.taggedWith_eq_nil fun e he heq => Nat.ne_of_lt (hl.tags e he) (congrArg Prod.fst heq)
    cases targets n core with
    | nil => trivial
    | cons w rest => exact ⟨hnil w, fun v _ => hnil v⟩
  | startRecv msg_arr len hv ha => exact h.start rfl trivial
  | endSend ha =>
    exact h.go hc ha rfl rfl nofun (List.nil_subset _) (fun _ => .inl rfl) trivial fun _ => .inl
  | endRecv ha =>
    exact h.go hc ha rfl rfl nofun (List.nil_subset _) (fun _ => .inl rfl) trivial fun _ => .inl
  | @noBuffer call msg w rest res ha =>
    rw [ha] at hown hnd
    refine h.go hc ha rfl rfl (fun _ => id) (List.subset_cons_self _ _) (fun _ => .inl rfl)
      (borrowing_next hown hnd fun _ => .inl rfl) fun t ht => (List.mem_append.1 ht).imp_right fun ht => ?_
    rw [List.mem_singleton] at ht
    subst ht
    exact ⟨rfl, (List.nodup_cons.1 hnd).1, .inl hown.1⟩
  | getBuffer ha hlen hb =>
    rw [ha] at hown hnd
    refine h.go hc ha rfl rfl (fun _ => id) (List.Subset.refl _)
      (fun t => tagged_perform.imp_right fun ht => by rw [ht]; exact ⟨rfl, List.mem_cons_self⟩)
      (borrowing_head hown hnd (fun _ => tagged_perform) ?_) fun _ => .inl
    rw [State.perform, State.setAct, tagged_self, hown.1]
    rfl
  | fill ha =>
    rw [ha] at hown
    exact h.go hc ha rfl rfl (fun _ => id) (List.Subset.refl _) (fun _ => .inl rfl) hown fun _ => .inl
  | enqueue ha =>
    rw [ha] at hown hnd
    exact h.go hc ha rfl rfl (fun _ => id) (List.subset_cons_self _ _)
      (fun t => tagged_perform.imp_right fun ht => by rw [ht]; exact ⟨rfl, List.mem_cons_self⟩)
      (borrowing_next hown hnd fun _ => tagged_perform) fun _ => .inl
  | full ha =>
    rw [ha] at hown
    exact h.go hc ha rfl rfl (fun _ => id) (List.Subset.refl _) (fun _ => .inl rfl) hown fun _ => .inl
  | @giveBack call msg w rest res b ha =>
    rw [ha] at hown hnd
    refine h.go hc ha rfl rfl (fun _ => id) (List.subset_cons_self _ _)
      (fun t => tagged_perform.imp_right fun ht => by rw [ht]; exact ⟨rfl, List.mem_cons_self⟩)
      (borrowing_next hown hnd fun _ => tagged_perform) fun t ht =>
        (List.mem_append.1 ht).imp_right fun ht => ?_
    rw [List.mem_singleton] at ht
    subst ht
    refine ⟨rfl, (List.nodup_cons.1 hnd).1, .inr ⟨b, ?_⟩⟩
    refine tagged_self.trans ?_
    rw [hown.1]
    rfl
  | nothing ha htodo =>
    refine h.go hc ha rfl rfl (fun _ => id) ?_ (fun _ => .inl rfl) trivial fun _ => .inl
    rcases htodo with rfl | rfl
    · exact List.Subset.refl _
    · exact List.subset_cons_self _ _
  | dequeue ha hq =>
    exact h.go hc ha rfl rfl (fun _ => id) (List.Subset.refl _)
      (fun t => tagged_perform.imp_right fun ht => by rw [ht]; exact ⟨rfl, List.mem_cons_self⟩) trivial
      fun _ => .inl
  | take ha =>
    exact h.go hc ha rfl rfl (fun _ => id) (List.Subset.refl _) (fun _ => .inl rfl) trivial fun _ => .inl
  | release ha =>
    exact h.go hc ha rfl rfl (fun _ => id) (List.subset_cons_self _ _)
      (fun t => tagged_perform.imp_right fun ht => by rw [ht]; exact ⟨rfl, List.mem_cons_self⟩) trivial
      fun _ => .inl

/-! ### Every run -/

/-- The invariant of the transport. -/
structure TransportInv (n : ℕ) (bufs : List ℕ) (s : State) : Prop where
  places : ∃ loc, Places bufs s loc
  calls : Calls n s
  filled : ∀ core, (s.act core).Filled s.mem
  inOrder : ∀ r, InOrder s r
  counted : Counted n s
  logged : Logged bufs s
  borrowed : Borrowed s

theorem TransportInv.step {e : Event} (h : TransportInv n bufs s) (hs : step n s e = some s') :
    TransportInv n bufs s' := by
  have hm := step_moved hs
  obtain ⟨loc, hp⟩ := h.places
  exact ⟨hp.step h.calls hm, h.calls.step hm, filled_step hp h.filled hm,
    InOrder.step hp h.calls h.filled h.inOrder hm, h.counted.step h.calls hm, h.logged.step h.calls hm,
    h.borrowed.step h.logged h.calls hm⟩

/-- The state after `flowQoS_message_init`, with all the buffers in the pool. -/
def init (bufs : List ℕ) (mem : ℕ → List UInt8) : State := { pool := bufs, mem := mem }

end FlowQoS.Message.Transport
