import FlowQoS.Lib.Buffers
import FlowQoS.Message.Defs

/-!
# Buffers, rings and calls (`flowQoS_message.c`)

The transport below the tasks, access by access: `flowQoS_message_multicast_send` and
`flowQoS_message_multicast_recv` of the master and of the workers, each call a sequence of single
sends or receives, and each of those a sequence of accesses to the pool, to a ring or to the memory of
a buffer. Between two accesses of a core any other core can make its own.

Whether `rte_mempool_get` gives a buffer, and which, is part of the step. A call is given the number of
calls before it, and beside the code's state there are the messages that went into each ring and those
that came out of it, the sends that failed, what the calls returned, and the log of the accesses.
-/

namespace FlowQoS.Message.Transport

open Lib

def messageMaxSize : ℕ := 1024

inductive Core where
  | master
  | worker (w : ℕ)
  deriving DecidableEq

/-- A ring of a worker: `master_to_slave_ring` for requests, `slave_to_master_ring` for the others. -/
structure Ring where
  w : ℕ
  is_request : Bool
  deriving DecidableEq

/-- Where a core is in `flowQoS_send_msg`. -/
inductive SendPc where
  | make
  | copy (b : ℕ)
  | enqueue (b : ℕ)
  | free (b : ℕ)
  deriving DecidableEq

/-- Where a core is in `flowQoS_recv_msg`. -/
inductive RecvPc where
  | dequeue
  | copy (b : ℕ)
  | free (b : ℕ)
  deriving DecidableEq

/-- The call a core is in: its number, its arguments, the workers that are left, the polls of the ring
of the next one, and `res` so far. -/
inductive Act where
  | idle
  | send (call : ℕ) (msg : List UInt8) (todo : List ℕ) (res : ℤ) (pc : SendPc)
  | recv (call msg_arr len : ℕ) (todo : List ℕ) (count : ℕ) (res : ℤ) (pc : RecvPc)
  deriving DecidableEq

/-- A message that has gone into a ring. -/
structure Sent where
  call : ℕ
  msg : List UInt8
  deriving DecidableEq

/-- A message that has come out of a ring: who received it, in which call, and what was copied to the
address for the length asked for. -/
structure Delivered where
  core : Core
  call : ℕ
  len : ℕ
  msg_buf : ℕ
  bytes : List UInt8
  deriving DecidableEq

structure Returned where
  core : Core
  send : Bool
  call : ℕ
  ret : ℤ
  deriving DecidableEq

/-- The tag of an access is the call and the worker it is for. -/
structure State where
  pool : List ℕ
  mem : ℕ → List UInt8
  ring : Ring → List ℕ := fun _ => []
  act : Core → Act := fun _ => .idle
  calls : ℕ := 0
  sent : Ring → List Sent := fun _ => []
  delivered : Ring → List Delivered := fun _ => []
  failed : List (ℕ × ℕ) := []
  returned : List Returned := []
  log : List ((ℕ × ℕ) × Access Ring ℕ) := []

def State.setAct (s : State) (core : Core) (a : Act) : State :=
  { s with act := Function.update s.act core a }

/-- An access to the pool or to a ring. -/
def State.perform (s : State) (tag : ℕ × ℕ) (a : Access Ring ℕ) : State :=
  { s with pool := a.onPool s.pool, ring := a.onRings s.ring, log := s.log ++ [(tag, a)] }

def State.noteSent (s : State) (ring : Ring) (m : Sent) : State :=
  { s with sent := Function.update s.sent ring (s.sent ring ++ [m]) }

def State.noteDelivered (s : State) (ring : Ring) (d : Delivered) : State :=
  { s with delivered := Function.update s.delivered ring (s.delivered ring ++ [d]) }

def State.noteFailed (s : State) (tag : ℕ × ℕ) : State := { s with failed := s.failed ++ [tag] }

def State.noteReturned (s : State) (r : Returned) : State := { s with returned := s.returned ++ [r] }

/-! ### One message -/

/-- `flowQoS_make_msg` up to the copy; `pick` is the buffer that `rte_mempool_get` gives, if any. -/
def makeMsg (pick : Option ℕ) (tag : ℕ × ℕ) (msg : List UInt8) (s : State) : Option (ℕ × State) :=
  if msg.length > messageMaxSize then none
  else
    match pick with
    | none => none
    | some b => if b ∈ s.pool then some (b, s.perform tag (.get b)) else none

/-- The copy of `flowQoS_make_msg`. -/
def copyMsg (b : ℕ) (msg : List UInt8) (s : State) : State :=
  { s with mem := Function.update s.mem b (msg ++ (s.mem b).drop msg.length) }

/-- `flowQoS_free_msg`. -/
def freeMsg (tag : ℕ × ℕ) (b : ℕ) (s : State) : State := s.perform tag (.put b)

/-- The next access of `flowQoS_send_msg`: where it is then, or what it returns. -/
def sendMsg (pick : Option ℕ) (tag : ℕ × ℕ) (ring : Ring) (msg : List UInt8) (s : State) :
    SendPc → State × (SendPc ⊕ ℤ)
  | .make =>
    match makeMsg pick tag msg s with
    | none => (s.noteFailed tag, .inr 0)
    | some (b, s) => (s, .inl (.copy b))
  | .copy b => (copyMsg b msg s, .inl (.enqueue b))
  | .enqueue b =>
    if (s.ring ring).length < maxRingCount - 1 then
      ((s.perform tag (.enqueue ring b)).noteSent ring ⟨tag.1, msg⟩, .inr 1)
    else (s, .inl (.free b))
  | .free b => ((freeMsg tag b s).noteFailed tag, .inr 0)

/-- The next access of `flowQoS_recv_msg`. -/
def recvMsg (tag : ℕ × ℕ) (core : Core) (ring : Ring) (msg_buf len : ℕ) (s : State) :
    RecvPc → State × (RecvPc ⊕ ℤ)
  | .dequeue =>
    if msg_buf = 0 then (s, .inr 0)
    else
      match s.ring ring with
      | [] => (s, .inr 0)
      | b :: _ => (s.perform tag (.dequeue ring), .inl (.copy b))
  | .copy b =>
    let bytes := (s.mem b).take (if len > messageMaxSize then messageMaxSize else len)
    (s.noteDelivered ring ⟨core, tag.1, len, msg_buf, bytes⟩, .inl (.free b))
  | .free b => (freeMsg tag b s, .inr 1)

/-! ### A call -/

/-- The workers a core exchanges messages for: the master all, a worker itself. -/
def targets (n : ℕ) : Core → List ℕ
  | .master => List.range n
  | .worker w => [w]

/-- The ring a core sends into. -/
def sendRing (core : Core) (w : ℕ) : Ring := ⟨w, core = .master⟩

/-- The ring a core receives from. -/
def recvRing (core : Core) (w : ℕ) : Ring := ⟨w, core ≠ .master⟩

/-- The next access of `flowQoS_message_multicast_send`, or its return. -/
def multicastSend (pick : Option ℕ) (core : Core) (call : ℕ) (msg : List UInt8) (todo : List ℕ) (res : ℤ)
    (pc : SendPc) (s : State) : State :=
  match todo with
  | [] => (s.noteReturned ⟨core, true, call, res⟩).setAct core .idle
  | w :: rest =>
    match sendMsg pick (call, w) (sendRing core w) msg s pc with
    | (s, .inl pc) => s.setAct core (.send call msg todo res pc)
    | (s, .inr ret) => s.setAct core (.send call msg rest (res + ret) .make)

/-- The next access of `flowQoS_message_multicast_recv`, or its return. The master polls the ring of a
worker until it gets a message or has come 300 times, a worker once. -/
def multicastRecv (core : Core) (call msg_arr len : ℕ) (todo : List ℕ) (count : ℕ) (res : ℤ) (pc : RecvPc)
    (s : State) : State :=
  match todo with
  | [] => (s.noteReturned ⟨core, false, call, res⟩).setAct core .idle
  | w :: rest =>
    match recvMsg (call, w) core (recvRing core w) msg_arr len s pc with
    | (s, .inl pc) => s.setAct core (.recv call msg_arr len todo count res pc)
    | (s, .inr ret) =>
      match core with
      | .worker _ => s.setAct core (.recv call msg_arr len rest count (res + ret) .dequeue)
      | .master =>
        if ret = 0 then
          if count + 1 = maxPolls then
            -- `res--` and out of the loop, where `res++` follows
            s.setAct core (.recv call (msg_arr + len) len rest 0 (res - 1 + 1) .dequeue)
          else s.setAct core (.recv call msg_arr len todo (count + 1) res .dequeue)
        else s.setAct core (.recv call (msg_arr + len) len rest 0 (res + 1) .dequeue)

inductive Event where
  | send (core : Core) (msg : List UInt8)
  | recv (core : Core) (msg_arr len : ℕ)
  | access (core : Core) (pick : Option ℕ)

/-- The core is the master or one of `n` workers. -/
def Core.Valid (n : ℕ) : Core → Prop
  | .master => True
  | .worker w => w < n

instance (n : ℕ) : (core : Core) → Decidable (core.Valid n)
  | .master => inferInstanceAs (Decidable True)
  | .worker w => inferInstanceAs (Decidable (w < n))

/-- A step of a core: it calls when its last call has returned, and goes on with the call it is in. -/
def step (n : ℕ) (s : State) : Event → Option State
  | .send core msg =>
    if core.Valid n ∧ s.act core = .idle then
      some ({ s with calls := s.calls + 1 }.setAct core (.send s.calls msg (targets n core) 0 .make))
    else none
  | .recv core msg_arr len =>
    if core.Valid n ∧ s.act core = .idle then
      some ({ s with calls := s.calls + 1 }.setAct core
        (.recv s.calls msg_arr len (targets n core) 0 0 .dequeue))
    else none
  | .access core pick =>
    match s.act core with
    | .idle => none
    | .send call msg todo res pc => some (multicastSend pick core call msg todo res pc s)
    | .recv call msg_arr len todo count res pc =>
      some (multicastRecv core call msg_arr len todo count res pc s)

end FlowQoS.Message.Transport
