import Mathlib.Data.Int.Notation
import Mathlib.Data.Nat.Notation
import Mathlib.Logic.Function.Basic

/-!
# Tasks for the worker cores (`flowQoS_message.c`)

The master core puts a task into the ring of every worker and then waits for a reply from each of
them, one after the other; it gives up on a worker after 300 polls of its ring. A worker takes tasks
out of its ring when it comes round, executes them and replies. Replies do not say which call they
belong to.

The cores interleave at their accesses to the rings. A message is a copy in a block of a pool whose
free blocks may lie in the caches of other cores: whether a sender gets a block is part of the event.
The numbers of the calls and the log of what was executed and returned are beside the code's state.
-/

namespace FlowQoS.Message

/-- The size of a ring; one entry fewer can be used. -/
def maxRingCount : ℕ := 8
def maxPolls : ℕ := 300

/-- `FlowQoS_syn_task`, and the number of the call it belongs to. -/
structure SynTask where
  cb : ℕ
  args : ℕ
  call : ℕ
  deriving DecidableEq

/-- `flowQoS_send_msg` on a ring: 1 if the message went in. -/
def sendMsg {α : Type} (pool : Bool) (msg : α) (ring : List α) : ℕ × List α :=
  if pool then
    if ring.length < maxRingCount - 1 then (1, ring ++ [msg]) else (0, ring)
  else (0, ring)

/-- `flowQoS_recv_msg` on a ring. -/
def recvMsg {α : Type} : List α → Option (α × List α)
  | [] => none
  | msg :: ring => some (msg, ring)

/-- Where the master is in `flowQoS_message_multiThread_do`: at the worker it sends to next, or at the
worker it waits for, with the polls of its ring so far and the replies counted. -/
inductive Master where
  | idle
  | sending (task : SynTask) (w : ℕ)
  | receiving (task : SynTask) (w count : ℕ) (res : ℤ)
  deriving DecidableEq

/-- Where a worker is in `flowQoS_message_multiThread_do_slave`. -/
inductive Slave where
  | idle
  | running (task : SynTask)
  | replying (task : SynTask)
  deriving DecidableEq

/-- A worker has executed a task; a call has returned. -/
inductive Entry where
  | executed (w : ℕ) (task : SynTask)
  | returned (call : ℕ) (ret : ℤ)
  deriving DecidableEq

structure State where
  master : Master := .idle
  slave : ℕ → Slave := fun _ => .idle
  master_to_slave_ring : ℕ → List SynTask := fun _ => []
  slave_to_master_ring : ℕ → List ℤ := fun _ => []
  calls : ℕ := 0
  log : List Entry := []

/-- The next access of the master to a ring, and at the end of the call its return. -/
def masterStep (n : ℕ) (pool : Bool) (s : State) : State :=
  match s.master with
  | .idle => s
  | .sending task w =>
    if w < n then
      { s with
        master_to_slave_ring := Function.update s.master_to_slave_ring w
          (sendMsg pool task (s.master_to_slave_ring w)).2
        master := .sending task (w + 1) }
    else { s with master := .receiving task 0 0 0 }
  | .receiving task w count res =>
    if w < n then
      match recvMsg (s.slave_to_master_ring w) with
      | some (_, ring) =>
        { s with
          slave_to_master_ring := Function.update s.slave_to_master_ring w ring
          master := .receiving task (w + 1) 0 (res + 1) }
      | none =>
        if count + 1 = maxPolls then
          -- `res--` and out of the loop, where `res++` follows
          { s with master := .receiving task (w + 1) 0 (res - 1 + 1) }
        else { s with master := .receiving task w (count + 1) res }
    else
      { s with
        master := .idle
        log := s.log ++ [.returned task.call (if res = n then 1 else 0)] }

/-- The next step of a worker: the poll of its ring, the execution of the task, the reply. -/
def slaveStep (w : ℕ) (pool : Bool) (s : State) : State :=
  match s.slave w with
  | .idle =>
    match recvMsg (s.master_to_slave_ring w) with
    | some (task, ring) =>
      { s with
        master_to_slave_ring := Function.update s.master_to_slave_ring w ring
        slave := Function.update s.slave w (.running task) }
    | none => s
  | .running task =>
    { s with
      slave := Function.update s.slave w (.replying task)
      log := s.log ++ [.executed w task] }
  | .replying _ =>
    { s with
      slave_to_master_ring := Function.update s.slave_to_master_ring w
        (sendMsg pool 1 (s.slave_to_master_ring w)).2
      slave := Function.update s.slave w .idle }

inductive Event where
  | call (cb args : ℕ)
  | master (pool : Bool)
  | slave (w : ℕ) (pool : Bool)
  deriving DecidableEq

/-- A step of the cores: `n` workers. The master calls when its last call has returned. -/
def step (n : ℕ) (s : State) : Event → Option State
  | .call cb args =>
    if s.master = .idle then
      some { s with master := .sending ⟨cb, args, s.calls⟩ 0, calls := s.calls + 1 }
    else none
  | .master pool => if s.master = .idle then none else some (masterStep n pool s)
  | .slave w pool => if w < n then some (slaveStep w pool s) else none

end FlowQoS.Message
