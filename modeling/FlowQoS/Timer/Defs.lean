import FlowQoS.Fault
import FlowQoS.Lib.Links
import Mathlib.Algebra.Group.Nat.Defs
import Mathlib.Data.Int.Notation
import Mathlib.Data.Nat.Notation

/-!
# The timing wheel (`flowQoS_timer.c`)

A manager with a clock (`timeout`, in ticks) and two wheels of `2 ^ 18` buckets, each bucket the
sentinel of a circular list of timers. A timer is started in the bucket that lies its *relative*
timeout ahead of the current index of the wheel it fits on; when the low index comes round to 0, the
current bucket of the upper wheel is cascaded, each of its timers started again with the time it
has left.

Links and timer fields are kept as the code keeps them, null links included: an operation that
would follow a null link, fail an assertion or never leave its loop ends in a `Fault`.
-/

namespace FlowQoS.Timer

open Lib

def timerFrequency : ℕ := 1000
def timerWheelCount : ℕ := 2
def timerWheelBits : ℕ := 18
def timerBucketCount : ℕ := 1 <<< timerWheelBits
def timerMaxTimeout : ℕ := (1 <<< (timerWheelCount * timerWheelBits)) - 1

/-- `TIMER_WHEEL_CUR_INDEX(n)` at the given clock. -/
def timerWheelCurIndex (clock n : ℕ) : ℕ := (clock >>> (timerWheelBits * n)) % timerBucketCount

/-- The fields of a timer but for its links; `κ` are the callbacks, `α` their arguments. -/
structure FlowQoSTimer (κ α : Type*) where
  cb : Option κ := none
  cb_args : Option α := none
  timeout : ℕ := 0
  repeatTime : ℕ := 0

/-- The manager of a core together with the memory of the timers it links; bucket `i` of wheel `w`
is the sentinel `(w, i)`. -/
structure FlowQoSTimerMgr (τ κ α : Type*) where
  startStmp : ℕ
  timeout : ℕ
  links : Links (ℕ × ℕ) τ
  timers : τ → FlowQoSTimer κ α

variable {τ κ α ω : Type*} [DecidableEq τ]

/-- `flowQoS_timer_mgr_init`: every bucket points at itself, no timer is linked. -/
def flowQoSTimerMgrInit (rdtsc : ℕ) : FlowQoSTimerMgr τ κ α where
  startStmp := rdtsc
  timeout := 0
  links := Links.empty
  timers _ := {}

/-- The loop of `timer_start` that finds the wheel: the wheel, its current index and the offset from
it. -/
def wheelSlot (clock : ℕ) : ℕ → ℕ → ℕ → ℕ × ℕ × ℕ
  | 0, widx, timeout => (widx, timerWheelCurIndex clock widx, timeout % timerBucketCount)
  | fuel + 1, widx, timeout =>
    if timerBucketCount ≤ timeout then wheelSlot clock fuel (widx + 1) (timeout >>> timerWheelBits)
    else (widx, timerWheelCurIndex clock widx, timeout % timerBucketCount)

/-- `timer_start`. Four turns of the loop bring every 64-bit timeout below the bucket count. -/
def timerStart (mgr : FlowQoSTimerMgr τ κ α) (timer : τ) (cb : Option κ) (args : Option α)
    (timeout repeatTime : ℕ) : Except Fault (ℤ × FlowQoSTimerMgr τ κ α) :=
  if cb.isNone ∨ timerMaxTimeout < timeout then .ok (-1, mgr)
  else
    let sum := (mgr.timeout + timeout) % 2 ^ 64
    let clampedTimeout := if sum < timeout then 2 ^ 64 - 1 else sum
    let fields : FlowQoSTimer κ α :=
      { cb := cb, cb_args := args, timeout := clampedTimeout, repeatTime := repeatTime }
    let mgr := { mgr with timers := Function.update mgr.timers timer fields }
    let (widx, cur, bidx) := wheelSlot mgr.timeout 4 0 timeout
    if timerWheelCount ≤ widx then .ok (-2, mgr)
    else
      match mgr.links.append (widx, (cur + bidx) % timerBucketCount) timer with
      | none => .error .nullPointer
      | some links => .ok (0, { mgr with links := links })

/-- `timer_stop`. -/
def timerStop (mgr : FlowQoSTimerMgr τ κ α) (timer : τ) : FlowQoSTimerMgr τ κ α :=
  { mgr with links := mgr.links.unlink timer }

/-- `timer_again`. -/
def timerAgain (mgr : FlowQoSTimerMgr τ κ α) (timer : τ) :
    Except Fault (ℤ × FlowQoSTimerMgr τ κ α) :=
  let fields := mgr.timers timer
  if fields.cb.isNone then .ok (-1, mgr)
  else if fields.repeatTime ≠ 0 then
    (timerStart (timerStop mgr timer) timer fields.cb fields.cb_args fields.repeatTime
      fields.repeatTime).map fun r => (0, r.2)
  else .ok (0, mgr)

/-- `timer_reset`: the return value of `timer_start` is not looked at. -/
def timerReset (mgr : FlowQoSTimerMgr τ κ α) (timer : τ) (timeout : ℕ) :
    Except Fault (ℤ × FlowQoSTimerMgr τ κ α) :=
  let fields := mgr.timers timer
  if fields.cb.isNone then .ok (-1, mgr)
  else
    (timerStart (timerStop mgr timer) timer fields.cb fields.cb_args timeout 0).map fun r => (0, r.2)

/-- The loop of `timer_cascade`, with the timer it has come to. -/
def cascadeLoop (bucket : ℕ × ℕ) :
    ℕ → Option (Node (ℕ × ℕ) τ) → FlowQoSTimerMgr τ κ α → Except Fault (FlowQoSTimerMgr τ κ α)
  | 0, _, _ => .error .outOfFuel
  | fuel + 1, timer, mgr =>
    if timer = some (.head bucket) then .ok mgr
    else
      match timer with
      | none => .error .nullPointer
      | some (.head _) => .error .notATimer
      | some (.elem t) =>
        let next := mgr.links.next (.elem t)
        let fields := mgr.timers t
        if fields.timeout < mgr.timeout then .error .assertFailed
        else
          match timerStart (timerStop mgr t) t fields.cb fields.cb_args
              (fields.timeout - mgr.timeout) fields.repeatTime with
          | .error e => .error e
          | .ok (_, mgr) => cascadeLoop bucket fuel next mgr

/-- `timer_cascade`. -/
def timerCascade (fuel : ℕ) (mgr : FlowQoSTimerMgr τ κ α) (widx bidx : ℕ) :
    Except Fault (ℕ × FlowQoSTimerMgr τ κ α) :=
  (cascadeLoop (widx, bidx) fuel (mgr.links.next (.head (widx, bidx))) mgr).map fun m => (bidx, m)

/-- The loop over the upper wheels in `timer_tick`; the first argument counts the wheels left. -/
def cascadeWheels (fuel : ℕ) :
    ℕ → ℕ → FlowQoSTimerMgr τ κ α → Except Fault (FlowQoSTimerMgr τ κ α)
  | 0, _, mgr => .ok mgr
  | k + 1, widx, mgr =>
    match timerCascade fuel mgr widx (timerWheelCurIndex mgr.timeout widx) with
    | .error e => .error e
    | .ok (bidx, mgr) => if bidx = 0 then cascadeWheels fuel k (widx + 1) mgr else .ok mgr

/-- What a callback does: it gets the timer and may change the manager and the rest of the state. -/
abbrev Callback (τ κ α ω : Type*) :=
  κ → τ → FlowQoSTimerMgr τ κ α × ω → Except Fault (FlowQoSTimerMgr τ κ α × ω)

/-- The loop of `timer_tick` over the bucket that is due, with the timer it has come to and the
number of timers fired. -/
def fireLoop (call : Callback τ κ α ω) (bucket : ℕ × ℕ) :
    ℕ → Option (Node (ℕ × ℕ) τ) → ℕ → FlowQoSTimerMgr τ κ α × ω →
      Except Fault (ℕ × FlowQoSTimerMgr τ κ α × ω)
  | 0, _, _, _ => .error .outOfFuel
  | fuel + 1, timer, res, s =>
    if timer = some (.head bucket) then .ok (res, s)
    else
      match timer with
      | none => .error .nullPointer
      | some (.head _) => .error .notATimer
      | some (.elem t) =>
        let next := s.1.links.next (.elem t)
        match timerAgain (timerStop s.1 t) t with
        | .error e => .error e
        | .ok (_, mgr) =>
          match (mgr.timers t).cb with
          | none => .error .nullPointer
          | some cb =>
            match call cb t (mgr, s.2) with
            | .error e => .error e
            | .ok s => fireLoop call bucket fuel next (res + 1) s

/-- `timer_tick`. -/
def timerTick (call : Callback τ κ α ω) (fuel : ℕ) (s : FlowQoSTimerMgr τ κ α × ω) :
    Except Fault (ℕ × FlowQoSTimerMgr τ κ α × ω) :=
  let bidx := s.1.timeout % timerBucketCount
  match (if bidx = 0 then cascadeWheels fuel (timerWheelCount - 1) 1 s.1 else .ok s.1) with
  | .error e => .error e
  | .ok mgr =>
    match fireLoop call (0, bidx) fuel (mgr.links.next (.head (0, bidx))) 0 (mgr, s.2) with
    | .error e => .error e
    | .ok (res, mgr, w) => .ok (res, { mgr with timeout := (mgr.timeout + 1) % 2 ^ 64 }, w)

/-- `flowQoS_timer_tick`: one tick, when the timestamp counter is past the wheel's clock. -/
def flowQoSTimerTick (call : Callback τ κ α ω) (fuel gap rdtsc : ℕ)
    (s : FlowQoSTimerMgr τ κ α × ω) : Except Fault (ℕ × FlowQoSTimerMgr τ κ α × ω) :=
  if (s.1.startStmp + s.1.timeout * gap) % 2 ^ 64 < rdtsc then timerTick call fuel s
  else .ok (0, s)

/-- `flowQoS_timer_add`. -/
def flowQoSTimerAdd (mgr : FlowQoSTimerMgr τ κ α) (timer : τ) (cb : Option κ) (args : Option α)
    (timeout : ℕ) : Except Fault (ℤ × FlowQoSTimerMgr τ κ α) :=
  timerStart mgr timer cb args timeout 0

/-- `flowQoS_timer_del`. -/
def flowQoSTimerDel (mgr : FlowQoSTimerMgr τ κ α) (timer : τ) : FlowQoSTimerMgr τ κ α :=
  timerStop mgr timer

/-- `flowQoS_timer_reset`. -/
def flowQoSTimerReset (mgr : FlowQoSTimerMgr τ κ α) (timer : τ) (timeout : ℕ) :
    Except Fault (ℤ × FlowQoSTimerMgr τ κ α) :=
  timerReset mgr timer timeout

end FlowQoS.Timer
