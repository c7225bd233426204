import Firey.Fault
import Firey.Framework.Machine
import Firey.Framework.OrderedSet
import Mathlib.Data.Int.Order.Basic
import Mathlib.Data.Prod.Lex
import Mathlib.Logic.Function.Basic

/-!
# `TimerQueueff`

The queue holds raw pointers, so the `Timerff` objects live in a heap: an address holds a timer
from `new` to `delete`, any free address may be given out again, and whoever follows a pointer
to a free address makes the run fail with `Fault.dangling`.  `created` and `deleted` are history:
the sequence numbers of the timers in the order of their `new` and `delete`.

`handleTimerfdRead` is taken apart at the timer callbacks.  A callback is the inputs between one
`next` and the following one, and may add and cancel timers as it likes; `TimerLoop` keeps where
the function stands.  Times are whole microseconds, and of `interval_` only its sign and the
microseconds that `addTime` makes of it matter.

Times are unbounded integers and sequence numbers unbounded naturals: no `int64_t` overflows while
times stay in its range, and `timerCreated` does not wrap before 2^64 timers are made.
-/

set_option autoImplicit false

namespace Firey

/-- `Timerff*`. -/
abbrev TimerPtr := ℕ

def UINTPTR_MAX : TimerPtr := 2 ^ 64 - 1

/-- `Timerff`; its callback is user code. -/
structure Timer where
  interval : ℤ
  isRepeat : Bool
  expireTime : Timestamp
  sequence : ℕ
  deriving DecidableEq, Repr

def Timer.restart (t : Timer) (now : Timestamp) : Timer :=
  if t.isRepeat = false then { t with expireTime := 0 }
  else { t with expireTime := now + t.interval }

/-- `pair<Timestampff,Timerff*>`. -/
abbrev TimerNode := Timestamp ×ₗ TimerPtr

/-- `pair<Timerff*,uint64_t>`, and `TimerIdff`. -/
abbrev ActiveTimer := TimerPtr ×ₗ ℕ

def TimerNode.mk (t : Timestamp) (p : TimerPtr) : TimerNode := toLex (t, p)

def TimerNode.when (n : TimerNode) : Timestamp := (ofLex n).1

def TimerNode.ptr (n : TimerNode) : TimerPtr := (ofLex n).2

def ActiveTimer.mk (p : TimerPtr) (s : ℕ) : ActiveTimer := toLex (p, s)

def ActiveTimer.ptr (a : ActiveTimer) : TimerPtr := (ofLex a).1

def ActiveTimer.sequence (a : ActiveTimer) : ℕ := (ofLex a).2

structure TimerQueue where
  heap : TimerPtr → Option Timer
  timerCreated : ℕ
  timers : OrderedSet TimerNode
  activeTimers : OrderedSet ActiveTimer
  callingExpiredTimers : Bool
  cancelingTimers : OrderedSet ActiveTimer
  created : List ℕ
  deleted : List ℕ

namespace TimerQueue

/-- An empty queue in a process that has made `n` timers for other queues. -/
def start (n : ℕ) : TimerQueue where
  heap := fun _ => none
  timerCreated := n
  timers := .empty
  activeTimers := .empty
  callingExpiredTimers := false
  cancelingTimers := .empty
  created := []
  deleted := []

/-! ## The heap -/

/-- Follow a pointer. -/
def deref (q : TimerQueue) (p : TimerPtr) : Except Fault Timer :=
  match q.heap p with
  | some t => .ok t
  | none => .error .dangling

/-- `new Timerff` at a free address. -/
def newTimer (q : TimerQueue) (p : TimerPtr) (when : Timestamp) (interval : ℤ)
    (isRepeat : Bool) : TimerQueue :=
  { q with
    heap := Function.update q.heap p
      (some ⟨interval, isRepeat, when, q.timerCreated + 1⟩)
    timerCreated := q.timerCreated + 1
    created := q.created ++ [q.timerCreated + 1] }

def delete (q : TimerQueue) (p : TimerPtr) : Except Fault TimerQueue := do
  let t ← q.deref p
  .ok { q with heap := Function.update q.heap p none, deleted := q.deleted ++ [t.sequence] }

/-! ## Adding and cancelling

Where the source sets the timerfd, the function returns the time it is set to. -/

def insertTimer (q : TimerQueue) (p : TimerPtr) : Except Fault (TimerQueue × Bool) := do
  check .insertTimerSize (q.timers.size = q.activeTimers.size)
  let t ← q.deref p
  let earliestChanged := q.timers.first?.all fun n => t.expireTime < n.when
  let q' := { q with
    timers := q.timers.insert (.mk t.expireTime p)
    activeTimers := q.activeTimers.insert (.mk p t.sequence) }
  check .insertTimerSize (q'.timers.size = q'.activeTimers.size)
  .ok (q', earliestChanged)

def addTimerInLoop (q : TimerQueue) (p : TimerPtr) :
    Except Fault (TimerQueue × Option Timestamp) := do
  let (q', earliestChanged) ← q.insertTimer p
  if earliestChanged then
    let t ← q'.deref p
    .ok (q', some t.expireTime)
  else .ok (q', none)

/-- `addTimer` in the loop thread. -/
def addTimer (q : TimerQueue) (p : TimerPtr) (when : Timestamp) (interval : ℤ)
    (isRepeat : Bool) : Except Fault (TimerQueue × Option Timestamp × ActiveTimer) := do
  let (q', timerfd) ← (q.newTimer p when interval isRepeat).addTimerInLoop p
  let t ← q'.deref p
  .ok (q', timerfd, .mk p t.sequence)

def cancelInLoop (q : TimerQueue) (timerId : ActiveTimer) : Except Fault TimerQueue := do
  check .cancelInLoopSize (q.timers.size = q.activeTimers.size)
  let q' ←
    if timerId ∈ q.activeTimers then do
      let t ← q.deref timerId.ptr
      let q' ← { q with timers := q.timers.erase (.mk t.expireTime timerId.ptr) }.delete timerId.ptr
      .ok { q' with activeTimers := q'.activeTimers.erase timerId }
    else if q.callingExpiredTimers then
      .ok { q with cancelingTimers := q.cancelingTimers.insert timerId }
    else .ok q
  check .cancelInLoopSize (q'.timers.size = q'.activeTimers.size)
  .ok q'

/-! ## Expiry -/

/-- Drop the expired timers from the active ones. -/
def eraseActive (q : TimerQueue) : List TimerNode → Except Fault TimerQueue
  | [] => .ok q
  | n :: ns => do
      let t ← q.deref n.ptr
      { q with activeTimers := q.activeTimers.erase (.mk n.ptr t.sequence) }.eraseActive ns

def getExpiredTimer (q : TimerQueue) (now : Timestamp) :
    Except Fault (TimerQueue × List TimerNode) := do
  check .getExpiredTimerSize (q.timers.size = q.activeTimers.size)
  let sentry := TimerNode.mk now UINTPTR_MAX
  let expired := q.timers.before sentry
  let rest := q.timers.eraseBefore sentry
  check .getExpiredTimerBound ((rest.first?.all fun n => now < n.when) = true)
  let q' ← { q with timers := rest }.eraseActive expired
  check .getExpiredTimerSize (q'.timers.size = q'.activeTimers.size)
  .ok (q', expired)

/-- The body of the loop in `reset`: a repeating timer that nobody cancelled is put back. -/
def resetTimer (q : TimerQueue) (now : Timestamp) (n : TimerNode) : Except Fault TimerQueue := do
  let t ← q.deref n.ptr
  if t.isRepeat = true ∧ ActiveTimer.mk n.ptr t.sequence ∉ q.cancelingTimers then
    let (q', _) ←
      { q with heap := Function.update q.heap n.ptr (some (t.restart now)) }.insertTimer n.ptr
    .ok q'
  else q.delete n.ptr

def resetAll (q : TimerQueue) (now : Timestamp) : List TimerNode → Except Fault TimerQueue
  | [] => .ok q
  | n :: ns => do
      let q' ← q.resetTimer now n
      q'.resetAll now ns

def reset (q : TimerQueue) (expired : List TimerNode) (now : Timestamp) :
    Except Fault (TimerQueue × Option Timestamp) := do
  let q' ← q.resetAll now expired
  let nextExpire := (q'.timers.first?.map TimerNode.when).getD 0
  .ok (q', if nextExpire ≠ 0 then some nextExpire else none)

end TimerQueue

/-! ## The loop thread -/

/-- Where `handleTimerfdRead` stands: the batch, and what of it has yet to run. -/
inductive TimerPhase
  | idle
  | calling (now : Timestamp) (expired toRun : List TimerNode)

structure TimerLoop where
  queue : TimerQueue
  phase : TimerPhase

inductive TimerInput
  /-- `addTimer`, with the address that `new` returns. -/
  | addTimer (p : TimerPtr) (when : Timestamp) (interval : ℤ) (isRepeat : Bool)
  | cancel (timerId : ActiveTimer)
  /-- A timer is made for another queue. -/
  | createElsewhere
  | handleTimerfdRead (now : Timestamp)
  /-- The callback that is running returns, and the next one starts, or the batch is reset. -/
  | next

namespace TimerLoop

def start (n : ℕ) : TimerLoop where
  queue := .start n
  phase := .idle

/-- `handleTimerfdRead` up to the first callback. -/
def handleTimerfdRead (s : TimerLoop) (now : Timestamp) : Except Fault TimerLoop :=
  match s.phase with
  | .calling _ _ _ => .ok s
  | .idle => do
      let (q, expired) ← s.queue.getExpiredTimer now
      .ok ⟨{ q with callingExpiredTimers := true, cancelingTimers := .empty },
        .calling now expired expired⟩

/-- `handleTimerfdRead` from one callback to the next, or to its end. -/
def next (s : TimerLoop) : Except Fault TimerLoop :=
  match s.phase with
  | .idle => .ok s
  | .calling now expired (n :: toRun) => do
      let _ ← s.queue.deref n.ptr
      .ok { s with phase := .calling now expired toRun }
  | .calling now expired [] => do
      let (q, _) ← { s.queue with callingExpiredTimers := false }.reset expired now
      .ok ⟨q, .idle⟩

def step (s : TimerLoop) : TimerInput → Except Fault TimerLoop
  | .addTimer p when interval isRepeat =>
      if s.queue.heap p = none ∧ 0 < p ∧ p < UINTPTR_MAX then do
        let (q, _) ← s.queue.addTimer p when interval isRepeat
        .ok { s with queue := q }
      else .ok s
  | .cancel timerId => do
      let q ← s.queue.cancelInLoop timerId
      .ok { s with queue := q }
  | .createElsewhere =>
      .ok { s with queue := { s.queue with timerCreated := s.queue.timerCreated + 1 } }
  | .handleTimerfdRead now => s.handleTimerfdRead now
  | .next => s.next

def machine : Machine TimerLoop TimerInput Fault := ⟨step⟩

end TimerLoop

end Firey
