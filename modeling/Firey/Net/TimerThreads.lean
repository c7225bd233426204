import Firey.Framework.Mailbox
import Firey.Net.FunctorQueue
import Firey.Net.TimerInvariant
import Firey.Net.TimerEffects

/-!
# `TimerQueueff` with its timerfd, its clock and its callers

`Firey.Net.TimerQueue` runs the queue in the loop thread alone.  Here are the other parts: the
clock and the timerfd, and the threads that call `addTimer` and `cancel` from outside, whose
calls reach the queue through the functor queue of the loop.  An `addTimer` of another thread is
three steps, the `new`, the push of the functor, and the reading of the sequence number for the
`TimerIdff`; steps of the loop and of other threads may fall between them.  User code in the loop
thread (an event handler, a functor, a timer callback) calls at any time, and its calls run at
once.

The wall clock and the monotonic clock advance together, and only between steps.  Times are
unbounded integers: with expiration times and clock between 0 and 2^62 no `int64_t` overflows.
`returned`, `log` and `written` are history.
-/

set_option autoImplicit false

namespace Firey

/-! ## The timerfd -/

/-- `struct timespec`. -/
@[ext]
structure Timespec where
  tv_sec : ℤ
  tv_nsec : ℤ
  deriving DecidableEq, Repr

def kusPerSecond : ℤ := 1000 * 1000

/-- `howMuchTimeFromNow`, by the clock. -/
def howMuchTimeFromNow (when clock : Timestamp) : Timespec :=
  let microSecond := if when - clock < 100 then 100 else when - clock
  { tv_sec := microSecond.tdiv kusPerSecond
    tv_nsec := microSecond.tmod kusPerSecond * 1000 }

/-- A timerfd that was set and has not been read since it expired. -/
structure Arming where
  armedAt : Timestamp
  deadline : Timestamp
  deriving DecidableEq, Repr

/-- `timerfd_settime` with a relative time: a zero time disarms, a malformed one is refused. -/
def timerfdSettime (clock : Timestamp) (v : Timespec) (timerfd : Option Arming) :
    Option Arming :=
  if v.tv_sec < 0 ∨ v.tv_nsec < 0 ∨ 1000 * 1000 * 1000 ≤ v.tv_nsec then timerfd
  else if v.tv_sec = 0 ∧ v.tv_nsec = 0 then none
  else some
    { armedAt := clock, deadline := clock + v.tv_sec * kusPerSecond + v.tv_nsec.tdiv 1000 }

/-- `readTimerfd`: a timerfd that has not expired yet has nothing to read. -/
def readTimerfd (clock : Timestamp) (timerfd : Option Arming) : Option Arming :=
  timerfd.filter fun a => clock < a.deadline

/-! ## The machine -/

/-- The functors of the timer queue. -/
inductive TimerTask
  | addTimerInLoop (p : TimerPtr)
  | cancelInLoop (timerId : ActiveTimer)

/-- What happens to a timer: its callback starts, or a `cancelInLoop` for it is executed. -/
inductive TimerEvent
  | started (timerId : ActiveTimer)
  | cancelled (timerId : ActiveTimer)

structure TimerThreads where
  queue : TimerQueue
  phase : TimerPhase
  clock : Timestamp
  timerfd : Option Arming
  functors : Mailbox TimerTask Runner
  /-- The threads between the `new` and the push of their `addTimer`. -/
  made : List (ThreadId × ActiveTimer)
  /-- The threads between the push and the return. -/
  pushed : List (ThreadId × ActiveTimer)
  returned : List ActiveTimer
  log : List TimerEvent
  written : List Timespec

inductive ThreadInput
  /-- Time passes. -/
  | tick (d : ℕ)
  /-- User code in the loop thread calls `addTimer`. -/
  | addTimer (p : TimerPtr) (when interval : ℕ) (isRepeat : Bool)
  /-- User code in the loop thread calls `cancel`. -/
  | cancel (timerId : ActiveTimer)
  /-- The handler of the timerfd, up to the first callback. -/
  | handleTimerfdRead
  /-- The callback that is running returns, and the next one starts, or the batch is reset. -/
  | next
  /-- `doPendingFunctors` swaps. -/
  | swap
  /-- `doPendingFunctors` calls a functor. -/
  | runFunctor
  /-- Another thread calls `addTimer`: the `new`. -/
  | remoteNew (t : ThreadId) (p : TimerPtr) (when interval : ℕ) (isRepeat : Bool)
  | remotePush (t : ThreadId)
  | remoteReturn (t : ThreadId)
  /-- Another thread calls `cancel`. -/
  | remoteCancel (timerId : ActiveTimer)
  /-- A timer is made for another queue. -/
  | createElsewhere

namespace TimerThreads

/-- An empty queue in a process that has made `n` timers for other queues. -/
def start (n : ℕ) (clock : Timestamp) : TimerThreads where
  queue := .start n
  phase := .idle
  clock := clock
  timerfd := none
  functors := .empty
  made := []
  pushed := []
  returned := []
  log := []
  written := []

/-- An address that `new` can return. -/
def Free (s : TimerThreads) (p : TimerPtr) : Prop :=
  s.queue.heap p = none ∧ 0 < p ∧ p < UINTPTR_MAX

instance (s : TimerThreads) (p : TimerPtr) : Decidable (s.Free p) :=
  inferInstanceAs (Decidable (_ ∧ _ ∧ _))

/-- `resetTimerfd`. -/
def resetTimerfd (s : TimerThreads) (when : Timestamp) : TimerThreads :=
  let newValue := howMuchTimeFromNow when s.clock
  { s with
    timerfd := timerfdSettime s.clock newValue s.timerfd
    written := s.written ++ [newValue] }

/-- The timerfd is set where an operation of the queue asks for it. -/
def arm (s : TimerThreads) : Option Timestamp → TimerThreads
  | none => s
  | some when => s.resetTimerfd when

def addTimer (s : TimerThreads) (p : TimerPtr) (when interval : ℤ) (isRepeat : Bool) :
    Except Fault TimerThreads := do
  let (q, timerfd, timerId) ← s.queue.addTimer p when interval isRepeat
  .ok ({ s with queue := q, returned := s.returned ++ [timerId] }.arm timerfd)

def cancelInLoop (s : TimerThreads) (timerId : ActiveTimer) : Except Fault TimerThreads := do
  let q ← s.queue.cancelInLoop timerId
  .ok { s with queue := q, log := s.log ++ [.cancelled timerId] }

def addTimerInLoop (s : TimerThreads) (p : TimerPtr) : Except Fault TimerThreads := do
  let (q, timerfd) ← s.queue.addTimerInLoop p
  .ok ({ s with queue := q }.arm timerfd)

/-- `handleTimerfdRead` up to the first callback. -/
def handleTimerfdRead (s : TimerThreads) : Except Fault TimerThreads := do
  let (q, expired) ← s.queue.getExpiredTimer s.clock
  .ok { s with
    queue := { q with callingExpiredTimers := true, cancelingTimers := .empty }
    phase := .calling s.clock expired expired
    timerfd := readTimerfd s.clock s.timerfd }

/-- `handleTimerfdRead` from one callback to the next, or to its end. -/
def next (s : TimerThreads) : Except Fault TimerThreads :=
  match s.phase with
  | .idle => .ok s
  | .calling now expired (n :: toRun) => do
      let t ← s.queue.deref n.ptr
      .ok { s with
        phase := .calling now expired toRun
        log := s.log ++ [.started (.mk n.ptr t.sequence)] }
  | .calling now expired [] => do
      let (q, timerfd) ← { s.queue with callingExpiredTimers := false }.reset expired now
      .ok ({ s with queue := q, phase := .idle }.arm timerfd)

/-- The loop thread is in no timer callback, and in no functor of the timer queue. -/
def betweenFunctors (s : TimerThreads) : Bool :=
  match s.phase with
  | .idle => s.functors.batch.isEmpty
  | .calling _ _ _ => false

def inCallback (s : TimerThreads) : Bool :=
  match s.phase with
  | .idle => false
  | .calling _ _ _ => true

def runFunctor (s : TimerThreads) : Except Fault TimerThreads :=
  let s' := { s with functors := s.functors.take .loopThread }
  match s.functors.head? with
  | none => .ok s
  | some (.addTimerInLoop p) => s'.addTimerInLoop p
  | some (.cancelInLoop timerId) => s'.cancelInLoop timerId

/-- The thread waits at a step of its `addTimer`, with what it is going to return. -/
def waiting (l : List (ThreadId × ActiveTimer)) (t : ThreadId) :
    Option (ThreadId × ActiveTimer) :=
  l.find? fun w => w.1 = t

/-- `addTimer` of another thread, the `new`. -/
def remoteNew (s : TimerThreads) (t : ThreadId) (p : TimerPtr) (when interval : ℤ)
    (isRepeat : Bool) : TimerThreads :=
  { s with
    queue := s.queue.newTimer p when interval isRepeat
    made := s.made ++ [(t, .mk p (s.queue.timerCreated + 1))] }

def remotePush (s : TimerThreads) (w : ThreadId × ActiveTimer) : TimerThreads :=
  { s with
    made := s.made.erase w
    pushed := s.pushed ++ [w]
    functors := s.functors.post (.addTimerInLoop w.2.ptr) }

/-- `return TimerIdff(timer,timer->sequence())`: by now the timer may have been deleted, and
its memory given to another one. -/
def remoteReturn (s : TimerThreads) (w : ThreadId × ActiveTimer) : Except Fault TimerThreads := do
  let tm ← s.queue.deref w.2.ptr
  if tm.sequence = w.2.sequence then
    .ok { s with pushed := s.pushed.erase w, returned := s.returned ++ [w.2] }
  else .error .dangling

def step (s : TimerThreads) : ThreadInput → Except Fault TimerThreads
  | .tick d => .ok { s with clock := s.clock + d }
  | .addTimer p when interval isRepeat =>
      if s.Free p then s.addTimer p when interval isRepeat else .ok s
  | .cancel timerId => if timerId ∈ s.returned then s.cancelInLoop timerId else .ok s
  | .handleTimerfdRead => if s.betweenFunctors then s.handleTimerfdRead else .ok s
  | .next => s.next
  | .swap => if s.betweenFunctors then .ok { s with functors := s.functors.collect } else .ok s
  | .runFunctor => if s.inCallback then .ok s else s.runFunctor
  | .remoteNew t p when interval isRepeat =>
      if s.Free p then .ok (s.remoteNew t p when interval isRepeat) else .ok s
  | .remotePush t => .ok (((waiting s.made t).map s.remotePush).getD s)
  | .remoteReturn t =>
      match waiting s.pushed t with
      | none => .ok s
      | some w => s.remoteReturn w
  | .remoteCancel timerId =>
      if timerId ∈ s.returned then
        .ok { s with functors := s.functors.post (.cancelInLoop timerId) }
      else .ok s
  | .createElsewhere =>
      .ok { s with queue := { s.queue with timerCreated := s.queue.timerCreated + 1 } }

def machine : Machine TimerThreads ThreadInput Fault := ⟨step⟩

/-! ## What a step does -/

variable {s t : TimerThreads}

lemma phase_idle (h : s.inCallback = false) : s.phase = .idle := by
  unfold inCallback at h
  split at h
  · assumption
  · cases h

lemma phase_of_betweenFunctors (h : s.betweenFunctors = true) : s.phase = .idle := by
  unfold betweenFunctors at h
  split at h
  · assumption
  · cases h

/-- A step that goes through.  What the operations of the queue do is left to their own lemmas. -/
inductive Outcome (s : TimerThreads) : ThreadInput → TimerThreads → Prop
  | nothing {i : ThreadInput} : Outcome s i s
  | tick (d : ℕ) : Outcome s (.tick d) { s with clock := s.clock + d }
  | addTimer {p : TimerPtr} {when interval : ℕ} {isRepeat : Bool} {t : TimerThreads}
      (hfree : s.Free p) (hadd : s.addTimer p when interval isRepeat = .ok t) :
      Outcome s (.addTimer p when interval isRepeat) t
  | cancel {timerId : ActiveTimer} {t : TimerThreads} (hret : timerId ∈ s.returned)
      (hcancel : s.cancelInLoop timerId = .ok t) : Outcome s (.cancel timerId) t
  | handleTimerfdRead {t : TimerThreads} (hidle : s.betweenFunctors = true)
      (hread : s.handleTimerfdRead = .ok t) : Outcome s .handleTimerfdRead t
  | callBack {now : Timestamp} {expired toRun : List TimerNode} {n : TimerNode} {tm : Timer}
      (hphase : s.phase = .calling now expired (n :: toRun))
      (htm : s.queue.heap n.ptr = some tm) :
      Outcome s .next { s with
        phase := .calling now expired toRun
        log := s.log ++ [.started (.mk n.ptr tm.sequence)] }
  | endBatch {now : Timestamp} {expired : List TimerNode} {q : TimerQueue}
      {r : Option Timestamp} (hphase : s.phase = .calling now expired [])
      (hreset : { s.queue with callingExpiredTimers := false }.reset expired now = .ok (q, r)) :
      Outcome s .next ({ s with queue := q, phase := .idle }.arm r)
  | swap (hidle : s.betweenFunctors = true) :
      Outcome s .swap { s with functors := s.functors.collect }
  | runAdd {p : TimerPtr} {t : TimerThreads} (hidle : s.phase = .idle)
      (hhead : s.functors.head? = some (.addTimerInLoop p))
      (hadd : { s with functors := s.functors.take .loopThread }.addTimerInLoop p = .ok t) :
      Outcome s .runFunctor t
  | runCancel {timerId : ActiveTimer} {t : TimerThreads} (hidle : s.phase = .idle)
      (hhead : s.functors.head? = some (.cancelInLoop timerId))
      (hcancel : { s with functors := s.functors.take .loopThread }.cancelInLoop timerId = .ok t) :
      Outcome s .runFunctor t
  | remoteNew {th : ThreadId} {p : TimerPtr} {when interval : ℕ} {isRepeat : Bool}
      (hfree : s.Free p) :
      Outcome s (.remoteNew th p when interval isRepeat) (s.remoteNew th p when interval isRepeat)
  | remotePush {th : ThreadId} {w : ThreadId × ActiveTimer} (hw : w ∈ s.made) :
      Outcome s (.remotePush th) (s.remotePush w)
  | remoteReturn {th : ThreadId} {w : ThreadId × ActiveTimer} (hw : w ∈ s.pushed) :
      Outcome s (.remoteReturn th)
        { s with pushed := s.pushed.erase w, returned := s.returned ++ [w.2] }
  | remoteCancel {timerId : ActiveTimer} (hret : timerId ∈ s.returned) :
      Outcome s (.remoteCancel timerId)
        { s with functors := s.functors.post (.cancelInLoop timerId) }
  | createElsewhere :
      Outcome s .createElsewhere
        { s with queue := { s.queue with timerCreated := s.queue.timerCreated + 1 } }

lemma next_outcome (hnext : s.next = .ok t) : s.Outcome .next t := by
  unfold next at hnext
  split at hnext
  · cases hnext
    exact .nothing
  · next hphase =>
    obtain ⟨tm, htm, hnext⟩ := bind_eq_ok hnext
    cases hnext
    exact .callBack hphase (TimerQueue.deref_eq_ok htm)
  · next hphase =>
    obtain ⟨⟨q, r⟩, hreset, hnext⟩ := bind_eq_ok hnext
    cases hnext
    exact .endBatch hphase hreset

lemma runFunctor_outcome (hidle : s.phase = .idle) (hrun : s.runFunctor = .ok t) :
    s.Outcome .runFunctor t := by
  unfold runFunctor at hrun
  dsimp only at hrun
  split at hrun
  · cases hrun
    exact .nothing
  · next hhead => exact .runAdd hidle hhead hrun
  · next hhead => exact .runCancel hidle hhead hrun

theorem step_outcome {i : ThreadInput} (hstep : s.step i = .ok t) : s.Outcome i t := by
  have stays (hs : (.ok s : Except Fault TimerThreads) = .ok t) : s.Outcome i t :=
    Except.ok.inj hs ▸ .nothing
  cases i with
  | tick d =>
    cases hstep
    exact .tick d
  | addTimer p when interval isRepeat =>
    rw [step] at hstep
    split at hstep
    · next hfree => exact .addTimer hfree hstep
    · exact stays hstep
  | cancel timerId =>
    rw [step] at hstep
    split at hstep
    · next hret => exact .cancel hret hstep
    · exact stays hstep
  | handleTimerfdRead =>
    rw [step] at hstep
    split at hstep
    · next hidle => exact .handleTimerfdRead hidle hstep
    · exact stays hstep
  | next => exact next_outcome hstep
  | swap =>
    rw [step] at hstep
    split at hstep
    · next hidle =>
      cases hstep
      exact .swap hidle
    · exact stays hstep
  | runFunctor =>
    rw [step] at hstep
    split at hstep
    · exact stays hstep
    · next hidle => exact runFunctor_outcome (phase_idle (by simpa using hidle)) hstep
  | remoteNew th p when interval isRepeat =>
    rw [step] at hstep
    split at hstep
    · next hfree =>
      cases hstep
      exact .remoteNew hfree
    · exact stays hstep
  | remotePush th =>
    rw [step] at hstep
    cases hw : waiting s.made th with
    | none =>
      rw [hw] at hstep
      exact stays hstep
    | some w =>
      rw [hw] at hstep
      cases hstep
      exact .remotePush (List.mem_of_find?_eq_some hw)
  | remoteReturn th =>
    rw [step] at hstep
    split at hstep
    · exact stays hstep
    · next w hw =>
      obtain ⟨tm, -, hret⟩ := bind_eq_ok hstep
      split at hret <;> cases hret
      exact .remoteReturn (List.mem_of_find?_eq_some hw)
  | remoteCancel timerId =>
    rw [step] at hstep
    split at hstep
    · next hret =>
      cases hstep
      exact .remoteCancel hret
    · exact stays hstep
  | createElsewhere =>
    cases hstep
    exact .createElsewhere

end TimerThreads

end Firey
