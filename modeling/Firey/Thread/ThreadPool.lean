import Firey.Fault
import Firey.Framework.Condition
import Firey.Framework.Machine

/-!
# `ThreadPoolff`

The mutex makes one step of each critical section: of `run` and `take` from the lock, or from the
return of a wait, to the unlock or the next wait, and of `stop`.  A worker goes through
`runInThread`; between two calls of `take` it is in a task, which is user code and may call `run`
itself, as any other thread may.  Which thread a notification reaches is part of the input, and a
blocked thread can be woken at any time for no reason.

The pool is looked at from the end of `start` on.  A task that throws ends the process, and `join`
only waits.  `queued` and `taken` are history.
-/

set_option autoImplicit false

namespace Firey

/-- A worker, by its place in `threads_`, or a thread outside the pool. -/
inductive PoolThread
  | worker (w : ℕ)
  | other (t : ℕ)
  deriving DecidableEq, Repr

/-- `std::function<void()>`, which can be empty. -/
abbrev ThreadPool.Task (α : Type) := Option α

/-- A thread in a call of `run`. -/
structure Producer (α : Type) where
  thread : PoolThread
  task : ThreadPool.Task α
  deriving DecidableEq, Repr

/-- Where a worker is in `runInThread`. -/
inductive WorkerPhase (α : Type)
  /-- Before the test of `running_`, or in the init callback. -/
  | testRunning
  /-- Before the lock of `take`. -/
  | take
  /-- In `notEmpty_.wait()`. -/
  | waiting
  | calling (f : α)
  | finished
  deriving DecidableEq, Repr

structure ThreadPool (α : Type) where
  queue : List (ThreadPool.Task α)
  notFull : Condition (Producer α)
  notEmpty : Condition ℕ
  threads : List (WorkerPhase α)
  maxQueueSize : ℕ
  running : Bool
  queued : List (ThreadPool.Task α)
  taken : List (ThreadPool.Task α)
  deriving DecidableEq, Repr

/-- `pick` is the thread that the notification at the end of a section reaches, if it can. -/
inductive PoolInput (α : Type)
  /-- A thread calls `run`, and gets the mutex. -/
  | run (p : Producer α) (pick : ℕ)
  /-- A thread in `run` has the mutex again. -/
  | runAgain (p : Producer α) (pick : ℕ)
  /-- A producer is woken for no reason. -/
  | wakeProducer (p : Producer α)
  /-- A worker tests `running_`. -/
  | testRunning (w : ℕ)
  /-- A worker gets the mutex in `take`. -/
  | take (w : ℕ) (pick : Producer α)
  | takeAgain (w : ℕ) (pick : Producer α)
  | wakeWorker (w : ℕ)
  /-- The task of a worker returns. -/
  | taskReturns (w : ℕ)
  | stop
  deriving DecidableEq, Repr

namespace ThreadPool

variable {α : Type}

/-- After `start(numThreads)`. -/
def start (numThreads maxQueueSize : ℕ) : ThreadPool α where
  queue := []
  notFull := .empty
  notEmpty := .empty
  threads := List.replicate numThreads .testRunning
  maxQueueSize := maxQueueSize
  running := true
  queued := []
  taken := []

def isFull (s : ThreadPool α) : Bool := 0 < s.maxQueueSize ∧ s.maxQueueSize ≤ s.queue.length

/-! ## The critical sections -/

/-- `run`, from the test of its loop on. -/
def run (s : ThreadPool α) (p : Producer α) (pick : ℕ) : Except Fault (ThreadPool α) :=
  if s.isFull ∧ s.running then .ok { s with notFull := s.notFull.wait p }
  else if s.running = false then .ok s
  else do
    check .threadPoolRun (s.isFull = false)
    .ok { s with
      queue := s.queue ++ [p.task]
      queued := s.queued ++ [p.task]
      notEmpty := s.notEmpty.notify pick }

/-- Where `runInThread` goes with what `take` returns: an empty task is not called. -/
def afterTake : Task α → WorkerPhase α
  | some f => .calling f
  | none => .testRunning

variable [DecidableEq α]

/-- `take`, from the test of its loop on. -/
def take (s : ThreadPool α) (w : ℕ) (pick : Producer α) : ThreadPool α :=
  if s.queue = [] ∧ s.running then
    { s with notEmpty := s.notEmpty.wait w, threads := s.threads.set w .waiting }
  else
    match s.queue with
    | [] => { s with threads := s.threads.set w (afterTake none) }
    | task :: rest =>
        { s with
          queue := rest
          taken := s.taken ++ [task]
          notFull := if 0 < s.maxQueueSize then s.notFull.notify pick else s.notFull
          threads := s.threads.set w (afterTake task) }

def stop (s : ThreadPool α) : ThreadPool α :=
  { s with
    running := false
    notEmpty := s.notEmpty.notifyAll
    notFull := s.notFull.notifyAll }

/-! ## Steps -/

/-- The worker is in a task. -/
def inTask (s : ThreadPool α) (w : ℕ) : Bool :=
  match s.threads[w]? with
  | some (.calling _) => true
  | _ => false

/-- A worker runs user code in a task only, and no thread calls `run` while it is in `run`. -/
def MayRun (s : ThreadPool α) (t : PoolThread) : Prop :=
  (∀ p ∈ s.notFull.waiters, p.thread ≠ t) ∧ ∀ w, t = .worker w → s.inTask w = true

instance (s : ThreadPool α) : (t : PoolThread) → Decidable (s.MayRun t)
  | .worker w => decidable_of_iff
      ((∀ p ∈ s.notFull.waiters, p.thread ≠ .worker w) ∧ s.inTask w = true)
      ⟨fun h => ⟨h.1, fun _ hw => PoolThread.worker.inj hw ▸ h.2⟩, fun h => ⟨h.1, h.2 w rfl⟩⟩
  | .other t => decidable_of_iff (∀ p ∈ s.notFull.waiters, p.thread ≠ .other t)
      ⟨fun h => ⟨h, nofun⟩, fun h => h.1⟩

def step (s : ThreadPool α) : PoolInput α → Except Fault (ThreadPool α)
  -- without workers the task is called at once, and the pool has nothing to do with it
  | .run p pick => if s.MayRun p.thread ∧ s.threads ≠ [] then s.run p pick else .ok s
  | .runAgain p pick =>
      if s.notFull.Awake p then { s with notFull := s.notFull.leave p }.run p pick else .ok s
  | .wakeProducer p => .ok { s with notFull := s.notFull.wake p }
  | .testRunning w =>
      if s.threads[w]? = some .testRunning then
        .ok { s with threads := s.threads.set w (if s.running then .take else .finished) }
      else .ok s
  | .take w pick => if s.threads[w]? = some .take then .ok (s.take w pick) else .ok s
  | .takeAgain w pick =>
      if s.notEmpty.Awake w then .ok ({ s with notEmpty := s.notEmpty.leave w }.take w pick)
      else .ok s
  | .wakeWorker w => .ok { s with notEmpty := s.notEmpty.wake w }
  | .taskReturns w =>
      if s.MayRun (.worker w) then .ok { s with threads := s.threads.set w .testRunning }
      else .ok s
  | .stop => .ok s.stop

def machine : Machine (ThreadPool α) (PoolInput α) Fault := ⟨step⟩

end ThreadPool

end Firey
