import Firey.Thread.PoolWakeups
import Firey.Thread.Thread

/-!
# The life of a `ThreadPoolff`

`start` makes one `Threadff` after the other, and each of its threads is in `runInThread` while the
next is made; `stop` joins them in that order, and the destructor calls `stop` if nobody has.  What
the workers and the callers of `run` do with the queue is `Firey.Thread.ThreadPool`, and what a
`Threadff` does is `Firey.Thread.Thread`; here the steps of both are those of one machine, in which
a worker gets into the pool through its thread and leaves it when `runInThread` returns.

`stop` waits for the workers and for nobody else.  A thread outside that is in `run`, because the
queue is full, is woken by it, but has still to take the mutex, and if the pool is gone by then
there is none.  So the pool may be destroyed only when nobody is in `run` (`pool_lives_iff`).

`start`, `stop` and the destructor are called one at a time.  The init callback is part of the
phase before the first test of `running_`, and `run` reads `threads_` without a lock, but in one
step.
-/

set_option autoImplicit false

namespace Firey

/-- What the caller of `start`, `stop` or the destructor is doing. -/
inductive PoolCall
  | none
  /-- In `start`, with this many threads to be made; in `Threadff::start` of the last, perhaps. -/
  | start (left : ℕ)
  /-- In `stop`, at `join` of thread `w`; `self` is the worker that has called it, and `destroys`
  is whether the destructor has. -/
  | join (w : ℕ) (self : Option ℕ) (destroys : Bool)
  deriving DecidableEq, Repr

inductive PoolLifeFault
  /-- `start`: `threads_.empty()`. -/
  | started
  /-- `start`: `threads_.reserve` of a negative number, which throws `length_error`. -/
  | reserve
  | pool (e : Fault)
  | thread (e : ThreadFault)
  deriving DecidableEq, Repr

/-- `dangling` is history: whether something of the pool was used when it was gone. -/
structure PoolLife (α : Type) where
  name_ : Bytes
  pool : ThreadPool α
  threads_ : List Thread
  call : PoolCall
  destroyed : Bool
  dangling : Bool
  deriving DecidableEq, Repr

inductive PoolLifeInput (α : Type)
  | start (numThreads : ℤ)
  /-- `start`, `stop` or the destructor goes on; `created` is what `pthread_create` comes to, if it
  is called. -/
  | callGoes (created : Bool)
  /-- A step of the thread of a worker, before or behind `runInThread`. -/
  | thread (w : ℕ) (i : ThreadStep)
  /-- A step in the pool, of a worker or of a thread outside. -/
  | pool (i : PoolInput α)
  /-- The task of a worker throws. -/
  | throws (w : ℕ)
  | stop (caller : PoolThread)
  | destroy
  deriving DecidableEq, Repr

/-- The worker whose step this is. -/
def PoolInput.worker? {α : Type} : PoolInput α → Option ℕ
  | .run ⟨.worker w, _⟩ _ => some w
  | .runAgain ⟨.worker w, _⟩ _ => some w
  | .testRunning w => some w
  | .take w _ => some w
  | .takeAgain w _ => some w
  | .taskReturns w => some w
  | _ => none

namespace PoolLife

variable {α : Type}

/-- The constructor, and `setMaxQueueSize`. -/
def ctor (name : Bytes) (maxQueueSize : ℕ) : PoolLife α where
  name_ := name
  pool := { ThreadPool.start 0 maxQueueSize with running := false }
  threads_ := []
  call := .none
  destroyed := false
  dangling := false

/-- The name of the worker at this place. -/
def threadName (s : PoolLife α) (w : ℕ) : Bytes :=
  s.name_ ++ snprintf 32 (octets [':'] ++ decimalText (w + 1))

/-- Something of the pool is used. -/
def use (s : PoolLife α) : PoolLife α := { s with dangling := s.dangling || s.destroyed }

def lift {β : Type} (x : Except ThreadFault β) (f : β → PoolLife α) :
    Except PoolLifeFault (PoolLife α) :=
  match x with
  | .ok t => .ok (f t)
  | .error e => .error (.thread e)

def start (s : PoolLife α) (numThreads : ℤ) : Except PoolLifeFault (PoolLife α) :=
  if s.call ≠ .none then .ok s
  else if s.destroyed then .ok s.use
  else if s.threads_ = [] then
    if 0 ≤ numThreads then
      .ok { s with pool := { s.pool with running := true }, call := .start numThreads.toNat }
    else .error .reserve
  else .error .started

/-- The next thread is made and started. -/
def emplace (s : PoolLife α) (left : ℕ) (created : Bool) : Except PoolLifeFault (PoolLife α) :=
  lift ((Thread.ctor (s.threadName s.threads_.length) 0).start created) fun t =>
    { s with
      pool := { s.pool with threads := s.pool.threads ++ [.testRunning] }
      threads_ := s.threads_ ++ [t]
      call := .start left }

/-- The test of the loop of `start`. -/
def startNext (s : PoolLife α) (left : ℕ) (created : Bool) :
    Except PoolLifeFault (PoolLife α) :=
  match left with
  | 0 => .ok { s with call := .none }
  | left + 1 => s.emplace left created

def startGoes (s : PoolLife α) (left : ℕ) (created : Bool) :
    Except PoolLifeFault (PoolLife α) :=
  match s.threads_.getLast? with
  | some t =>
      if t.starting then
        lift t.startGoes fun t' => { s with threads_ := s.threads_.set (s.threads_.length - 1) t' }
      else s.startNext left created
  | none => s.startNext left created

/-- The members go; a thread that waits at `notFull_` is going to use them. -/
def release (s : PoolLife α) : PoolLife α :=
  { s with
    threads_ := s.threads_.map Thread.destroy
    call := .none
    destroyed := true
    dangling := s.dangling || decide (s.pool.notFull.waiters ≠ []) }

/-- The loop of `stop`, and the end of the destructor. -/
def joinGoes (s : PoolLife α) (w : ℕ) (self : Option ℕ) (destroys : Bool) :
    Except PoolLifeFault (PoolLife α) :=
  match s.threads_[w]? with
  | some t =>
      lift (t.step (if t.joining then .joinReturns else .join (self = some w))) fun t' =>
        { s with
          threads_ := s.threads_.set w t'
          call := .join (if t'.joining then w else w + 1) self destroys }
  | none => .ok (if destroys then s.release else { s with call := .none })

def callGoes (s : PoolLife α) (created : Bool) : Except PoolLifeFault (PoolLife α) :=
  match s.call with
  | .none => .ok s
  | .start left => s.startGoes left created
  | .join w self destroys => s.joinGoes w self destroys

/-- The worker runs `runInThread`, and is not in `stop`. -/
def working (s : PoolLife α) (w : ℕ) : Bool :=
  (s.threads_[w]?.any fun t => t.thread = .inFunc) &&
    match s.call with
    | .join _ self _ => decide (self ≠ some w)
    | _ => true

/-- `runInThread` returns when the worker is done. -/
def mayGo (s : PoolLife α) (w : ℕ) : ThreadStep → Bool
  | .writeTid _ | .countDown | .callFunc | .exit | .wake => true
  | .funcEnds threw =>
      match s.pool.threads[w]? with
      | some .finished => !threw
      | _ => false
  | _ => false

def thread (s : PoolLife α) (w : ℕ) (i : ThreadStep) : Except PoolLifeFault (PoolLife α) :=
  match s.threads_[w]? with
  | some t =>
      if s.mayGo w i then lift (t.step i) fun t' => { s with threads_ := s.threads_.set w t' }
      else .ok s
  | none => .ok s

variable [DecidableEq α]

/-- Who makes this step uses a member of the pool. -/
def Uses (s : PoolLife α) : PoolInput α → Prop
  | .run p _ => s.pool.MayRun p.thread
  | .runAgain p _ => s.pool.notFull.Awake p
  | .testRunning w => s.pool.threads[w]? = some .testRunning
  | .take w _ => s.pool.threads[w]? = some .take
  | .takeAgain w _ => s.pool.notEmpty.Awake w
  | _ => False

instance (s : PoolLife α) (i : PoolInput α) : Decidable (s.Uses i) := by
  cases i <;> unfold Uses <;> infer_instance

/-- A worker makes its steps when it is there, and `stop` has inputs of its own. -/
def mayStep (s : PoolLife α) (i : PoolInput α) : Bool :=
  decide (i ≠ .stop) && i.worker?.all s.working

def inPool (s : PoolLife α) (i : PoolInput α) : Except PoolLifeFault (PoolLife α) :=
  if s.mayStep i = false then .ok s
  else if s.destroyed = true ∧ s.Uses i then .ok s.use
  else
    match s.pool.step i with
    | .ok p => .ok { s with pool := p }
    | .error e => .error (.pool e)

/-- A thread that is not in `run`, or a worker in its task. -/
def mayStop (s : PoolLife α) (caller : PoolThread) : Bool :=
  decide (s.pool.MayRun caller) &&
    match caller with
    | .worker w => s.working w
    | .other _ => true

def stop (s : PoolLife α) (self : Option ℕ) (destroys : Bool) : PoolLife α :=
  { s with pool := s.pool.stop, call := .join 0 self destroys }

def step (s : PoolLife α) : PoolLifeInput α → Except PoolLifeFault (PoolLife α)
  | .start numThreads => s.start numThreads
  | .callGoes created => s.callGoes created
  | .thread w i => s.thread w i
  | .pool i => s.inPool i
  | .throws w =>
      if s.working w = true ∧ s.pool.inTask w = true then .error (.thread .exception) else .ok s
  | .stop caller =>
      .ok (if s.call ≠ .none ∨ s.mayStop caller = false then s
        else if s.destroyed then s.use
        else s.stop (match caller with
          | .worker w => some w
          | .other _ => Option.none) false)
  | .destroy =>
      .ok (if s.call ≠ .none then s
        else if s.destroyed then s.use
        else if s.pool.running then s.stop Option.none true
        else s.release)

def machine : Machine (PoolLife α) (PoolLifeInput α) PoolLifeFault := ⟨step⟩

/-! ## What is asked -/

/-- The pool is used well: nothing touches it when it is gone; every `Threadff` is orderly and has
its name; when `start` has returned the workers are on their way into `runInThread`, and when `stop`
has, they are over, and so they are when the pool is gone; nobody is asleep in a pool that has been
stopped; and with a worker the pool keeps what `ThreadPool.Safe` says. -/
structure Orderly (s : PoolLife α) : Prop where
  safe : s.dangling = false
  threads : ∀ t ∈ s.threads_, t.Orderly
  names : ∀ w t, s.threads_[w]? = some t → t.name_ = s.threadName w
  started : s.call = .none → ∀ t ∈ s.threads_, t.thread.hasReleased = true
  stopped : s.call = .none → s.pool.running = false → ∀ t ∈ s.threads_, t.thread = .ended
  gone : s.destroyed = true → s.call = .none ∧ s.pool.running = false
  finished : ∀ (w : ℕ) (t : Thread), s.threads_[w]? = some t → t.thread = .ended →
    s.pool.threads[w]? = some .finished
  awake : s.pool.running = false → s.pool.notEmpty.blocked = [] ∧ s.pool.notFull.blocked = []
  pool : s.threads_ ≠ [] → ThreadPool.Safe.good s.pool

/-- What the assertions, the exceptions and the life of the pool ask for. -/
def Proper (s : PoolLife α) : PoolLifeInput α → Prop
  | .start numThreads => s.call = .none → s.destroyed = false ∧ s.threads_ = [] ∧ 0 ≤ numThreads
  | .callGoes created =>
      match s.call with
      | .none => True
      | .start left => left ≠ 0 → (∀ t ∈ s.threads_.getLast?, t.starting = false) → created = true
      | .join w self destroys =>
          match s.threads_[w]? with
          | some t => t.joining = false → t.Proper (.join (self = some w))
          | none => destroys = true → s.pool.notFull.waiters = []
  | .pool i => s.destroyed = true → s.mayStep i = true → ¬ s.Uses i
  | .throws w => ¬ (s.working w = true ∧ s.pool.inTask w = true)
  | .stop caller => s.call = .none → s.mayStop caller = true → s.destroyed = false
  | .destroy => s.call = .none →
      s.destroyed = false ∧ (s.pool.running = false → s.pool.notFull.waiters = [])
  | .thread _ _ => True

end PoolLife

/-! ## What a step in the pool leaves alone -/

namespace ThreadPool

variable {α : Type} [DecidableEq α]

/-- A worker changes its own place in `threads`, and nobody falls asleep in a pool that has been
stopped. -/
structure Goes (s t : ThreadPool α) (i : PoolInput α) : Prop where
  running : t.running = s.running
  maxQueueSize : t.maxQueueSize = s.maxQueueSize
  threads : t.threads = s.threads ∨ ∃ w p, i.worker? = some w ∧ t.threads = s.threads.set w p
  asleep : s.running = false →
    t.notEmpty.blocked ⊆ s.notEmpty.blocked ∧ t.notFull.blocked ⊆ s.notFull.blocked

omit [DecidableEq α] in
lemma goes_refl (s : ThreadPool α) (i : PoolInput α) : s.Goes s i :=
  ⟨rfl, rfl, Or.inl rfl, fun _ => ⟨List.Subset.refl _, List.Subset.refl _⟩⟩

omit [DecidableEq α] in
lemma run_goes {s t : ThreadPool α} {p : Producer α} {pick : ℕ} (h : s.run p pick = .ok t)
    (i : PoolInput α) : s.Goes t i := by
  unfold run at h
  split at h
  next hwait =>
    cases h
    exact ⟨rfl, rfl, Or.inl rfl, fun hr => absurd (hwait.2.symm.trans hr) (by decide)⟩
  next =>
    split at h
    · cases h
      exact s.goes_refl i
    · obtain ⟨-, -, h⟩ := bind_eq_ok h
      cases h
      exact ⟨rfl, rfl, Or.inl rfl, fun _ =>
        ⟨Condition.blocked_notify_subset, List.Subset.refl _⟩⟩

lemma take_goes (s : ThreadPool α) {w : ℕ} (pick : Producer α) {i : PoolInput α}
    (hi : i.worker? = some w) : s.Goes (s.take w pick) i := by
  unfold take
  by_cases hwait : s.queue = [] ∧ s.running = true
  · rw [if_pos hwait]
    exact ⟨rfl, rfl, Or.inr ⟨w, _, hi, rfl⟩, fun hr =>
      absurd (hwait.2.symm.trans hr) (by decide)⟩
  · rw [if_neg hwait]
    split
    · exact ⟨rfl, rfl, Or.inr ⟨w, _, hi, rfl⟩, fun _ =>
        ⟨List.Subset.refl _, List.Subset.refl _⟩⟩
    · refine ⟨rfl, rfl, Or.inr ⟨w, _, hi, rfl⟩, fun _ => ⟨List.Subset.refl _, ?_⟩⟩
      dsimp only
      split
      · exact Condition.blocked_notify_subset
      · exact List.Subset.refl _

/-- **A step in the pool.** -/
lemma step_goes {s t : ThreadPool α} {i : PoolInput α} (hi : i ≠ .stop) (h : s.step i = .ok t) :
    s.Goes t i := by
  cases i with
  | run p pick =>
    unfold step at h
    dsimp only at h
    split at h
    · exact run_goes h _
    · cases h
      exact s.goes_refl _
  | runAgain p pick =>
    unfold step at h
    dsimp only at h
    split at h
    · have hrun := run_goes (s := { s with notFull := s.notFull.leave p }) h (.runAgain p pick)
      refine ⟨hrun.running, hrun.maxQueueSize, hrun.threads, fun hr => ?_⟩
      obtain ⟨hempty, hfull⟩ := hrun.asleep hr
      exact ⟨hempty, by rwa [Condition.blocked_leave] at hfull⟩
    · cases h
      exact s.goes_refl _
  | take w pick =>
    unfold step at h
    dsimp only at h
    split at h
    · cases h
      exact s.take_goes pick rfl
    · cases h
      exact s.goes_refl _
  | takeAgain w pick =>
    unfold step at h
    dsimp only at h
    split at h
    · cases h
      have htake := take_goes { s with notEmpty := s.notEmpty.leave w } pick
        (i := .takeAgain w pick) rfl
      refine ⟨htake.running, htake.maxQueueSize, htake.threads, fun hr => ?_⟩
      obtain ⟨hempty, hfull⟩ := htake.asleep hr
      exact ⟨by rwa [Condition.blocked_leave] at hempty, hfull⟩
    · cases h
      exact s.goes_refl _
  | testRunning w =>
    unfold step at h
    dsimp only at h
    split at h
    · cases h
      exact ⟨rfl, rfl, Or.inr ⟨w, _, rfl, rfl⟩, fun _ =>
        ⟨List.Subset.refl _, List.Subset.refl _⟩⟩
    · cases h
      exact s.goes_refl _
  | taskReturns w =>
    unfold step at h
    dsimp only at h
    split at h
    · cases h
      exact ⟨rfl, rfl, Or.inr ⟨w, _, rfl, rfl⟩, fun _ =>
        ⟨List.Subset.refl _, List.Subset.refl _⟩⟩
    · cases h
      exact s.goes_refl _
  | wakeProducer p =>
    cases h
    exact ⟨rfl, rfl, Or.inl rfl, fun _ =>
      ⟨List.Subset.refl _, Condition.blocked_wake_subset⟩⟩
  | wakeWorker w =>
    cases h
    exact ⟨rfl, rfl, Or.inl rfl, fun _ =>
      ⟨Condition.blocked_wake_subset, List.Subset.refl _⟩⟩
  | stop => exact absurd rfl hi

end ThreadPool

/-! ## What a step of a worker's thread leaves alone -/

namespace Thread

/-- The thread has gone on by itself. -/
structure Goes (o p : Thread) : Prop where
  name : p.name_ = o.name_
  started : p.started_ = o.started_
  starting : p.starting = o.starting
  joining : p.joining = o.joining
  there : p.destroyed = o.destroyed
  called : o.thread.hasCalled = true → p.thread.hasCalled = true
  ended : o.thread = .ended → p.thread = .ended

lemma goes_refl (o : Thread) : o.Goes o := ⟨rfl, rfl, rfl, rfl, rfl, id, id⟩

/-- The thread goes from one phase to the next, and the object stays as it is. -/
lemma goes_of_phase {o p : Thread} {q : RunPhase} (q' : RunPhase) (ho : o.thread = q)
    (hp : p.thread = q')
    (hsame : p.name_ = o.name_ ∧ p.started_ = o.started_ ∧ p.starting = o.starting ∧
      p.joining = o.joining ∧ p.destroyed = o.destroyed)
    (hq : (q.hasCalled = true → q'.hasCalled = true) ∧ q ≠ .ended) : o.Goes p := by
  obtain ⟨hname, hstarted, hstarting, hjoining, hthere⟩ := hsame
  refine ⟨hname, hstarted, hstarting, hjoining, hthere, ?_, fun h => absurd (ho.symm.trans h) hq.2⟩
  rw [ho, hp]
  exact hq.1

end Thread

namespace PoolLife

variable {α : Type} {s : PoolLife α}

/-- **The thread of a worker goes on**, out of `runInThread` only if that has returned. -/
lemma thread_goes {w : ℕ} {i : ThreadStep} (hi : s.mayGo w i = true) {o p : Thread}
    (h : o.step i = .ok p) :
    o.Goes p ∧ (p.thread = .finished ∨ p.thread = .ended →
      o.thread = .finished ∨ o.thread = .ended ∨ s.pool.threads[w]? = some .finished) ∧
        (o.thread = .inFunc → p.thread = .inFunc ∨ s.pool.threads[w]? = some .finished) := by
  have hsame : o.Goes o ∧ (o.thread = .finished ∨ o.thread = .ended →
      o.thread = .finished ∨ o.thread = .ended ∨ s.pool.threads[w]? = some .finished) ∧
        (o.thread = .inFunc → o.thread = .inFunc ∨ s.pool.threads[w]? = some .finished) :=
    ⟨o.goes_refl, fun h => h.elim Or.inl fun h => Or.inr (Or.inl h), Or.inl⟩
  cases i with
  | writeTid gettid =>
    rw [Thread.step] at h
    cases h
    split
    next hcreated =>
      refine ⟨Thread.goes_of_phase .numbered hcreated.1 rfl ⟨rfl, rfl, rfl, rfl, rfl⟩ (by decide),
        ?_, ?_⟩
      · rintro (h | h) <;> cases h
      · rw [hcreated.1]
        exact fun h => RunPhase.noConfusion h
    next => exact hsame
  | countDown =>
    rw [Thread.step, Thread.countDown] at h
    split at h
    next hphase =>
      split at h
      next =>
        cases h
        refine ⟨Thread.goes_of_phase .released hphase rfl ⟨rfl, rfl, rfl, rfl, rfl⟩ (by decide),
          ?_, ?_⟩
        · rintro (h | h) <;> cases h
        · rw [hphase]
          exact fun h => RunPhase.noConfusion h
      next => cases h
    next =>
      cases h
      exact hsame
  | callFunc =>
    rw [Thread.step, Thread.callFunc] at h
    cases h
    split
    next hphase =>
      refine ⟨Thread.goes_of_phase .inFunc hphase rfl ⟨rfl, rfl, rfl, rfl, rfl⟩ (by decide), ?_, ?_⟩
      · rintro (h | h) <;> cases h
      · rw [hphase]
        exact fun h => RunPhase.noConfusion h
    next => exact hsame
  | exit =>
    rw [Thread.step] at h
    cases h
    split
    next hphase =>
      refine ⟨Thread.goes_of_phase .ended hphase rfl ⟨rfl, rfl, rfl, rfl, rfl⟩ (by decide),
        fun _ => Or.inl hphase, ?_⟩
      rw [hphase]
      exact fun h => RunPhase.noConfusion h
    next => exact hsame
  | wake =>
    cases h
    exact ⟨⟨rfl, rfl, rfl, rfl, rfl, id, id⟩, hsame.2⟩
  | funcEnds threw =>
    have hfinished : s.pool.threads[w]? = some .finished ∧ threw = false := by
      unfold mayGo at hi
      dsimp only at hi
      split at hi
      next hphase => exact ⟨hphase, by rwa [Bool.not_eq_true'] at hi⟩
      next => cases hi
    obtain ⟨hphase, rfl⟩ := hfinished
    rw [Thread.step, Thread.funcEnds] at h
    split at h
    next hthread =>
      rw [if_neg Bool.false_ne_true] at h
      cases h
      exact ⟨Thread.goes_of_phase .finished hthread rfl ⟨rfl, rfl, rfl, rfl, rfl⟩ (by decide),
        fun _ => Or.inr (Or.inr hphase), fun _ => Or.inr hphase⟩
    next =>
      cases h
      exact hsame
  | start created => cases hi
  | startGoes => cases hi
  | join self => cases hi
  | joinReturns => cases hi
  | destroy => cases hi

/-! ## The invariant -/

/-- A worker is in the pool while its thread is in `runInThread`. -/
structure Linked (t : Thread) (p : WorkerPhase α) : Prop where
  before : t.thread.hasCalled = false → p = .testRunning
  after : t.thread = .finished ∨ t.thread = .ended → p = .finished

lemma linked_of_inFunc {t : Thread} (h : t.thread = .inFunc) (p : WorkerPhase α) : Linked t p where
  before hf := by
    rw [h] at hf
    cases hf
  after hf := by
    rw [h] at hf
    rcases hf with hf | hf <;> cases hf

structure Workers (s : PoolLife α) : Prop where
  length : s.pool.threads.length = s.threads_.length
  inv : ∀ t ∈ s.threads_, t.Inv
  started : ∀ t ∈ s.threads_, t.started_ = true
  names : ∀ (w : ℕ) (t : Thread), s.threads_[w]? = some t → t.name_ = s.threadName w
  linked : ∀ (w : ℕ) (t : Thread) (p : WorkerPhase α), s.threads_[w]? = some t →
    s.pool.threads[w]? = some p → Linked t p

/-- Nobody is in `start`, `stop` or the destructor. -/
structure Resting (s : PoolLife α) : Prop where
  threads : ∀ t ∈ s.threads_, t.starting = false ∧ t.joining = false ∧ t.destroyed = s.destroyed
  stopped : s.pool.running = false → ∀ t ∈ s.threads_, t.thread = .ended
  gone : s.destroyed = true → s.pool.running = false ∧ s.pool.notFull.waiters = []

structure InStart (s : PoolLife α) : Prop where
  running : s.pool.running = true
  there : s.destroyed = false
  threads : ∀ t ∈ s.threads_, t.joining = false ∧ t.destroyed = false
  returned : ∀ (i : ℕ) (t : Thread), s.threads_[i]? = some t → i + 1 < s.threads_.length →
    t.starting = false

/-- In `stop`, at thread `w`: those before it are over. -/
structure InStop (s : PoolLife α) (w : ℕ) (worker : Option ℕ) : Prop where
  stopped : s.pool.running = false
  there : s.destroyed = false
  threads : ∀ t ∈ s.threads_, t.starting = false ∧ t.destroyed = false
  joined : ∀ (i : ℕ) (t : Thread), s.threads_[i]? = some t → i < w → t.thread = .ended
  joining : ∀ (i : ℕ) (t : Thread), s.threads_[i]? = some t → i ≠ w → t.joining = false
  caller : ∀ v, worker = some v → s.pool.inTask v = true ∧
    ∃ t, s.threads_[v]? = some t ∧ t.thread = .inFunc

def Calling (s : PoolLife α) : PoolCall → Prop
  | .none => s.Resting
  | .start _ => s.InStart
  | .join w self _ => s.InStop w self

/-- Before `start`, the pool is as it was made. -/
def AsMade (p : ThreadPool α) : Prop :=
  p = { ThreadPool.start 0 p.maxQueueSize with running := p.running }

structure Inv (s : PoolLife α) : Prop where
  workers : s.Workers
  call : s.Calling s.call
  pool : s.threads_ ≠ [] → s.pool.Inv 0
  made : s.threads_ = [] → AsMade s.pool
  awake : s.pool.running = false → s.pool.notEmpty.blocked = [] ∧ s.pool.notFull.blocked = []
  safe : s.dangling = false

lemma ctor_inv (name : Bytes) (maxQueueSize : ℕ) : (ctor name maxQueueSize : PoolLife α).Inv where
  workers :=
    { length := rfl
      inv := fun _ h => absurd h List.not_mem_nil
      started := fun _ h => absurd h List.not_mem_nil
      names := fun _ _ h => by cases h
      linked := fun _ _ _ h => by cases h }
  call :=
    { threads := fun _ h => absurd h List.not_mem_nil
      stopped := fun _ _ h => absurd h List.not_mem_nil
      gone := fun h => absurd h Bool.false_ne_true }
  pool h := absurd rfl h
  made _ := rfl
  awake _ := ⟨rfl, rfl⟩
  safe := rfl

lemma Inv.orderly (h : s.Inv) : s.Orderly where
  safe := h.safe
  threads t ht := (h.workers.inv t ht).orderly
  names := h.workers.names
  started hcall t ht := by
    have hrest : s.Resting := by
      have hcalling := h.call
      rwa [hcall] at hcalling
    exact (h.workers.inv t ht).returned (h.workers.started t ht) (hrest.threads t ht).1
  stopped hcall := by
    have hcalling := h.call
    rw [hcall] at hcalling
    exact hcalling.stopped
  gone hdestroyed := by
    have hcalling := h.call
    cases hcall : s.call with
    | none =>
      rw [hcall] at hcalling
      exact ⟨rfl, (hcalling.gone hdestroyed).1⟩
    | start left =>
      rw [hcall] at hcalling
      have hthere := (show s.InStart from hcalling).there
      exact absurd (hthere.symm.trans hdestroyed) (by decide)
    | join w self destroys =>
      rw [hcall] at hcalling
      have hthere := (show s.InStop w self from hcalling).there
      exact absurd (hthere.symm.trans hdestroyed) (by decide)
  finished w t ht hended := by
    have hlt : w < s.pool.threads.length := by
      rw [h.workers.length]
      exact (List.getElem?_eq_some_iff.mp ht).1
    have hphase := List.getElem?_eq_getElem hlt
    rw [hphase, (h.workers.linked w t _ ht hphase).after (Or.inr hended)]
  awake := h.awake
  pool hne := by
    have hinv := h.pool hne
    exact ⟨hinv.conserved, hinv.bounded, hinv.tasks,
      fun hr hroom _ hp => hinv.notified_other hr hroom hp⟩

/-! ## One thread goes on -/

/-- What is in a list when one place has been set. -/
lemma getElem?_set_cases {β : Type} {l : List β} {w v : ℕ} {x y : β}
    (h : (l.set w x)[v]? = some y) : v = w ∧ y = x ∨ v ≠ w ∧ l[v]? = some y := by
  rw [List.getElem?_set] at h
  split at h
  next heq =>
    split at h
    · exact Or.inl ⟨heq.symm, (Option.some.inj h).symm⟩
    · cases h
  next hne => exact Or.inr ⟨fun heq => hne heq.symm, h⟩

/-- A thread is replaced, with the same name. -/
lemma Workers.set (h : s.Workers) {w : ℕ} {o p : Thread} (ho : s.threads_[w]? = some o)
    (hp : p.Inv) (hname : p.name_ = o.name_) (hstarted : p.started_ = o.started_)
    (hlinked : ∀ q, s.pool.threads[w]? = some q → Linked p q) (c : PoolCall) :
    Workers { s with threads_ := s.threads_.set w p, call := c } where
  length := by
    rw [List.length_set]
    exact h.length
  inv t ht := by
    rcases List.mem_or_eq_of_mem_set ht with ht | rfl
    · exact h.inv t ht
    · exact hp
  started t ht := by
    rcases List.mem_or_eq_of_mem_set ht with ht | rfl
    · exact h.started t ht
    · rw [hstarted]
      exact h.started o (List.mem_of_getElem? ho)
  names v t ht := by
    rcases getElem?_set_cases ht with ⟨rfl, rfl⟩ | ⟨-, ht⟩
    · rw [hname]
      exact h.names v o ho
    · exact h.names v t ht
  linked v t q ht hq := by
    rcases getElem?_set_cases ht with ⟨rfl, rfl⟩ | ⟨-, ht⟩
    · exact hlinked q hq
    · exact h.linked v t q ht hq

/-- The parts of the invariant that do not look at the threads. -/
lemma Inv.set (h : s.Inv) {w : ℕ} {o p : Thread} (ho : s.threads_[w]? = some o) {c : PoolCall}
    (hworkers : Workers { s with threads_ := s.threads_.set w p, call := c })
    (hcall : Calling { s with threads_ := s.threads_.set w p, call := c } c) :
    Inv { s with threads_ := s.threads_.set w p, call := c } where
  workers := hworkers
  call := hcall
  pool _ := h.pool (List.ne_nil_of_mem (List.mem_of_getElem? ho))
  made hnil := by
    have hlen := congrArg List.length hnil
    rw [List.length_set] at hlen
    exact absurd (List.eq_nil_of_length_eq_zero hlen)
      (List.ne_nil_of_mem (List.mem_of_getElem? ho))
  awake := h.awake
  safe := h.safe

/-- **A thread that goes on** leaves `call` what it relies on. -/
lemma Calling.set {c : PoolCall} (h : s.Calling c) {w : ℕ} {o p : Thread}
    (ho : s.threads_[w]? = some o) (hgoes : o.Goes p)
    (hfunc : o.thread = .inFunc → p.thread = .inFunc ∨ s.pool.threads[w]? = some .finished) :
    Calling { s with threads_ := s.threads_.set w p } c := by
  have hmem := List.mem_of_getElem? ho
  cases c with
  | none =>
    have hrest : s.Resting := h
    refine Resting.mk (fun t ht => ?_) (fun hr t ht => ?_) hrest.gone
    · rcases List.mem_or_eq_of_mem_set ht with ht | rfl
      · exact hrest.threads t ht
      · rw [hgoes.starting, hgoes.joining, hgoes.there]
        exact hrest.threads o hmem
    · rcases List.mem_or_eq_of_mem_set ht with ht | rfl
      · exact hrest.stopped hr t ht
      · exact hgoes.ended (hrest.stopped hr o hmem)
  | start left =>
    have hstart : s.InStart := h
    refine InStart.mk hstart.running hstart.there (fun t ht => ?_) (fun i t ht hlt => ?_)
    · rcases List.mem_or_eq_of_mem_set ht with ht | rfl
      · exact hstart.threads t ht
      · rw [hgoes.joining, hgoes.there]
        exact hstart.threads o hmem
    · dsimp only at hlt
      rw [List.length_set] at hlt
      rcases getElem?_set_cases ht with ⟨rfl, rfl⟩ | ⟨-, ht⟩
      · rw [hgoes.starting]
        exact hstart.returned i o ho hlt
      · exact hstart.returned i t ht hlt
  | join v self destroys =>
    have hstop : s.InStop v self := h
    refine InStop.mk hstop.stopped hstop.there (fun t ht => ?_) (fun i t ht hlt => ?_)
      (fun i t ht hne => ?_) (fun u hu => ?_)
    · rcases List.mem_or_eq_of_mem_set ht with ht | rfl
      · exact hstop.threads t ht
      · rw [hgoes.starting, hgoes.there]
        exact hstop.threads o hmem
    · rcases getElem?_set_cases ht with ⟨rfl, rfl⟩ | ⟨-, ht⟩
      · exact hgoes.ended (hstop.joined i o ho hlt)
      · exact hstop.joined i t ht hlt
    · rcases getElem?_set_cases ht with ⟨rfl, rfl⟩ | ⟨-, ht⟩
      · rw [hgoes.joining]
        exact hstop.joining i o ho hne
      · exact hstop.joining i t ht hne
    · obtain ⟨htask, t, ht, hthread⟩ := hstop.caller u hu
      refine ⟨htask, ?_⟩
      by_cases huw : u = w
      · rw [huw, ho] at ht
        cases ht
        refine ⟨p, ?_, ?_⟩
        · rw [huw]
          exact List.getElem?_set_self (List.getElem?_eq_some_iff.mp ho).1
        · refine (hfunc hthread).resolve_right fun hphase => ?_
          rw [huw, ThreadPool.inTask, hphase] at htask
          cases htask
      · exact ⟨t, (List.getElem?_set_ne (Ne.symm huw)).trans ht, hthread⟩

/-- The pool and its threads keep what they promise, nothing of its history is taken back, and the
process goes on. -/
def Living [DecidableEq α] : RunSpec (PoolLife α) PoolLifeFault where
  good := Orderly
  move s t := s.pool.Extends t.pool
  stop _ := False

variable [DecidableEq α]

omit [DecidableEq α] in
lemma Inv.thread (h : s.Inv) (w : ℕ) (i : ThreadStep) :
    ∃ t, s.thread w i = .ok t ∧ t.Inv ∧ t.pool = s.pool := by
  unfold PoolLife.thread
  split
  next o ho =>
    split
    next hgo =>
      have hproper : o.Proper i := by
        unfold mayGo at hgo
        cases i with
        | funcEnds threw =>
          intro _
          dsimp only at hgo
          split at hgo
          · rwa [Bool.not_eq_true'] at hgo
          · cases hgo
        | writeTid | countDown | callFunc | exit | wake => trivial
        | start | startGoes | join | joinReturns | destroy => cases hgo
      obtain ⟨p, hp, hinv, hkeeps⟩ :=
        Thread.step_comes (h.workers.inv o (List.mem_of_getElem? ho)) hproper
      obtain ⟨hgoes, hover, hfunc⟩ := thread_goes hgo hp
      rw [hp]
      refine ⟨_, rfl, h.set ho (h.workers.set ho hinv hkeeps.name hgoes.started (fun q hq => ?_) _)
        (h.call.set ho hgoes hfunc), rfl⟩
      have hlinked := h.workers.linked w o q ho hq
      refine ⟨fun hnot => hlinked.before ?_, fun hp' => ?_⟩
      · by_contra hcalled
        rw [hgoes.called (Bool.not_eq_false _ ▸ hcalled)] at hnot
        cases hnot
      · rcases hover hp' with ho' | ho' | hphase
        · exact hlinked.after (Or.inl ho')
        · exact hlinked.after (Or.inr ho')
        · exact Option.some.inj (hq.symm.trans hphase)
    next => exact ⟨s, rfl, h, rfl⟩
  next => exact ⟨s, rfl, h, rfl⟩

/-! ## A step in the pool -/

/-- Before `start` there is nothing in the pool to go on. -/
lemma asMade_step {p : ThreadPool α} (hp : AsMade p) {i : PoolInput α} (hi : i ≠ .stop) :
    p.step i = .ok p := by
  have hthreads : p.threads = [] := by
    rw [AsMade] at hp
    rw [hp]
    rfl
  have hfull : p.notFull = .empty := by
    rw [AsMade] at hp
    rw [hp]
    rfl
  have hempty : p.notEmpty = .empty := by
    rw [AsMade] at hp
    rw [hp]
    rfl
  have hnobody {θ : Type} (t : θ) : ¬ (Condition.empty : Condition θ).Awake t := by
    rintro (h | h) <;> exact absurd h List.not_mem_nil
  cases i with
  | run q pick => exact if_neg fun h => h.2 hthreads
  | runAgain q pick => rw [ThreadPool.step, if_neg (hfull ▸ hnobody q)]
  | takeAgain w pick => rw [ThreadPool.step, if_neg (hempty ▸ hnobody w)]
  | taskReturns w =>
    refine if_neg fun h => ?_
    have htask := h.2 w rfl
    rw [ThreadPool.inTask, hthreads] at htask
    cases htask
  | wakeProducer q =>
    have hwake : p.notFull.wake q = p.notFull := by
      rw [hfull]
      rfl
    rw [ThreadPool.step, hwake]
  | wakeWorker w =>
    have hwake : p.notEmpty.wake w = p.notEmpty := by
      rw [hempty]
      rfl
    rw [ThreadPool.step, hwake]
  | testRunning w =>
    refine if_neg fun h => ?_
    rw [hthreads] at h
    cases h
  | take w pick =>
    refine if_neg fun h => ?_
    rw [hthreads] at h
    cases h
  | stop => exact absurd rfl hi

/-- The pool goes on, and `runInThread` of a worker that may be in it with it. -/
lemma Inv.pool_goes (h : s.Inv) {i : PoolInput α} (hmay : s.mayStep i = true) {p : ThreadPool α}
    (hgoes : s.pool.Goes p i) (hpool : s.threads_ ≠ [] → p.Inv 0)
    (hmade : s.threads_ = [] → AsMade p)
    (hwaiters : s.destroyed = true → s.pool.notFull.waiters = [] → p.notFull.waiters = []) :
    Inv { s with pool := p } := by
  obtain ⟨-, hworker⟩ := Bool.and_eq_true_iff.mp hmay
  have hlength : p.threads.length = s.pool.threads.length := by
    rcases hgoes.threads with heq | ⟨w, q, -, heq⟩
    · rw [heq]
    · rw [heq, List.length_set]
  have hworking : ∀ w, i.worker? = some w → s.working w = true := by
    intro w hw
    rw [hw] at hworker
    exact hworker
  -- A phase that has changed is that of a worker whose thread is in `runInThread`.
  have hphase : ∀ (v : ℕ) (q : WorkerPhase α), p.threads[v]? = some q →
      s.pool.threads[v]? = some q ∨ s.working v = true := by
    intro v q hq
    rcases hgoes.threads with heq | ⟨w, q', hw, heq⟩
    · exact Or.inl (heq ▸ hq)
    · rw [heq] at hq
      rcases getElem?_set_cases hq with ⟨rfl, -⟩ | ⟨-, hq⟩
      · exact Or.inr (hworking v hw)
      · exact Or.inl hq
  refine ⟨⟨hlength.trans h.workers.length, h.workers.inv, h.workers.started, h.workers.names,
    fun v t q ht hq => ?_⟩, ?_, hpool, hmade, fun hr => ?_, h.safe⟩
  · rcases hphase v q hq with hq | hv
    · exact h.workers.linked v t q ht hq
    · refine linked_of_inFunc ?_ q
      unfold working at hv
      rw [ht, Bool.and_eq_true_iff] at hv
      exact of_decide_eq_true hv.1
  · have hcalling := h.call
    show Calling { s with pool := p } s.call
    cases hcall : s.call with
    | none =>
      rw [hcall] at hcalling
      have hrest : s.Resting := hcalling
      refine Resting.mk hrest.threads (fun hr => hrest.stopped (hgoes.running ▸ hr)) fun hd => ?_
      obtain ⟨hr, hw⟩ := hrest.gone hd
      exact ⟨hgoes.running.trans hr, hwaiters hd hw⟩
    | start left =>
      rw [hcall] at hcalling
      have hstart : s.InStart := hcalling
      exact ⟨hgoes.running.trans hstart.running, hstart.there, hstart.threads, hstart.returned⟩
    | join w self destroys =>
      rw [hcall] at hcalling
      have hstop : s.InStop w self := hcalling
      refine ⟨hgoes.running.trans hstop.stopped, hstop.there, hstop.threads, hstop.joined,
        hstop.joining, fun v hv => ?_⟩
      obtain ⟨htask, hthread⟩ := hstop.caller v hv
      refine ⟨?_, hthread⟩
      have hidle : s.working v = false := by
        unfold working
        rw [hcall, hv]
        simp
      have hsame : p.threads[v]? = s.pool.threads[v]? := by
        rcases hgoes.threads with heq | ⟨u, q, hu, heq⟩
        · rw [heq]
        · rw [heq, List.getElem?_set_ne]
          rintro rfl
          exact Bool.false_ne_true (hidle.symm.trans (hworking u hu))
      rw [ThreadPool.inTask, hsame]
      exact htask
  · obtain ⟨hempty, hfull⟩ := h.awake (hgoes.running ▸ hr)
    obtain ⟨hempty', hfull'⟩ := hgoes.asleep (hgoes.running ▸ hr)
    rw [hempty] at hempty'
    rw [hfull] at hfull'
    exact ⟨List.subset_nil.mp hempty', List.subset_nil.mp hfull'⟩

/-- Who does not use a member of a pool that is gone leaves its waiters alone. -/
lemma waiters_of_not_uses {i : PoolInput α} (hi : i ≠ .stop) (huses : ¬ s.Uses i)
    {p : ThreadPool α} (h : s.pool.step i = .ok p) :
    p.notFull.waiters.Perm s.pool.notFull.waiters := by
  cases i with
  | run q pick =>
    have hnot : ¬ (s.pool.MayRun q.thread ∧ s.pool.threads ≠ []) := fun hf => huses hf.1
    rw [ThreadPool.step, if_neg hnot] at h
    cases h
    exact .refl _
  | runAgain q pick =>
    have hsame : s.pool.step (.runAgain q pick) = .ok s.pool := if_neg huses
    rw [hsame] at h
    cases h
    exact .refl _
  | takeAgain w pick =>
    have hsame : s.pool.step (.takeAgain w pick) = .ok s.pool := if_neg huses
    rw [hsame] at h
    cases h
    exact .refl _
  | take w pick =>
    have hsame : s.pool.step (.take w pick) = .ok s.pool := if_neg huses
    rw [hsame] at h
    cases h
    exact .refl _
  | testRunning w =>
    have hsame : s.pool.step (.testRunning w) = .ok s.pool := if_neg huses
    rw [hsame] at h
    cases h
    exact .refl _
  | taskReturns w =>
    rw [ThreadPool.step] at h
    split at h <;> cases h <;> exact .refl _
  | wakeProducer q =>
    cases h
    exact s.pool.notFull.wake_waiters q
  | wakeWorker w =>
    cases h
    exact .refl _
  | stop => exact absurd rfl hi

lemma Inv.inPool (h : s.Inv) {i : PoolInput α} (hi : s.Proper (.pool i)) :
    Living.Sound Inv s (s.inPool i) := by
  unfold PoolLife.inPool
  split
  next => exact ⟨h, .refl _⟩
  next hmay =>
    have hmay : s.mayStep i = true := Bool.not_eq_false _ ▸ hmay
    have hne : i ≠ .stop := of_decide_eq_true (Bool.and_eq_true_iff.mp hmay).1
    have huses : ¬ (s.destroyed = true ∧ s.Uses i) := fun hf => hi hf.1 hmay hf.2
    rw [if_neg huses]
    have hwaiters {p : ThreadPool α} (hp : s.pool.step i = .ok p) (hd : s.destroyed = true)
        (hnil : s.pool.notFull.waiters = []) : p.notFull.waiters = [] := by
      have hperm := waiters_of_not_uses hne (hi hd hmay) hp
      rw [hnil] at hperm
      exact hperm.eq_nil
    by_cases hnil : s.threads_ = []
    · have hp := asMade_step (h.made hnil) hne
      rw [hp]
      exact ⟨h.pool_goes hmay (s.pool.goes_refl i) h.pool h.made (hwaiters hp), .refl _⟩
    · obtain ⟨p, hp, hinv⟩ := ThreadPool.step_inv (h.pool hnil) i
      rw [hp]
      exact ⟨h.pool_goes hmay (ThreadPool.step_goes hne hp) (fun _ => hinv)
        (fun hf => absurd hf hnil) (hwaiters hp), ThreadPool.step_extends hp⟩

/-! ## `start` -/

omit [DecidableEq α] in
lemma threadName_ne_nil (s : PoolLife α) (w : ℕ) : s.threadName w ≠ [] := by
  refine List.append_ne_nil_of_right_ne_nil _ ?_
  rw [snprintf]
  exact List.cons_ne_nil _ _

lemma Inv.start (h : s.Inv) {numThreads : ℤ} (hi : s.Proper (.start numThreads)) :
    Living.Sound Inv s (s.start numThreads) := by
  unfold PoolLife.start
  split
  next => exact ⟨h, .refl _⟩
  next hcall =>
    have hcall : s.call = .none := not_not.mp hcall
    obtain ⟨hthere, hnil, hnum⟩ := hi hcall
    rw [if_neg (by rw [hthere]; decide), if_pos hnil, if_pos hnum]
    have hmade : AsMade { s.pool with running := true } := by
      have hp := h.made hnil
      rw [AsMade] at hp
      rw [AsMade, hp]
      rfl
    refine ⟨⟨⟨h.workers.length, h.workers.inv, h.workers.started, h.workers.names,
      h.workers.linked⟩, ?_, fun hne => absurd hnil hne, fun _ => hmade,
      fun hr => Bool.noConfusion hr, h.safe⟩, .refl _⟩
    refine InStart.mk rfl hthere (fun t ht => ?_) fun i t ht => ?_
    · dsimp only at ht
      rw [hnil] at ht
      exact absurd ht List.not_mem_nil
    · dsimp only at ht
      rw [hnil] at ht
      cases ht

omit [DecidableEq α] in
/-- A worker comes into the pool. -/
lemma pool_emplace {p : ThreadPool α} (h : p.Inv 0) :
    ({ p with threads := p.threads ++ [.testRunning] } : ThreadPool α).Inv 0 where
  conserved := h.conserved
  bounded := h.bounded
  limited := h.limited
  slots := h.slots
  producers := h.producers
  workers := h.workers
  waiting w hw := by
    have hwaiting := h.waiting w hw
    exact (List.getElem?_append_left (List.getElem?_eq_some_iff.mp hwaiting).1).trans hwaiting
  nonempty := by
    rw [List.length_append]
    exact Nat.add_pos_left h.nonempty _
  tasks hr hq := by
    obtain ⟨w, hlt, hw⟩ := h.tasks hr hq
    refine ⟨w, ?_, hw⟩
    rw [List.length_append]
    exact Nat.lt_add_right _ hlt

omit [DecidableEq α] in
lemma pool_emplace_first {p : ThreadPool α} (hp : AsMade p) (hr : p.running = true) :
    ({ p with threads := p.threads ++ [.testRunning] } : ThreadPool α).Inv 0 := by
  rw [AsMade, hr] at hp
  rw [hp]
  exact ThreadPool.start_inv Nat.one_pos p.maxQueueSize

lemma Inv.emplace (h : s.Inv) (hstart : s.InStart)
    (hback : ∀ t ∈ s.threads_.getLast?, t.starting = false) (left : ℕ) :
    Living.Sound Inv s (s.emplace left true) := by
  have hproper : (Thread.ctor (s.threadName s.threads_.length) 0).Proper (.start true) :=
    ⟨rfl, rfl, rfl⟩
  obtain ⟨t, ht, hinv, hkeeps⟩ := (Thread.ctor_inv _ 0).start hproper
  have hname : t.name_ = s.threadName s.threads_.length := by
    rw [hkeeps.name]
    exact if_neg (s.threadName_ne_nil _)
  have heq : t = { Thread.ctor (s.threadName s.threads_.length) 0 with
      started_ := true, starting := true, thread := .created } := by
    cases ht
    rfl
  have hget {β : Type} {l : List β} {x y : β} {w : ℕ} (hw : (l ++ [x])[w]? = some y) :
      w < l.length ∧ l[w]? = some y ∨ w = l.length ∧ y = x := by
    rw [List.getElem?_append] at hw
    split at hw
    next hlt => exact Or.inl ⟨hlt, hw⟩
    next hge =>
      have hlt := (List.getElem?_eq_some_iff.mp hw).1
      rw [List.length_singleton] at hlt
      have hzero : w - l.length = 0 := by omega
      rw [hzero] at hw
      exact Or.inr ⟨by omega, (Option.some.inj hw).symm⟩
  unfold PoolLife.emplace
  rw [ht]
  refine ⟨⟨⟨?_, fun o ho => ?_, fun o ho => ?_, fun w o ho => ?_, fun w o q ho hq => ?_⟩, ?_,
    fun _ => ?_, fun hnil => ?_, fun hr => ?_, h.safe⟩, .refl _⟩
  · simp only [List.length_append, List.length_singleton, h.workers.length]
  · rcases List.mem_append.mp ho with ho | ho
    · exact h.workers.inv o ho
    · rw [List.mem_singleton.mp ho]
      exact hinv
  · rcases List.mem_append.mp ho with ho | ho
    · exact h.workers.started o ho
    · rw [List.mem_singleton.mp ho, heq]
  · rcases hget ho with ⟨-, ho⟩ | ⟨rfl, rfl⟩
    · exact h.workers.names w o ho
    · exact hname
  · rcases hget ho with ⟨hlt, ho⟩ | ⟨hw, rfl⟩
    · rcases hget hq with ⟨-, hq⟩ | ⟨hw', -⟩
      · exact h.workers.linked w o q ho hq
      · rw [h.workers.length] at hw'
        omega
    · rcases hget hq with ⟨hlt, -⟩ | ⟨-, rfl⟩
      · rw [h.workers.length] at hlt
        omega
      · refine ⟨fun _ => rfl, fun hover => ?_⟩
        rw [heq] at hover
        rcases hover with hf | hf <;> cases hf
  · refine InStart.mk hstart.running hstart.there (fun o ho => ?_) fun i o ho hlt => ?_
    · rcases List.mem_append.mp ho with ho | ho
      · exact hstart.threads o ho
      · rw [List.mem_singleton.mp ho, heq]
        exact ⟨rfl, rfl⟩
    · dsimp only at hlt
      rw [List.length_append, List.length_singleton] at hlt
      rcases hget ho with ⟨hlt', ho⟩ | ⟨hi, -⟩
      · by_cases hlast : i + 1 < s.threads_.length
        · exact hstart.returned i o ho hlast
        · refine hback o ?_
          rw [List.getLast?_eq_getElem?]
          have hi : s.threads_.length - 1 = i := by omega
          rw [hi]
          exact ho
      · omega
  · by_cases hnil : s.threads_ = []
    · exact pool_emplace_first (h.made hnil) hstart.running
    · exact pool_emplace (h.pool hnil)
  · exact absurd (List.append_eq_nil_iff.mp hnil).2 (List.cons_ne_nil _ _)
  · exact absurd (hstart.running.symm.trans hr) (by decide)

/-- `start` returns, or makes the next thread, when that before it is on its way. -/
lemma Inv.startNext (h : s.Inv) (hstart : s.InStart)
    (hback : ∀ t ∈ s.threads_.getLast?, t.starting = false) {left : ℕ} {created : Bool}
    (hcreated : left ≠ 0 → created = true) :
    Living.Sound Inv s (s.startNext left created) := by
  cases left with
  | zero =>
    refine ⟨⟨⟨h.workers.length, h.workers.inv, h.workers.started, h.workers.names,
      h.workers.linked⟩, ?_, h.pool, h.made, h.awake, h.safe⟩, .refl _⟩
    refine Resting.mk (fun t ht => ?_) (fun hr => ?_) fun hd => ?_
    · obtain ⟨hjoining, hthere⟩ := hstart.threads t ht
      refine ⟨?_, hjoining, hthere.trans hstart.there.symm⟩
      obtain ⟨i, hi⟩ := List.mem_iff_getElem?.mp ht
      by_cases hlast : i + 1 < s.threads_.length
      · exact hstart.returned i t hi hlast
      · have hlt := (List.getElem?_eq_some_iff.mp hi).1
        refine hback t ?_
        rw [List.getLast?_eq_getElem?]
        dsimp only at hlt
        have hi' : s.threads_.length - 1 = i := by omega
        rw [hi']
        exact hi
    · exact absurd (hstart.running.symm.trans hr) (by decide)
    · exact absurd (hstart.there.symm.trans hd) (by decide)
  | succ left =>
    rw [hcreated (Nat.succ_ne_zero left)]
    exact h.emplace hstart hback left

omit [DecidableEq α] in
/-- `Threadff::start` goes on, and with it nothing but the latch and the end of the call. -/
lemma startGoes_same {o p : Thread} (h : o.startGoes = .ok p) :
    p.started_ = o.started_ ∧ p.joining = o.joining ∧ p.destroyed = o.destroyed ∧
      p.thread = o.thread := by
  unfold Thread.startGoes at h
  split at h
  · dsimp only at h
    split at h
    · cases h
      exact ⟨rfl, rfl, rfl, rfl⟩
    · split at h <;> cases h
      exact ⟨rfl, rfl, rfl, rfl⟩
  · cases h
    exact ⟨rfl, rfl, rfl, rfl⟩

lemma Inv.startGoes (h : s.Inv) {left : ℕ} (hcall : s.call = .start left) {created : Bool}
    (hi : s.Proper (.callGoes created)) : Living.Sound Inv s (s.startGoes left created) := by
  have hstart : s.InStart := by
    have hcalling := h.call
    rwa [hcall] at hcalling
  unfold Proper at hi
  rw [hcall] at hi
  have hcreated : left ≠ 0 → (∀ t ∈ s.threads_.getLast?, t.starting = false) → created = true := hi
  unfold PoolLife.startGoes
  split
  next o ho =>
    split
    next hstarting =>
      have hget : s.threads_[s.threads_.length - 1]? = some o := by
        rw [← List.getLast?_eq_getElem?]
        exact ho
      have hmem := List.mem_of_getElem? hget
      obtain ⟨p, hp, hinv, hkeeps⟩ := (h.workers.inv o hmem).startGoes
      obtain ⟨hstarted, hjoining, hthere, hthread⟩ := startGoes_same hp
      rw [hp]
      refine ⟨h.set hget (h.workers.set hget hinv hkeeps.name hstarted (fun q hq => ?_) _) ?_,
        .refl _⟩
      · have hlinked := h.workers.linked _ o q hget hq
        exact ⟨fun hf => hlinked.before (hthread ▸ hf), fun hf => hlinked.after (hthread ▸ hf)⟩
      · show Calling { s with threads_ := s.threads_.set (s.threads_.length - 1) p } s.call
        rw [hcall]
        refine InStart.mk hstart.running hstart.there (fun t ht => ?_) fun i t ht hlt => ?_
        · rcases List.mem_or_eq_of_mem_set ht with ht | rfl
          · exact hstart.threads t ht
          · rw [hjoining, hthere]
            exact hstart.threads o hmem
        · dsimp only at hlt
          rw [List.length_set] at hlt
          rcases getElem?_set_cases ht with ⟨hlast, -⟩ | ⟨-, ht⟩
          · omega
          · exact hstart.returned i t ht hlt
    next hstarting =>
      have hback : ∀ t ∈ s.threads_.getLast?, t.starting = false := by
        intro t ht
        rw [ho] at ht
        cases ht
        exact Bool.eq_false_iff.mpr hstarting
      exact h.startNext hstart hback fun hne => hcreated hne hback
  next hnone =>
    have hback : ∀ t ∈ s.threads_.getLast?, t.starting = false := by
      intro t ht
      rw [hnone] at ht
      cases ht
    exact h.startNext hstart hback fun hne => hcreated hne hback

/-! ## `stop` and the destructor -/

/-- `stop()`, up to the loop of joins. -/
lemma Inv.stop (h : s.Inv) (hcall : s.call = .none) (hthere : s.destroyed = false)
    {self : Option ℕ} {destroys : Bool} (hself : ∀ v, self = some v → s.pool.inTask v = true ∧
      ∃ t, s.threads_[v]? = some t ∧ t.thread = .inFunc) :
    Living.Sound Inv s (.ok (s.stop self destroys)) := by
  have hrest : s.Resting := by
    have hcalling := h.call
    rwa [hcall] at hcalling
  refine ⟨⟨⟨h.workers.length, h.workers.inv, h.workers.started, h.workers.names,
    h.workers.linked⟩, ?_, fun hne => (h.pool hne).stop, fun hnil => ?_, fun _ => ⟨rfl, rfl⟩,
    h.safe⟩, .refl _⟩
  · refine InStop.mk rfl hthere (fun t ht => ?_) (fun i t ht hlt => absurd hlt (Nat.not_lt_zero _))
      (fun i t ht _ => ?_) hself
    · obtain ⟨hstarting, -, hgone⟩ := hrest.threads t ht
      exact ⟨hstarting, hgone.trans hthere⟩
    · exact (hrest.threads t (List.mem_of_getElem? ht)).2.1
  · have hp := h.made hnil
    rw [AsMade] at hp
    show AsMade s.pool.stop
    rw [AsMade, hp]
    rfl

/-- **The members go**, when the workers are over and nobody is in `run`. -/
lemma Inv.release (h : s.Inv) (hstopped : s.pool.running = false)
    (hover : ∀ t ∈ s.threads_, t.starting = false ∧ t.joining = false ∧ t.destroyed = false ∧
      t.thread = .ended) (hwaiters : s.pool.notFull.waiters = []) :
    Living.Sound Inv s (.ok s.release) := by
  have hgone {t : Thread} (ht : t ∈ s.threads_) :
      t.destroy = { t with destroyed := true, detached := t.started_ && !t.joined_ } :=
    if_neg (by rw [(hover t ht).2.2.1]; decide)
  have hget {w : ℕ} {p : Thread} (hp : (s.threads_.map Thread.destroy)[w]? = some p) :
      ∃ t, s.threads_[w]? = some t ∧
        p = { t with destroyed := true, detached := t.started_ && !t.joined_ } := by
    rw [List.getElem?_map, Option.map_eq_some_iff] at hp
    obtain ⟨t, ht, rfl⟩ := hp
    exact ⟨t, ht, hgone (List.mem_of_getElem? ht)⟩
  have hmem {p : Thread} (hp : p ∈ s.threads_.map Thread.destroy) :
      ∃ t ∈ s.threads_, p = { t with destroyed := true, detached := t.started_ && !t.joined_ } := by
    obtain ⟨t, ht, rfl⟩ := List.mem_map.mp hp
    exact ⟨t, ht, hgone ht⟩
  have hsafe : (s.dangling || decide (s.pool.notFull.waiters ≠ [])) = false := by
    rw [h.safe, hwaiters]
    rfl
  refine ⟨⟨⟨?_, fun p hp => ?_, fun p hp => ?_, fun w p hp => ?_, fun w p q hp hq => ?_⟩, ?_,
    fun hne => h.pool fun hnil => hne ?_, fun hnil => h.made (List.map_eq_nil_iff.mp hnil),
    h.awake, hsafe⟩, .refl _⟩
  · exact h.workers.length.trans (List.length_map _).symm
  · obtain ⟨t, ht, rfl⟩ := hmem hp
    obtain ⟨hstarting, -, hpresent, -⟩ := hover t ht
    obtain ⟨p, heq, hinv, -⟩ := (h.workers.inv t ht).destroy ⟨hpresent, hstarting⟩
    rw [← hgone ht, Except.ok.inj heq]
    exact hinv
  · obtain ⟨t, ht, rfl⟩ := hmem hp
    exact h.workers.started t ht
  · obtain ⟨t, ht, rfl⟩ := hget hp
    exact h.workers.names w t ht
  · obtain ⟨t, ht, rfl⟩ := hget hp
    have hlinked := h.workers.linked w t q ht hq
    exact ⟨hlinked.before, hlinked.after⟩
  · refine Resting.mk (fun p hp => ?_) (fun _ p hp => ?_) fun _ => ⟨hstopped, hwaiters⟩
    · obtain ⟨t, ht, rfl⟩ := hmem hp
      exact ⟨(hover t ht).1, (hover t ht).2.1, rfl⟩
    · obtain ⟨t, ht, rfl⟩ := hmem hp
      exact (hover t ht).2.2.2
  · show s.threads_.map Thread.destroy = []
    rw [hnil]
    rfl

lemma Inv.joinGoes (h : s.Inv) {w : ℕ} {self : Option ℕ} {destroys : Bool}
    (hcall : s.call = .join w self destroys) {created : Bool}
    (hi : s.Proper (.callGoes created)) : Living.Sound Inv s (s.joinGoes w self destroys) := by
  have hstop : s.InStop w self := by
    have hcalling := h.call
    rwa [hcall] at hcalling
  unfold Proper at hi
  rw [hcall] at hi
  dsimp only at hi
  unfold PoolLife.joinGoes
  cases ho : s.threads_[w]? with
  | none =>
    rw [ho] at hi
    have hlen : s.threads_.length ≤ w := List.getElem?_eq_none_iff.mp ho
    have hover : ∀ t ∈ s.threads_, t.starting = false ∧ t.joining = false ∧
        t.destroyed = false ∧ t.thread = .ended := by
      intro t ht
      obtain ⟨i, hget⟩ := List.mem_iff_getElem?.mp ht
      have hlt := (List.getElem?_eq_some_iff.mp hget).1
      obtain ⟨hstarting, hthere⟩ := hstop.threads t ht
      exact ⟨hstarting, hstop.joining i t hget (by omega), hthere,
        hstop.joined i t hget (by omega)⟩
    cases destroys with
    | true => exact h.release hstop.stopped hover (hi rfl)
    | false =>
      refine ⟨⟨⟨h.workers.length, h.workers.inv, h.workers.started, h.workers.names,
        h.workers.linked⟩, ?_, h.pool, h.made, h.awake, h.safe⟩, .refl _⟩
      refine Resting.mk (fun t ht => ?_) (fun _ t ht => (hover t ht).2.2.2) fun hd => ?_
      · obtain ⟨hstarting, hjoining, hthere, -⟩ := hover t ht
        exact ⟨hstarting, hjoining, hthere.trans hstop.there.symm⟩
      · exact absurd (hstop.there.symm.trans hd) (by decide)
  | some o =>
    rw [ho] at hi
    have hmem := List.mem_of_getElem? ho
    -- The thread is replaced by one in the same phase, and `stop` goes on if it is over.
    have hgoes : ∀ p : Thread, p.Inv → p.name_ = o.name_ → p.started_ = o.started_ →
        p.starting = o.starting → p.destroyed = o.destroyed → p.thread = o.thread →
        (p.joining = false → p.thread = .ended) →
        Living.Sound Inv s (.ok { s with
          threads_ := s.threads_.set w p
          call := .join (if p.joining then w else w + 1) self destroys }) := by
      intro p hinv hname hstarted hstarting hthere hthread hended
      refine ⟨h.set ho (h.workers.set ho hinv hname hstarted (fun q hq => ?_) _) ?_, .refl _⟩
      · have hlinked := h.workers.linked w o q ho hq
        exact ⟨fun hf => hlinked.before (hthread ▸ hf), fun hf => hlinked.after (hthread ▸ hf)⟩
      · refine InStop.mk hstop.stopped hstop.there (fun t ht => ?_) (fun i t ht hlt => ?_)
          (fun i t ht hne => ?_) fun v hv => ?_
        · rcases List.mem_or_eq_of_mem_set ht with ht | rfl
          · exact hstop.threads t ht
          · rw [hstarting, hthere]
            exact hstop.threads o hmem
        · rcases getElem?_set_cases ht with ⟨rfl, rfl⟩ | ⟨hne, ht⟩
          · refine hended ?_
            by_contra hjoining
            rw [if_pos (Bool.not_eq_false _ ▸ hjoining)] at hlt
            exact absurd hlt (Nat.lt_irrefl _)
          · refine hstop.joined i t ht ?_
            split at hlt <;> omega
        · rcases getElem?_set_cases ht with ⟨rfl, rfl⟩ | ⟨hne', ht⟩
          · by_contra hjoining
            rw [if_pos (Bool.not_eq_false _ ▸ hjoining)] at hne
            exact hne rfl
          · exact hstop.joining i t ht hne'
        · obtain ⟨htask, t, ht, hfunc⟩ := hstop.caller v hv
          refine ⟨htask, ?_⟩
          by_cases hvw : v = w
          · rw [hvw, ho] at ht
            cases ht
            refine ⟨p, ?_, hthread.trans hfunc⟩
            rw [hvw]
            exact List.getElem?_set_self (List.getElem?_eq_some_iff.mp ho).1
          · exact ⟨t, (List.getElem?_set_ne (Ne.symm hvw)).trans ht, hfunc⟩
    cases hjoining : o.joining with
    | true =>
      obtain ⟨p, hp, hinv, -⟩ := (h.workers.inv o hmem).joinReturns
      dsimp only
      rw [hjoining, if_pos rfl, hp]
      rw [Thread.step] at hp
      split at hp
      next hended =>
        cases hp
        exact hgoes _ hinv rfl rfl rfl rfl rfl fun _ => hended.2
      next =>
        cases hp
        exact hgoes _ hinv rfl rfl rfl rfl rfl fun hf => absurd (hjoining.symm.trans hf) (by decide)
    | false =>
      have hproper : o.Proper (.join (self = some w)) := hi hjoining
      have hself : self ≠ some w := by
        intro hself
        obtain ⟨-, t, ht, hthread⟩ := hstop.caller w hself
        rw [ho] at ht
        cases ht
        rw [decide_eq_true hself] at hproper
        exact hproper hthread
      rw [decide_eq_false hself] at hproper
      obtain ⟨p, hp, hinv, -⟩ : o.Comes (o.join false) := (h.workers.inv o hmem).join hproper
      obtain ⟨hthere, hstarted, hjoined⟩ : o.destroyed = false ∧ _ := hproper
      have hstep : o.join false = .ok { o with joined_ := true, joining := true } := by
        rw [Thread.join, if_neg (fun hf => Bool.false_ne_true hf.1), hthere,
          if_neg Bool.false_ne_true, if_pos hstarted, if_pos hjoined, if_neg Bool.false_ne_true]
      rw [hstep] at hp
      cases hp
      dsimp only
      rw [hjoining, if_neg Bool.false_ne_true, decide_eq_false hself, Thread.step, hstep]
      exact hgoes _ hinv rfl rfl rfl rfl rfl fun hf => Bool.noConfusion hf

/-! ## Steps -/

omit [DecidableEq α] in
lemma worker_inFunc {w : ℕ} (h : s.working w = true) :
    ∃ t, s.threads_[w]? = some t ∧ t.thread = .inFunc := by
  obtain ⟨hthread, -⟩ := Bool.and_eq_true_iff.mp h
  cases ht : s.threads_[w]? with
  | none =>
    rw [ht] at hthread
    cases hthread
  | some t =>
    rw [ht] at hthread
    exact ⟨t, rfl, of_decide_eq_true hthread⟩

/-- **A proper step** keeps the invariant. -/
lemma step_sound (h : s.Inv) {i : PoolLifeInput α} (hi : s.Proper i) :
    Living.Sound Inv s (s.step i) := by
  cases i with
  | start numThreads => exact h.start hi
  | callGoes created =>
    show Living.Sound Inv s (s.callGoes created)
    unfold PoolLife.callGoes
    split
    next => exact ⟨h, .refl _⟩
    next left hcall => exact h.startGoes hcall hi
    next w self destroys hcall => exact h.joinGoes hcall hi
  | thread w i =>
    obtain ⟨t, ht, hinv, hpool⟩ := h.thread w i
    show Living.Sound Inv s (s.thread w i)
    rw [ht]
    refine ⟨hinv, ?_⟩
    show s.pool.Extends t.pool
    rw [hpool]
    exact .refl _
  | pool i => exact h.inPool hi
  | throws w =>
    rw [step, if_neg hi]
    exact ⟨h, .refl _⟩
  | stop caller =>
    unfold step
    dsimp only
    split
    next => exact ⟨h, .refl _⟩
    next hmay =>
      obtain ⟨hcall, hmay⟩ := not_or.mp hmay
      have hcall : s.call = .none := not_not.mp hcall
      have hmay : s.mayStop caller = true := Bool.not_eq_false _ ▸ hmay
      have hthere := hi hcall hmay
      rw [if_neg (by rw [hthere]; decide)]
      refine h.stop hcall hthere fun v hv => ?_
      obtain ⟨hrun, hworking⟩ := Bool.and_eq_true_iff.mp hmay
      cases caller with
      | worker w =>
        cases hv
        exact ⟨(of_decide_eq_true hrun).2 v rfl, worker_inFunc hworking⟩
      | other t => cases hv
  | destroy =>
    rw [step]
    split
    next => exact ⟨h, .refl _⟩
    next hcall =>
      have hcall : s.call = .none := not_not.mp hcall
      obtain ⟨hthere, hwaiters⟩ := hi hcall
      rw [if_neg (by rw [hthere]; decide)]
      split
      next => exact h.stop hcall hthere fun v hv => by cases hv
      next hstopped =>
        have hstopped : s.pool.running = false := Bool.eq_false_iff.mpr hstopped
        have hrest : s.Resting := by
          have hcalling := h.call
          rwa [hcall] at hcalling
        refine h.release hstopped (fun t ht => ?_) (hwaiters hstopped)
        obtain ⟨hstarting, hjoining, hgone⟩ := hrest.threads t ht
        exact ⟨hstarting, hjoining, hgone.trans hthere, hrest.stopped hstopped t ht⟩

omit [DecidableEq α] in
lemma not_orderly_of_use (hdestroyed : s.destroyed = true) : ¬ s.use.Orderly := by
  intro h
  have hsafe : (s.dangling || s.destroyed) = false := h.safe
  rw [hdestroyed, Bool.or_true] at hsafe
  cases hsafe

omit [DecidableEq α] in
lemma not_orderly_of_release (hwaiters : s.pool.notFull.waiters ≠ []) : ¬ s.release.Orderly := by
  intro h
  have hsafe : (s.dangling || decide (s.pool.notFull.waiters ≠ [])) = false := h.safe
  rw [decide_eq_true hwaiters, Bool.or_true] at hsafe
  cases hsafe

/-- **Every other step** ends the process or is seen. -/
lemma step_seen (h : s.Inv) {i : PoolLifeInput α} (hi : ¬ s.Proper i) :
    Living.Seen s (s.step i) := by
  cases i with
  | start numThreads =>
    obtain ⟨hcall, hnot⟩ := Classical.not_imp.mp hi
    rw [step, PoolLife.start, if_neg (not_not.mpr hcall)]
    by_cases hdestroyed : s.destroyed = true
    · rw [if_pos hdestroyed]
      exact fun hseen => not_orderly_of_use hdestroyed hseen.2
    · rw [if_neg hdestroyed]
      by_cases hnil : s.threads_ = []
      · rw [if_pos hnil, if_neg fun hnum => hnot ⟨Bool.eq_false_iff.mpr hdestroyed, hnil, hnum⟩]
        exact not_false
      · rw [if_neg hnil]
        exact not_false
  | callGoes created =>
    show Living.Seen s (s.callGoes created)
    unfold Proper at hi
    unfold PoolLife.callGoes
    split
    next hcall =>
      rw [hcall] at hi
      exact absurd trivial hi
    next left hcall =>
      rw [hcall] at hi
      obtain ⟨hleft, hi⟩ := Classical.not_imp.mp hi
      obtain ⟨hback, hcreated⟩ := Classical.not_imp.mp hi
      have hcreated : created = false := Bool.eq_false_iff.mpr hcreated
      have hnext : s.startNext left created = .error (.thread .create) := by
        obtain ⟨k, rfl⟩ := Nat.exists_eq_succ_of_ne_zero hleft
        rw [hcreated]
        rfl
      unfold PoolLife.startGoes
      split
      next o ho =>
        rw [if_neg (by rw [hback o ho]; decide), hnext]
        exact not_false
      next =>
        rw [hnext]
        exact not_false
    next w self destroys hcall =>
      rw [hcall] at hi
      dsimp only at hi
      unfold PoolLife.joinGoes
      cases ho : s.threads_[w]? with
      | none =>
        rw [ho] at hi
        obtain ⟨hdestroys, hwaiters⟩ := Classical.not_imp.mp hi
        dsimp only
        rw [if_pos hdestroys]
        exact fun hseen => not_orderly_of_release hwaiters hseen.2
      | some o =>
        rw [ho] at hi
        obtain ⟨hjoining, hproper⟩ := Classical.not_imp.mp hi
        dsimp only
        rw [hjoining, if_neg Bool.false_ne_true]
        rcases Thread.step_seen (h.workers.inv o (List.mem_of_getElem? ho)) hproper with
          ⟨e, he⟩ | ⟨p, hp, hbad⟩
        · rw [he]
          exact not_false
        · rw [hp]
          refine fun hseen => hbad (hseen.2.threads p ?_)
          exact List.mem_set (List.getElem?_eq_some_iff.mp ho).1 p
  | thread w i => exact absurd trivial hi
  | pool i =>
    obtain ⟨hdestroyed, hi⟩ := Classical.not_imp.mp hi
    obtain ⟨hmay, huses⟩ := Classical.not_imp.mp hi
    show Living.Seen s (s.inPool i)
    rw [PoolLife.inPool, if_neg (by rw [hmay]; decide), if_pos ⟨hdestroyed, not_not.mp huses⟩]
    exact fun hseen => not_orderly_of_use hdestroyed hseen.2
  | throws w =>
    rw [step, if_pos (not_not.mp hi)]
    exact not_false
  | stop caller =>
    obtain ⟨hcall, hi⟩ := Classical.not_imp.mp hi
    obtain ⟨hmay, hdestroyed⟩ := Classical.not_imp.mp hi
    have hdestroyed : s.destroyed = true := Bool.not_eq_false _ ▸ hdestroyed
    unfold step
    dsimp only
    rw [if_neg (not_or.mpr ⟨not_not.mpr hcall, by rw [hmay]; decide⟩), if_pos hdestroyed]
    exact fun hseen => not_orderly_of_use hdestroyed hseen.2
  | destroy =>
    obtain ⟨hcall, hnot⟩ := Classical.not_imp.mp hi
    rw [step, if_neg (not_not.mpr hcall)]
    by_cases hdestroyed : s.destroyed = true
    · rw [if_pos hdestroyed]
      exact fun hseen => not_orderly_of_use hdestroyed hseen.2
    · rw [if_neg hdestroyed]
      have hwaiters : ¬ (s.pool.running = false → s.pool.notFull.waiters = []) := fun hw =>
        hnot ⟨Bool.eq_false_iff.mpr hdestroyed, hw⟩
      obtain ⟨hstopped, hwaiters⟩ := Classical.not_imp.mp hwaiters
      rw [if_neg (by rw [hstopped]; decide)]
      exact fun hseen => not_orderly_of_release hwaiters hseen.2

/-- **The life of a pool**, in every interleaving of the calls of its owner, the steps of the
workers and the calls of `run`: what `start`, `stop` and the destructor promise holds, and the
process goes on.  This is so exactly as long as the pool is started once, with success and not with
a negative number; no task throws; it is stopped once, and not by a worker, which would join itself;
and when it is destroyed nobody is in `run`, and nobody uses it after that. -/
theorem pool_lives_iff (name : Bytes) (maxQueueSize : ℕ) (is : List (PoolLifeInput α)) :
    machine.Meets Living (ctor name maxQueueSize) is ↔
      machine.Along Proper (ctor name maxQueueSize) is := by
  refine machine.meets_iff_of_sound (I := Inv) (fun _ h => h.orderly) ?_ ?_
    (ctor_inv name maxQueueSize)
  · exact fun s i h hi => step_sound h hi
  · exact fun s i h hi => step_seen h hi

/-- One worker and room for one task.  The worker is in the first task and the second is in the
queue, so thread 1 waits in `run`; the destructor wakes it and joins the worker, and does not wait
for thread 1. -/
example : ∃ t, machine.run (ctor [] 1 : PoolLife ℕ)
    [.start 1, .callGoes true, .thread 0 (.writeTid 7), .thread 0 .countDown, .callGoes true,
      .callGoes true, .thread 0 .callFunc, .pool (.testRunning 0), .pool (.run ⟨.other 0, some 1⟩ 0),
      .pool (.take 0 ⟨.other 0, none⟩), .pool (.run ⟨.other 0, some 2⟩ 0),
      .pool (.run ⟨.other 1, some 3⟩ 0), .destroy, .callGoes true, .pool (.taskReturns 0),
      .pool (.testRunning 0), .thread 0 (.funcEnds false), .thread 0 .exit, .callGoes true,
      .callGoes true] = .ok t ∧ (t.destroyed = true ∧ t.dangling = true) := by
  decide +kernel

end PoolLife

end Firey
