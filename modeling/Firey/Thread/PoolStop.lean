import Firey.Thread.PoolWakeups

/-!
# What a `ThreadPoolff` still executes when it is stopped

`stop` clears `running_` and waits for the workers.  A worker tests `running_` before each call of
`take`, so one that is in a task, or before the test, ends without looking at the queue again.  One
that is past the test, in `take`, is still served from the queue, once.  So of the tasks that are in
the queue when `stop` has the mutex, as many are executed as there are workers past the test, and the
other ones never.

`executed` is history: the tasks that have returned.
-/

set_option autoImplicit false

namespace Firey

/-- The task a worker is in. -/
def WorkerPhase.current {α : Type} : WorkerPhase α → List α
  | calling f => [f]
  | _ => []

/-- The worker is past the test of `running_`, and in `take`. -/
def WorkerPhase.pastTest {α : Type} : WorkerPhase α → Bool
  | take | waiting => true
  | _ => false

/-- A pool, with the tasks that its workers have executed. -/
structure PoolHistory (α : Type) where
  pool : ThreadPool α
  executed : List α
  deriving DecidableEq, Repr

namespace ThreadPool

variable {α : Type}

/-- The tasks that workers are in. -/
def current (s : ThreadPool α) : List α := s.threads.flatMap WorkerPhase.current

/-- How many workers are past the test of `running_`. -/
def pastTest (s : ThreadPool α) : ℕ := s.threads.countP WorkerPhase.pastTest

/-- What a step comes to, as far as the tasks go; the list has the task that returns in it. -/
inductive Effect (s t : ThreadPool α) : List α → Prop
  | none (hqueue : t.queue = s.queue ∨ s.running = true) (htaken : t.taken = s.taken)
      (hthreads : t.threads = s.threads) (hstop : s.running = false → t.running = false) :
      Effect s t []
  | move {w : ℕ} {x y : WorkerPhase α} (hqueue : t.queue = s.queue) (htaken : t.taken = s.taken)
      (hw : s.threads[w]? = some x) (hthreads : t.threads = s.threads.set w y)
      (hpast : y.pastTest = x.pastTest ∨ s.running = true ∨ s.queue = [])
      (htask : y.current = []) (hstop : s.running = false → t.running = false) :
      Effect s t x.current
  | take {w : ℕ} {x : WorkerPhase α} {task : Task α} (hqueue : s.queue = task :: t.queue)
      (htaken : t.taken = s.taken ++ [task]) (hw : s.threads[w]? = some x)
      (hpast : x.pastTest = true) (hthreads : t.threads = s.threads.set w (afterTake task))
      (hstop : s.running = false → t.running = false) : Effect s t []

/-- The task that returns with an input. -/
def returning (s : ThreadPool α) : PoolInput α → List α
  | .taskReturns w => if s.MayRun (.worker w) then (s.threads[w]?.elim [] WorkerPhase.current) else []
  | _ => []

/-! ## Steps -/

variable {s t : ThreadPool α}

/-- `run` puts a task into the queue only while the pool runs. -/
lemma run_effect {p : Producer α} {pick : ℕ} (h : s.run p pick = .ok t) :
    (t.queue = s.queue ∨ s.running = true) ∧ t.taken = s.taken ∧ t.threads = s.threads ∧
      t.running = s.running := by
  unfold run at h
  split_ifs at h with hwait hstopped
  · cases h
    exact ⟨Or.inl rfl, rfl, rfl, rfl⟩
  · cases h
    exact ⟨Or.inl rfl, rfl, rfl, rfl⟩
  · obtain ⟨-, -, h⟩ := bind_eq_ok h
    cases h
    exact ⟨Or.inr (eq_true_of_ne_false hstopped), rfl, rfl, rfl⟩

lemma current_of_pastTest {x : WorkerPhase α} (h : x.pastTest = true) : x.current = [] := by
  cases x with
  | take | waiting => rfl
  | testRunning | calling _ | finished => cases h

variable [DecidableEq α]

/-- A worker in `take` gets the first task, or finds none. -/
lemma take_effect {w : ℕ} {x : WorkerPhase α} (hw : s.threads[w]? = some x)
    (hpast : x.pastTest = true) (c : Condition ℕ) (pick : Producer α) :
    Effect s ({ s with notEmpty := c }.take w pick) x.current := by
  unfold take
  by_cases hwait : s.queue = [] ∧ s.running = true
  · rw [if_pos hwait]
    exact .move rfl rfl hw rfl (Or.inr (Or.inr hwait.1)) rfl id
  · rw [if_neg hwait]
    dsimp only
    split
    next hq => exact .move rfl rfl hw rfl (Or.inr (Or.inr hq)) rfl id
    next task rest hq =>
      rw [current_of_pastTest hpast]
      exact .take hq rfl hw hpast rfl id

/-- **What each step comes to.** -/
lemma step_effect (h : s.Inv 0) {i : PoolInput α} (ht : s.step i = .ok t) :
    Effect s t (s.returning i) := by
  have hsame : Effect s s [] := .none (Or.inl rfl) rfl rfl id
  cases i with
  | run p pick =>
    unfold step at ht
    dsimp only at ht
    split at ht
    · obtain ⟨hqueue, htaken, hthreads, hrunning⟩ := run_effect ht
      exact .none hqueue htaken hthreads hrunning.trans
    · cases ht
      exact hsame
  | runAgain p pick =>
    unfold step at ht
    dsimp only at ht
    split at ht
    · obtain ⟨hqueue, htaken, hthreads, hrunning⟩ := run_effect ht
      exact .none hqueue htaken hthreads hrunning.trans
    · cases ht
      exact hsame
  | testRunning w =>
    unfold step at ht
    dsimp only at ht
    split at ht
    next hphase =>
      cases ht
      refine .move (x := .testRunning) ?_ ?_ hphase rfl ?_ ?_ id
      · rfl
      · rfl
      · cases s.running with
        | true => exact Or.inr (Or.inl rfl)
        | false => exact Or.inl rfl
      · split <;> rfl
    next =>
      cases ht
      exact hsame
  | take w pick =>
    unfold step at ht
    dsimp only at ht
    split at ht
    next hphase =>
      cases ht
      exact take_effect hphase rfl s.notEmpty pick
    next =>
      cases ht
      exact hsame
  | takeAgain w pick =>
    unfold step at ht
    dsimp only at ht
    split at ht
    next hawake =>
      cases ht
      exact take_effect (h.waiting w (Condition.mem_waiters_of_awake hawake)) rfl _ pick
    next =>
      cases ht
      exact hsame
  | taskReturns w =>
    unfold step at ht
    unfold returning
    dsimp only at ht ⊢
    split at ht
    next hmay =>
      cases ht
      have htask := hmay.2 w rfl
      unfold inTask at htask
      split at htask
      next f hphase =>
        rw [if_pos hmay, hphase]
        refine .move (x := .calling f) ?_ ?_ hphase rfl (Or.inl rfl) ?_ id <;> rfl
      next => cases htask
    next hmay =>
      cases ht
      rw [if_neg hmay]
      exact hsame
  | wakeProducer p =>
    cases ht
    exact .none (Or.inl rfl) rfl rfl id
  | wakeWorker w =>
    cases ht
    exact .none (Or.inl rfl) rfl rfl id
  | stop =>
    cases ht
    exact .none (Or.inl rfl) rfl rfl fun _ => rfl

/-! ## Who executes what -/

omit [DecidableEq α]

/-- The workers in front of one, and those behind. -/
lemma exists_set {w : ℕ} {x : WorkerPhase α} (hw : s.threads[w]? = some x) :
    ∃ pre post, s.threads = pre ++ x :: post ∧ ∀ y, s.threads.set w y = pre ++ y :: post := by
  obtain ⟨hlt, hx⟩ := List.getElem?_eq_some_iff.mp hw
  have hset : ∀ y, s.threads.set w y = s.threads.take w ++ y :: s.threads.drop (w + 1) := by
    intro y
    rw [List.set_eq_take_append_cons_drop, if_pos hlt]
  refine ⟨s.threads.take w, s.threads.drop (w + 1), ?_, hset⟩
  rw [← hset x, ← hx, List.set_getElem_self]

lemma current_afterTake (task : Task α) : (afterTake task).current = task.toList := by
  cases task <;> rfl

/-- The tasks that workers are in, one of the workers apart. -/
lemma current_eq {x : WorkerPhase α} {pre post : List (WorkerPhase α)}
    (h : s.threads = pre ++ x :: post) :
    s.current = pre.flatMap WorkerPhase.current ++
      (x.current ++ post.flatMap WorkerPhase.current) := by
  rw [ThreadPool.current, h, List.flatMap_append, List.flatMap_cons]

lemma pastTest_eq {x : WorkerPhase α} {pre post : List (WorkerPhase α)}
    (h : s.threads = pre ++ x :: post) :
    s.pastTest = pre.countP WorkerPhase.pastTest + post.countP WorkerPhase.pastTest +
      if x.pastTest then 1 else 0 := by
  rw [ThreadPool.pastTest, h, List.countP_append, List.countP_cons, Nat.add_assoc]

namespace Effect

variable {out : List α}

/-- **Each task that is taken** is in execution or has returned. -/
lemma executed (e : Effect s t out) {done : List α}
    (h : (done ++ s.current).Perm (s.taken.filterMap id)) :
    (done ++ out ++ t.current).Perm (t.taken.filterMap id) := by
  cases e with
  | none hqueue htaken hthreads hstop =>
    rw [List.append_nil, htaken, ThreadPool.current, hthreads]
    exact h
  | move hqueue htaken hw hthreads hpast htask hstop =>
    obtain ⟨pre, post, hsplit, hset⟩ := exists_set hw
    rw [current_eq hsplit] at h
    rw [htaken, current_eq (hthreads.trans (hset _)), htask, List.nil_append, List.append_assoc]
    exact ((List.perm_append_comm_assoc _ _ _).append_left done).trans h
  | take hqueue htaken hw hpast hthreads hstop =>
    rename_i x task
    obtain ⟨pre, post, hsplit, hset⟩ := exists_set hw
    have htask : [task].filterMap id = task.toList := by
      cases task <;> rfl
    rw [current_eq hsplit, current_of_pastTest hpast, List.nil_append] at h
    rw [htaken, current_eq (hthreads.trans (hset _)), current_afterTake, List.append_nil,
      List.filterMap_append, htask]
    refine List.Perm.trans ?_ (h.append_right task.toList)
    rw [List.append_assoc, List.append_assoc]
    exact (List.perm_append_comm.append_left _).append_left done

/-- **A stopped pool** serves the workers past the test, each of them once. -/
lemma served (e : Effect s t out) (hr : s.running = false) :
    t.taken ++ t.queue.take t.pastTest = s.taken ++ s.queue.take s.pastTest := by
  cases e with
  | none hqueue htaken hthreads hstop =>
    rw [htaken, hqueue.resolve_right (by rw [hr]; decide), ThreadPool.pastTest, hthreads]
    rfl
  | move hqueue htaken hw hthreads hpast htask hstop =>
    obtain ⟨pre, post, hsplit, hset⟩ := exists_set hw
    rw [htaken, hqueue, pastTest_eq hsplit, pastTest_eq (hthreads.trans (hset _))]
    rcases hpast with hpast | hrunning | hempty
    · rw [hpast]
    · rw [hr] at hrunning
      cases hrunning
    · rw [hempty, List.take_nil, List.take_nil]
  | take hqueue htaken hw hpast hthreads hstop =>
    rename_i x task
    obtain ⟨pre, post, hsplit, hset⟩ := exists_set hw
    have hleft : (afterTake task).pastTest = false := by
      cases task <;> rfl
    rw [htaken, hqueue, pastTest_eq hsplit, pastTest_eq (hthreads.trans (hset _)), hleft, hpast,
      if_pos rfl, if_neg Bool.false_ne_true, List.take_succ_cons, List.append_assoc]
    rfl

lemma stopped (e : Effect s t out) (hr : s.running = false) : t.running = false := by
  cases e with
  | none _ _ _ hstop | move _ _ _ _ _ _ hstop | take _ _ _ _ _ hstop => exact hstop hr

end Effect

end ThreadPool

namespace PoolHistory

variable {α : Type} [DecidableEq α]

/-- After `start(numThreads)`. -/
def start (numThreads maxQueueSize : ℕ) : PoolHistory α := ⟨.start numThreads maxQueueSize, []⟩

def step (h : PoolHistory α) (i : PoolInput α) : Except Fault (PoolHistory α) := do
  let pool ← h.pool.step i
  .ok ⟨pool, h.executed ++ h.pool.returning i⟩

def machine : Machine (PoolHistory α) (PoolInput α) Fault := ⟨step⟩

/-- All workers have come to their end, and `join` returns. -/
def Joined (h : PoolHistory α) : Prop := ∀ x ∈ h.pool.threads, x = .finished

instance (h : PoolHistory α) : Decidable h.Joined :=
  inferInstanceAs (Decidable (∀ x ∈ h.pool.threads, x = .finished))

/-! ## Runs -/

variable {h h' : PoolHistory α}

/-- The pool keeps its invariant, and each task that was taken is in execution or has returned. -/
structure Accounted (h : PoolHistory α) : Prop where
  inv : h.pool.Inv 0
  tasks : (h.executed ++ h.pool.current).Perm (h.pool.taken.filterMap id)

omit [DecidableEq α] in
lemma start_accounted {numThreads : ℕ} (hn : 0 < numThreads) (maxQueueSize : ℕ) :
    (start numThreads maxQueueSize : PoolHistory α).Accounted where
  inv := ThreadPool.start_inv hn maxQueueSize
  tasks := by
    have hcurrent : (ThreadPool.start numThreads maxQueueSize : ThreadPool α).current = [] := by
      refine List.flatMap_eq_nil_iff.mpr fun x hx => ?_
      rw [List.eq_of_mem_replicate hx]
      rfl
    rw [start, hcurrent]
    exact List.Perm.nil

/-- **Every step** succeeds, and accounts for the task that returns. -/
lemma step_accounted (hh : h.Accounted) (i : PoolInput α) :
    ∃ h', h.step i = .ok h' ∧ h'.Accounted ∧
      h.pool.Effect h'.pool (h.pool.returning i) := by
  obtain ⟨t, ht, hinv⟩ := ThreadPool.step_inv hh.inv i
  have heffect := ThreadPool.step_effect hh.inv ht
  exact ⟨⟨t, h.executed ++ h.pool.returning i⟩, by rw [step, ht, ok_bind],
    ⟨hinv, heffect.executed hh.tasks⟩, heffect⟩

/-- **From the call of `stop` on**, what is still taken is settled. -/
lemma run_stopped (hh : h.Accounted) (hr : h.pool.running = false) (is : List (PoolInput α)) :
    ∃ h', machine.run h is = .ok h' ∧ h'.Accounted ∧
      h'.pool.taken ++ h'.pool.queue.take h'.pool.pastTest =
        h.pool.taken ++ h.pool.queue.take h.pool.pastTest := by
  obtain ⟨h', hrun, haccounted, -, hserved⟩ := machine.run_total
    (I := fun h' : PoolHistory α => h'.Accounted ∧ h'.pool.running = false ∧
      h'.pool.taken ++ h'.pool.queue.take h'.pool.pastTest =
        h.pool.taken ++ h.pool.queue.take h.pool.pastTest)
    (fun s i ⟨hs, hstopped, hserved⟩ => by
      obtain ⟨t, ht, haccounted, heffect⟩ := step_accounted hs i
      exact ⟨t, ht, haccounted, heffect.stopped hstopped, (heffect.served hstopped).trans hserved⟩)
    ⟨hh, hr, rfl⟩ is
  exact ⟨h', hrun, haccounted, hserved⟩

omit [DecidableEq α] in
/-- Once all workers have ended, each task that was taken has returned, and none is past the test. -/
lemma Accounted.of_joined (hh : h.Accounted) (hjoined : h.Joined) :
    h.executed.Perm (h.pool.taken.filterMap id) ∧ h.pool.pastTest = 0 := by
  have hcurrent : h.pool.current = [] := by
    refine List.flatMap_eq_nil_iff.mpr fun x hx => ?_
    rw [hjoined x hx]
    rfl
  have htasks := hh.tasks
  rw [hcurrent, List.append_nil] at htasks
  refine ⟨htasks, List.countP_eq_zero.mpr fun x hx => ?_⟩
  rw [hjoined x hx]
  exact Bool.false_ne_true

/-- **What a stopped pool executes**: when `join` has returned, the tasks that were taken before
`stop`, and from those in the queue the first ones, one for each worker past the test of `running_`;
each of them exactly once, and no other one.  So all of the tasks queued have been executed exactly
when the other ones in the queue are empty functions. -/
theorem stop_executes {numThreads : ℕ} (hn : 0 < numThreads) (maxQueueSize : ℕ)
    (before after : List (PoolInput α)) :
    ∃ h h', machine.run (start numThreads maxQueueSize) before = .ok h ∧
      machine.run h (.stop :: after) = .ok h' ∧
      (h'.Joined →
        h'.executed.Perm
          ((h.pool.taken ++ h.pool.queue.take h.pool.pastTest).filterMap id) ∧
        (h'.executed.Perm (h.pool.queued.filterMap id) ↔
          (h.pool.queue.drop h.pool.pastTest).filterMap id = [])) := by
  obtain ⟨h, hrun, hh⟩ := machine.run_total
    (I := fun h : PoolHistory α => h.Accounted) (fun s i hs => by
      obtain ⟨t, ht, haccounted, -⟩ := step_accounted hs i
      exact ⟨t, ht, haccounted⟩) (start_accounted hn maxQueueSize) before
  obtain ⟨u, hu, haccounted, -⟩ := step_accounted hh .stop
  have hstop : h.step .stop = .ok ⟨h.pool.stop, h.executed ++ []⟩ := rfl
  cases hstop.symm.trans hu
  obtain ⟨h', hrun', hh', hserved⟩ := run_stopped haccounted rfl after
  refine ⟨h, h', hrun, by rw [machine.run_cons_ok hstop, hrun'], fun hjoined => ?_⟩
  obtain ⟨hexecuted, hnone⟩ := hh'.of_joined hjoined
  rw [hnone, List.take_zero, List.append_nil] at hserved
  have hperm : h'.executed.Perm
      ((h.pool.taken ++ h.pool.queue.take h.pool.pastTest).filterMap id) := by
    rw [hserved] at hexecuted
    exact hexecuted
  have hqueued : h.pool.queued.filterMap id =
      (h.pool.taken ++ h.pool.queue.take h.pool.pastTest).filterMap id ++
        (h.pool.queue.drop h.pool.pastTest).filterMap id := by
    rw [← List.filterMap_append, List.append_assoc, List.take_append_drop, hh.inv.conserved]
  refine ⟨hperm, fun hall => ?_, fun hempty => ?_⟩
  · have hlength := (hperm.symm.trans hall).length_eq
    rw [hqueued, List.length_append] at hlength
    exact List.eq_nil_of_length_eq_zero (by omega)
  · rw [hqueued, hempty, List.append_nil]
    exact hperm

/-- One of two workers is past the test, and gets the task. -/
theorem stop_executes_one :
    ∃ h h', machine.run (start 2 0) [.testRunning 0, .run ⟨.other 0, some 7⟩ 0] = .ok h ∧
      machine.run h [.stop, .take 0 ⟨.other 0, none⟩, .taskReturns 0, .testRunning 0,
        .testRunning 1] = .ok h' ∧
      (h'.Joined →
        h'.executed.Perm
          ((h.pool.taken ++ h.pool.queue.take h.pool.pastTest).filterMap id) ∧
        (h'.executed.Perm (h.pool.queued.filterMap id) ↔
          (h.pool.queue.drop h.pool.pastTest).filterMap id = [])) :=
  stop_executes (by decide) 0 _ _

/-- The only worker is in a task when `stop` is called, and does not come back to the queue. -/
theorem queued_task_dropped :
    ∃ h : PoolHistory ℕ,
      machine.run (start 1 0) [.testRunning 0, .run ⟨.other 0, some 1⟩ 0,
        .take 0 ⟨.other 0, none⟩, .run ⟨.other 0, some 2⟩ 0] = .ok h ∧
      h.pool.queued = [some 1, some 2] ∧
      ∃ h', machine.run h [.stop, .taskReturns 0, .testRunning 0] = .ok h' ∧ h'.Joined ∧
        h'.executed = [1] ∧ h'.pool.queue = [some 2] := by
  decide

end PoolHistory

end Firey
