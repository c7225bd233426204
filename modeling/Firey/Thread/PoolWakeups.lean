import Firey.Thread.ThreadPool

/-!
# No task and no producer of a `ThreadPoolff` is left asleep

For the workers it is enough that one of them is not blocked while there is something to take:
whoever blocks has found the queue empty, and whoever puts a task into the queue notifies a
blocked worker if there is one.  For the producers one has to count (`Inv.slots`): while one of
them is blocked, every free place in the queue has its notification under way.  A producer that
finds the place taken by another uses up a notification without a place, but then the queue is
full again.
-/

set_option autoImplicit false

namespace Firey

namespace ThreadPool

variable {α : Type}

/-- `k` is one in the middle of a step, in which a producer has taken a notification away. -/
structure Inv (s : ThreadPool α) (k : ℕ) : Prop where
  conserved : s.queued = s.taken ++ s.queue
  bounded : 0 < s.maxQueueSize → s.queue.length ≤ s.maxQueueSize
  limited : s.notFull.blocked ≠ [] → 0 < s.maxQueueSize
  slots : s.running = true → s.notFull.blocked ≠ [] →
    s.maxQueueSize ≤ s.queue.length + s.notFull.notified.length + k
  producers : (s.notFull.waiters.map Producer.thread).Nodup
  workers : s.notEmpty.waiters.Nodup
  waiting : ∀ w ∈ s.notEmpty.waiters, s.threads[w]? = some .waiting
  nonempty : 0 < s.threads.length
  tasks : s.running = true → s.queue ≠ [] → ∃ w < s.threads.length, w ∉ s.notEmpty.blocked

lemma start_inv {numThreads : ℕ} (hn : 0 < numThreads) (maxQueueSize : ℕ) :
    (start numThreads maxQueueSize : ThreadPool α).Inv 0 where
  conserved := rfl
  bounded _ := Nat.zero_le _
  limited h := absurd rfl h
  slots _ h := absurd rfl h
  producers := List.nodup_nil
  workers := List.nodup_nil
  waiting _ h := nomatch h
  nonempty := by
    rw [start, List.length_replicate]
    exact hn
  tasks _ h := absurd rfl h

/-! ## The critical sections -/

namespace Inv

variable {s : ThreadPool α} {k w : ℕ} {p : Producer α}

lemma isFull_iff : s.isFull = true ↔ 0 < s.maxQueueSize ∧ s.maxQueueSize ≤ s.queue.length :=
  decide_eq_true_iff

/-- A worker that is blocked is notified of a task, and if there is none, all are awake. -/
lemma notified (h : s.Inv k) (pick : ℕ) :
    ∃ w < s.threads.length, w ∉ (s.notEmpty.notify pick).blocked := by
  rcases s.notEmpty.notify_cases pick with ⟨hnone, heq⟩ | ⟨t, ht, heq⟩
  · refine ⟨0, h.nonempty, ?_⟩
    rw [heq, hnone]
    exact List.not_mem_nil
  · have hwaiting := h.waiting t (Condition.mem_waiters_of_blocked ht)
    refine ⟨t, (List.getElem?_eq_some_iff.mp hwaiting).1, ?_⟩
    have hnodup := (s.notEmpty.notify_waiters pick).nodup_iff.mpr h.workers
    refine Condition.not_blocked_of_notified hnodup ?_
    rw [heq]
    exact List.mem_append_right _ (List.mem_singleton_self t)

/-- A worker that is not in `notEmpty_.wait()` is not among those that wait. -/
lemma not_waiter (h : s.Inv k) {phase : WorkerPhase α} (hphase : s.threads[w]? = some phase)
    (hne : phase ≠ .waiting) : w ∉ s.notEmpty.waiters :=
  fun hw => hne (Option.some.inj (hphase.symm.trans (h.waiting w hw)))

/-- The worker goes on to another phase. -/
lemma set_thread (h : s.Inv k) (hw : w ∉ s.notEmpty.waiters) (phase : WorkerPhase α) :
    ({ s with threads := s.threads.set w phase } : ThreadPool α).Inv k := by
  refine ⟨h.conserved, h.bounded, h.limited, h.slots, h.producers, h.workers, fun v hv => ?_, ?_,
    fun hr hq => ?_⟩
  · rw [List.getElem?_set_ne (by rintro rfl; exact hw hv)]
    exact h.waiting v hv
  · rw [List.length_set]
    exact h.nonempty
  · rw [List.length_set]
    exact h.tasks hr hq

lemma leaveEmpty (h : s.Inv 0) (hw : s.notEmpty.Awake w) :
    ({ s with notEmpty := s.notEmpty.leave w } : ThreadPool α).Inv 0 ∧
      w ∉ (s.notEmpty.leave w).waiters := by
  have hperm := Condition.leave_waiters hw
  have hnodup := h.workers
  rw [hperm.nodup_iff, List.nodup_cons] at hnodup
  refine ⟨⟨h.conserved, h.bounded, h.limited, h.slots, h.producers, hnodup.2, fun v hv => ?_,
    h.nonempty, fun hr hq => ?_⟩, hnodup.1⟩
  · exact h.waiting v (hperm.mem_iff.mpr (List.mem_cons_of_mem _ hv))
  · rw [Condition.blocked_leave]
    exact h.tasks hr hq

lemma wakeWorker (h : s.Inv 0) (w : ℕ) :
    ({ s with notEmpty := s.notEmpty.wake w } : ThreadPool α).Inv 0 := by
  have hperm := s.notEmpty.wake_waiters w
  refine ⟨h.conserved, h.bounded, h.limited, h.slots, h.producers, hperm.nodup_iff.mpr h.workers,
    fun v hv => h.waiting v (hperm.mem_iff.mp hv), h.nonempty, fun hr hq => ?_⟩
  obtain ⟨v, hlt, hv⟩ := h.tasks hr hq
  exact ⟨v, hlt, fun hb => hv (Condition.blocked_wake_subset hb)⟩

lemma stop (h : s.Inv 0) : s.stop.Inv 0 := by
  refine ⟨h.conserved, h.bounded, fun hb => absurd rfl hb, nofun, ?_, ?_, fun v hv => ?_,
    h.nonempty, nofun⟩
  · unfold ThreadPool.stop
    rw [((Condition.notifyAll_waiters s.notFull).map _).nodup_iff]
    exact h.producers
  · exact (Condition.notifyAll_waiters s.notEmpty).nodup_iff.mpr h.workers
  · exact h.waiting v ((Condition.notifyAll_waiters s.notEmpty).mem_iff.mp hv)

/-- **The critical section of `run`**, in which a notification may have been used up. -/
lemma run (h : s.Inv 1) (hp : ∀ q ∈ s.notFull.waiters, q.thread ≠ p.thread) (pick : ℕ) :
    ∃ t, s.run p pick = .ok t ∧ t.Inv 0 := by
  unfold ThreadPool.run
  by_cases hwait : s.isFull = true ∧ s.running = true
  · rw [if_pos hwait]
    obtain ⟨hmax, hfull⟩ := isFull_iff.mp hwait.1
    refine ⟨_, rfl, h.conserved, h.bounded, fun _ => hmax, fun _ _ => ?_, ?_, h.workers, h.waiting,
      h.nonempty, h.tasks⟩
    · dsimp only
      omega
    · rw [(Condition.wait_waiters.map _).nodup_iff, List.map_cons, List.nodup_cons]
      refine ⟨fun hmem => ?_, h.producers⟩
      obtain ⟨q, hq, hthread⟩ := List.mem_map.mp hmem
      exact hp q hq hthread
  · rw [if_neg hwait]
    by_cases hrunning : s.running = false
    · rw [if_pos hrunning]
      refine ⟨s, rfl, h.conserved, h.bounded, h.limited, fun hr => ?_, h.producers, h.workers,
        h.waiting, h.nonempty, h.tasks⟩
      exact nomatch hrunning.symm.trans hr
    · rw [if_neg hrunning]
      have hfull : s.isFull = false := by
        by_contra hfull
        exact hwait ⟨eq_true_of_ne_false hfull, eq_true_of_ne_false hrunning⟩
      have hroom : 0 < s.maxQueueSize → s.queue.length < s.maxQueueSize := by
        intro hmax
        by_contra hle
        rw [isFull_iff.mpr ⟨hmax, Nat.le_of_not_lt hle⟩] at hfull
        exact nomatch hfull
      rw [check_true hfull, ok_bind]
      refine ⟨_, rfl, ?_, fun hmax => ?_, h.limited, fun hr hb => ?_, h.producers, ?_,
        fun w hw => ?_, h.nonempty, fun _ _ => h.notified pick⟩
      · rw [h.conserved, List.append_assoc]
      · rw [List.length_append]
        exact hroom hmax
      · have hslots := h.slots hr hb
        dsimp only
        rw [List.length_append, List.length_singleton]
        omega
      · exact (s.notEmpty.notify_waiters pick).nodup_iff.mpr h.workers
      · exact h.waiting w ((s.notEmpty.notify_waiters pick).mem_iff.mp hw)

variable [DecidableEq α]

/-- The place of a task that is taken has its notification, if anybody waits for it. -/
lemma slots_notify (h : s.Inv 0) {task : Task α} {rest : List (Task α)}
    (hq : s.queue = task :: rest) (hr : s.running = true) (pick : Producer α)
    (hb : (s.notFull.notify pick).blocked ≠ []) :
    s.maxQueueSize ≤ rest.length + (s.notFull.notify pick).notified.length := by
  rcases s.notFull.notify_cases pick with ⟨hnone, heq⟩ | ⟨q, hq', heq⟩
  · rw [heq] at hb
    exact absurd hnone hb
  · have hslots := h.slots hr (List.ne_nil_of_mem hq')
    rw [hq, List.length_cons] at hslots
    rw [heq, List.length_append, List.length_singleton]
    omega

/-- **The critical section of `take`.** -/
lemma take (h : s.Inv 0) (hw : w ∉ s.notEmpty.waiters) (hlt : w < s.threads.length)
    (pick : Producer α) : (s.take w pick).Inv 0 := by
  unfold ThreadPool.take
  by_cases hwait : s.queue = [] ∧ s.running = true
  · rw [if_pos hwait]
    have hset := h.set_thread hw .waiting
    refine ⟨hset.conserved, hset.bounded, hset.limited, hset.slots, hset.producers, ?_,
      fun v hv => ?_, hset.nonempty, fun _ hq => absurd hwait.1 hq⟩
    · rw [Condition.wait_waiters.nodup_iff, List.nodup_cons]
      exact ⟨hw, h.workers⟩
    · rcases List.mem_cons.mp (Condition.wait_waiters.mem_iff.mp hv) with rfl | hv
      · exact List.getElem?_set_self hlt
      · exact hset.waiting v hv
  · rw [if_neg hwait]
    split
    next hq => exact h.set_thread hw _
    next task rest hq =>
      have hset := h.set_thread hw (afterTake task)
      have hnotify : (if 0 < s.maxQueueSize then s.notFull.notify pick else s.notFull).waiters.Perm
          s.notFull.waiters := by
        split_ifs
        · exact s.notFull.notify_waiters pick
        · exact .refl _
      have hblocked : (if 0 < s.maxQueueSize then s.notFull.notify pick else s.notFull).blocked ⊆
          s.notFull.blocked := by
        split_ifs
        · exact Condition.blocked_notify_subset
        · exact List.Subset.refl _
      refine ⟨?_, fun hmax => ?_, fun hb => ?_, fun hr hb => ?_, ?_, hset.workers, hset.waiting,
        hset.nonempty, fun _ _ => ⟨w, ?_, fun hb => hw (Condition.mem_waiters_of_blocked hb)⟩⟩
      · rw [h.conserved, hq, List.append_assoc]
        rfl
      · have hbounded := h.bounded hmax
        rw [hq] at hbounded
        exact Nat.le_of_succ_le hbounded
      · exact h.limited fun hnone => hb (List.eq_nil_of_subset_nil (hnone ▸ hblocked))
      · have hmax : 0 < s.maxQueueSize :=
          h.limited fun hnone => hb (List.eq_nil_of_subset_nil (hnone ▸ hblocked))
        dsimp only at hb ⊢
        rw [if_pos hmax] at hb ⊢
        exact h.slots_notify hq hr pick hb
      · rw [(hnotify.map _).nodup_iff]
        exact h.producers
      · rw [List.length_set]
        exact hlt

lemma leaveFull (h : s.Inv 0) (hp : s.notFull.Awake p) :
    ({ s with notFull := s.notFull.leave p } : ThreadPool α).Inv 1 ∧
      ∀ q ∈ (s.notFull.leave p).waiters, q.thread ≠ p.thread := by
  have hnodup := h.producers
  rw [((Condition.leave_waiters hp).map _).nodup_iff, List.map_cons, List.nodup_cons] at hnodup
  refine ⟨⟨h.conserved, h.bounded, fun hb => ?_, fun hr hb => ?_, hnodup.2, h.workers, h.waiting,
    h.nonempty, h.tasks⟩, fun q hq hthread => ?_⟩
  · rw [Condition.blocked_leave] at hb
    exact h.limited hb
  · rw [Condition.blocked_leave] at hb
    have hslots := h.slots hr hb
    have hlength := Condition.length_notified_leave (c := s.notFull) (t := p)
    dsimp only
    omega
  · exact hnodup.1 (hthread ▸ List.mem_map_of_mem hq)

lemma wakeProducer (h : s.Inv 0) (p : Producer α) :
    ({ s with notFull := s.notFull.wake p } : ThreadPool α).Inv 0 := by
  have hsome (hb : (s.notFull.wake p).blocked ≠ []) : s.notFull.blocked ≠ [] := fun hnone =>
    hb (List.eq_nil_of_subset_nil (hnone ▸ Condition.blocked_wake_subset))
  refine ⟨h.conserved, h.bounded, fun hb => h.limited (hsome hb), fun hr hb => ?_, ?_, h.workers,
    h.waiting, h.nonempty, h.tasks⟩
  · rw [Condition.notified_wake]
    exact h.slots hr (hsome hb)
  · rw [((s.notFull.wake_waiters p).map _).nodup_iff]
    exact h.producers

end Inv

variable [DecidableEq α]

/-! ## Steps -/

/-- **Every step** succeeds and keeps the invariant. -/
theorem step_inv {s : ThreadPool α} (h : s.Inv 0) (i : PoolInput α) :
    ∃ t, s.step i = .ok t ∧ t.Inv 0 := by
  have hone : s.Inv 1 := ⟨h.conserved, h.bounded, h.limited,
    fun hr hb => Nat.le_succ_of_le (h.slots hr hb), h.producers, h.workers, h.waiting, h.nonempty,
    h.tasks⟩
  cases i with
  | run p pick =>
    unfold step
    dsimp only
    split
    next hmay => exact hone.run hmay.1.1 pick
    next => exact ⟨s, rfl, h⟩
  | runAgain p pick =>
    unfold step
    dsimp only
    split
    next hawake =>
      obtain ⟨hleft, hp⟩ := h.leaveFull hawake
      exact hleft.run hp pick
    next => exact ⟨s, rfl, h⟩
  | wakeProducer p => exact ⟨_, rfl, h.wakeProducer p⟩
  | testRunning w =>
    unfold step
    dsimp only
    split
    next hphase => exact ⟨_, rfl, h.set_thread (h.not_waiter hphase nofun) _⟩
    next => exact ⟨s, rfl, h⟩
  | take w pick =>
    unfold step
    dsimp only
    split
    next hphase =>
      have hlt := (List.getElem?_eq_some_iff.mp hphase).1
      exact ⟨_, rfl, h.take (h.not_waiter hphase nofun) hlt pick⟩
    next => exact ⟨s, rfl, h⟩
  | takeAgain w pick =>
    unfold step
    dsimp only
    split
    next hawake =>
      obtain ⟨hleft, hw⟩ := h.leaveEmpty hawake
      have hwaiting := h.waiting w (Condition.mem_waiters_of_awake hawake)
      exact ⟨_, rfl, hleft.take hw (List.getElem?_eq_some_iff.mp hwaiting).1 pick⟩
    next => exact ⟨s, rfl, h⟩
  | wakeWorker w => exact ⟨_, rfl, h.wakeWorker w⟩
  | taskReturns w =>
    unfold step
    dsimp only
    split
    next hmay =>
      refine ⟨_, rfl, h.set_thread (fun hw => ?_) _⟩
      have htask := hmay.2 w rfl
      rw [inTask, h.waiting w hw] at htask
      exact nomatch htask
    next => exact ⟨s, rfl, h⟩
  | stop => exact ⟨_, rfl, h.stop⟩

/-! ## What the pool promises -/

/-- Nothing of the history is taken back. -/
def Extends (s t : ThreadPool α) : Prop := s.queued <+: t.queued ∧ s.taken <+: t.taken

omit [DecidableEq α] in
lemma Extends.refl (s : ThreadPool α) : s.Extends s := ⟨List.prefix_rfl, List.prefix_rfl⟩

omit [DecidableEq α] in
lemma run_extends {s t : ThreadPool α} {p : Producer α} {pick : ℕ} (h : s.run p pick = .ok t) :
    s.Extends t := by
  unfold run at h
  split_ifs at h
  · cases h
    exact .refl _
  · cases h
    exact .refl _
  · obtain ⟨-, -, h⟩ := bind_eq_ok h
    cases h
    exact ⟨List.prefix_append _ _, List.prefix_rfl⟩

lemma take_extends (s : ThreadPool α) (w : ℕ) (pick : Producer α) :
    s.Extends (s.take w pick) := by
  unfold take
  by_cases hwait : s.queue = [] ∧ s.running = true
  · rw [if_pos hwait]
    exact .refl _
  · rw [if_neg hwait]
    split
    · exact .refl _
    · exact ⟨List.prefix_rfl, List.prefix_append _ _⟩

lemma step_extends {s t : ThreadPool α} {i : PoolInput α} (h : s.step i = .ok t) :
    s.Extends t := by
  cases i with
  | run p pick =>
    unfold step at h
    dsimp only at h
    split at h
    · exact run_extends h
    · cases h
      exact .refl _
  | runAgain p pick =>
    unfold step at h
    dsimp only at h
    split at h
    · exact run_extends (s := { s with notFull := s.notFull.leave p }) h
    · cases h
      exact .refl _
  | take w pick =>
    unfold step at h
    dsimp only at h
    split at h
    · cases h
      exact take_extends s w pick
    · cases h
      exact .refl _
  | takeAgain w pick =>
    unfold step at h
    dsimp only at h
    split at h
    · cases h
      exact take_extends { s with notEmpty := s.notEmpty.leave w } w pick
    · cases h
      exact .refl _
  | testRunning w =>
    unfold step at h
    dsimp only at h
    split at h <;> cases h <;> exact .refl _
  | taskReturns w =>
    unfold step at h
    dsimp only at h
    split at h <;> cases h <;> exact .refl _
  | wakeProducer p =>
    cases h
    exact .refl _
  | wakeWorker w =>
    cases h
    exact .refl _
  | stop =>
    cases h
    exact .refl _

/-- The tasks taken and those in the queue are the tasks queued, in order; the queue keeps its
bound; while the pool runs, a task in the queue has a worker that is not blocked, and a place in
the queue has, for each producer that is blocked, a notification of another. -/
def Safe : RunSpec (ThreadPool α) Fault where
  good s := s.queued = s.taken ++ s.queue ∧
    (0 < s.maxQueueSize → s.queue.length ≤ s.maxQueueSize) ∧
    (s.running = true → s.queue ≠ [] → ∃ w < s.threads.length, w ∉ s.notEmpty.blocked) ∧
    (s.running = true → s.isFull = false → ∀ p ∈ s.notFull.blocked,
      ∃ q ∈ s.notFull.notified, q.thread ≠ p.thread)
  move := Extends
  stop _ := False

omit [DecidableEq α] in
/-- A producer that is blocked where there is room is not the only one to be there. -/
lemma Inv.notified_other {s : ThreadPool α} (h : s.Inv 0) (hr : s.running = true)
    (hroom : s.isFull = false) {p : Producer α} (hp : p ∈ s.notFull.blocked) :
    ∃ q ∈ s.notFull.notified, q.thread ≠ p.thread := by
  have hblocked := List.ne_nil_of_mem hp
  have hslots := h.slots hr hblocked
  have hlt : s.queue.length < s.maxQueueSize := by
    by_contra hle
    rw [Inv.isFull_iff.mpr ⟨h.limited hblocked, Nat.le_of_not_lt hle⟩] at hroom
    exact nomatch hroom
  have hpos : 0 < s.notFull.notified.length := by omega
  obtain ⟨q, hq⟩ := List.exists_mem_of_length_pos hpos
  refine ⟨q, hq, fun hthread => ?_⟩
  have hnodup := h.producers
  unfold Condition.waiters at hnodup
  rw [List.map_append, List.map_append] at hnodup
  have hdisjoint := (List.nodup_append.mp (List.nodup_append.mp hnodup).1).2.2
  exact hdisjoint _ (List.mem_map_of_mem hp) _ (List.mem_map_of_mem hq) hthread.symm

/-- **The pool is safe** and loses no wakeup, with any number of workers and in every
interleaving of the critical sections. -/
theorem pool_safe {numThreads : ℕ} (hn : 0 < numThreads) (maxQueueSize : ℕ)
    (is : List (PoolInput α)) : machine.Meets Safe (start numThreads maxQueueSize) is := by
  refine machine.meets_of_sound (P := fun _ _ => True) (I := fun s => s.Inv 0) ?_ ?_
    (start_inv hn maxQueueSize) (machine.along_of_forall (fun _ _ => trivial) _ _)
  · intro s h
    exact ⟨h.conserved, h.bounded, h.tasks, fun hr hroom _ hp => h.notified_other hr hroom hp⟩
  · intro s i h _
    change Safe.Sound _ s (s.step i)
    obtain ⟨t, ht, hinv⟩ := step_inv h i
    rw [ht]
    exact ⟨hinv, step_extends ht⟩

/-- One worker and room for one task.  Two producers wait; one of them is notified and puts its
task into the queue, the other one wakes for no reason, and has to wait again. -/
theorem pool_safe_two : machine.Meets Safe (start 1 1 : ThreadPool ℕ)
    [.testRunning 0, .take 0 ⟨.other 0, none⟩, .run ⟨.other 0, some 10⟩ 0,
      .run ⟨.other 1, some 11⟩ 0, .run ⟨.other 2, some 12⟩ 0, .takeAgain 0 ⟨.other 1, some 11⟩,
      .wakeProducer ⟨.other 2, some 12⟩, .runAgain ⟨.other 1, some 11⟩ 0,
      .runAgain ⟨.other 2, some 12⟩ 0, .taskReturns 0, .testRunning 0,
      .take 0 ⟨.other 2, some 12⟩, .stop] :=
  pool_safe Nat.one_pos 1 _

end ThreadPool

end Firey
