import Firey.Net.TimerThreads

/-!
# When cancelling a timer keeps it from running

`cancelInLoop` deletes a timer it finds in the queue, and otherwise puts the id aside while a
batch is run; only `reset` looks at what was put aside.  So a cancelled timer that is alive is
safe in one place alone, among the timers of the batch that have started: `Dead`.  There are two
other places a timer of which the id is known can be in, the part of the batch that has not
started and a queued `addTimerInLoop`, and a cancel that meets it there is lost.

Between threads the order of the functor queue keeps the second from happening, since an id is
known only when its `addTimerInLoop` has been pushed (`Calls.fifo`).  What is left are the
cancels that run at once, those the loop thread makes itself: `CancelInTime`.
-/

set_option autoImplicit false

namespace Firey

namespace TimerThreads

/-! ## What is on its way to the queue -/

/-- The functors that have not been called. -/
def tasks (s : TimerThreads) : List TimerTask :=
  (s.functors.batch ++ s.functors.queue).map Posted.item

/-- The timers that functors will add. -/
def adds (l : List TimerTask) : List TimerPtr :=
  l.filterMap fun
    | .addTimerInLoop p => some p
    | .cancelInLoop _ => none

/-- The timers that other threads have made and that are not in the queue yet. -/
def inFlight (s : TimerThreads) : List TimerPtr :=
  s.made.map (fun w => w.2.ptr) ++ adds s.tasks

/-- The timers outside the queue. -/
def loose (s : TimerThreads) : List TimerPtr :=
  s.phase.batch.map TimerNode.ptr ++ s.inFlight

/-- The timer with this id is alive. -/
def Alive (q : TimerQueue) (timerId : ActiveTimer) : Prop :=
  (q.heap timerId.ptr).map Timer.sequence = some timerId.sequence

instance (q : TimerQueue) (timerId : ActiveTimer) : Decidable (Alive q timerId) :=
  inferInstanceAs (Decidable (_ = _))

/-- A cancel that the loop thread executes at once does not meet the timer in the part of the
batch that has not started, nor in a queued `addTimerInLoop`. -/
def CancelInTime (s : TimerThreads) : ThreadInput → Prop
  | .cancel timerId => Alive s.queue timerId →
      timerId.ptr ∉ s.phase.toRun.map TimerNode.ptr ∧ timerId.ptr ∉ adds s.tasks
  | _ => True

instance (s : TimerThreads) (i : ThreadInput) : Decidable (s.CancelInTime i) := by
  cases i <;> unfold CancelInTime <;> infer_instance

/-- A functor that cancels a timer is not before the functor that adds it. -/
def InOrder (q : TimerQueue) : TimerTask → TimerTask → Prop
  | .cancelInLoop timerId, .addTimerInLoop p => p = timerId.ptr → ¬ Alive q timerId
  | _, _ => True

/-- A cancelled timer that is alive has been started in this batch, and will not be put back. -/
def Dead (s : TimerThreads) (timerId : ActiveTimer) : Prop :=
  Alive s.queue timerId →
    timerId.ptr ∈ s.phase.batch.map TimerNode.ptr ∧
      timerId.ptr ∉ s.phase.toRun.map TimerNode.ptr ∧ timerId ∈ s.queue.cancelingTimers

/-- The event does not start a timer that the earlier one has cancelled. -/
def NotAfter : TimerEvent → TimerEvent → Prop
  | .cancelled timerId, .started timerId' => timerId ≠ timerId'
  | _, _ => True

instance : DecidableRel NotAfter := by
  intro a b
  cases a <;> cases b <;> unfold NotAfter <;> infer_instance

/-! ## The invariant -/

/-- What is known about the calls of the other threads. -/
structure Calls (s : TimerThreads) : Prop where
  made_alive : ∀ w ∈ s.made, Alive s.queue w.2
  known_le : ∀ timerId ∈ s.returned ++ s.pushed.map Prod.snd,
    timerId.sequence ≤ s.queue.timerCreated
  known_ne : ∀ timerId ∈ s.returned ++ s.pushed.map Prod.snd, ∀ w ∈ s.made,
    w.2.sequence ≠ timerId.sequence
  tasks_returned : ∀ timerId, .cancelInLoop timerId ∈ s.tasks → timerId ∈ s.returned
  fifo : s.tasks.Pairwise (InOrder s.queue)

structure Inv (s : TimerThreads) : Prop extends s.Calls where
  good : s.queue.Good s.loose
  toRun_mem : ∀ p ∈ s.phase.toRun.map TimerNode.ptr, p ∈ s.phase.batch.map TimerNode.ptr
  calling : s.queue.callingExpiredTimers = s.inCallback
  cancelled_returned : ∀ timerId, .cancelled timerId ∈ s.log → timerId ∈ s.returned
  dead : ∀ timerId, .cancelled timerId ∈ s.log → s.Dead timerId
  log : s.log.Pairwise NotAfter

lemma start_inv (n : ℕ) (clock : Timestamp) : (start n clock).Inv where
  made_alive := fun _ h => nomatch h
  known_le := fun _ h => nomatch h
  known_ne := fun _ h => nomatch h
  tasks_returned := fun _ h => nomatch h
  fifo := .nil
  good := TimerQueue.start_good n
  toRun_mem := fun _ h => nomatch h
  calling := rfl
  cancelled_returned := fun _ h => nomatch h
  dead := fun _ h => nomatch h
  log := .nil

variable {s t : TimerThreads} {p : TimerPtr} {timerId : ActiveTimer} {q q' : TimerQueue}

lemma alive_iff : Alive q timerId ↔
    ∃ tm, q.heap timerId.ptr = some tm ∧ tm.sequence = timerId.sequence := by
  rw [Alive, Option.map_eq_some_iff]

/-- A timer stays what it is as long as its address does. -/
lemma alive_congr (h : q'.heap timerId.ptr = q.heap timerId.ptr) :
    Alive q' timerId ↔ Alive q timerId := by
  rw [Alive, Alive, h]

lemma mem_adds {l : List TimerTask} : p ∈ adds l ↔ .addTimerInLoop p ∈ l := by
  unfold adds
  rw [List.mem_filterMap]
  constructor
  · rintro ⟨task, hmem, htask⟩
    split at htask
    · cases htask
      exact hmem
    · cases htask
  · intro hmem
    exact ⟨_, hmem, rfl⟩

lemma tasks_post (s : TimerThreads) (task : TimerTask) :
    tasks { s with functors := s.functors.post task } = s.tasks ++ [task] := by
  simp [tasks, Mailbox.post]

lemma adds_append (l l' : List TimerTask) : adds (l ++ l') = adds l ++ adds l' :=
  List.filterMap_append

lemma inCallback_of_mem_batch (h : p ∈ s.phase.batch.map TimerNode.ptr) : s.inCallback = true := by
  unfold inCallback
  rcases hphase : s.phase
  · rw [hphase] at h
    exact nomatch h
  · rfl

/-! ### What the steps of the other threads do to the timers outside the queue -/

lemma loose_of_idle (h : s.phase = .idle) : s.loose = s.inFlight := by
  rw [loose, h]
  rfl

lemma tasks_swap (hidle : s.betweenFunctors = true) :
    tasks { s with functors := s.functors.collect } = s.tasks := by
  have hbatch : s.functors.batch = [] := by
    unfold betweenFunctors at hidle
    split at hidle
    · exact List.isEmpty_iff.mp hidle
    · cases hidle
  simp [tasks, hbatch]

/-- The functor that is called next, and what is left when it has been taken. -/
lemma tasks_take {task : TimerTask} (hhead : s.functors.head? = some task) :
    s.tasks = task :: tasks { s with functors := s.functors.take .loopThread } := by
  unfold Mailbox.head? at hhead
  obtain ⟨post, hpost, rfl⟩ := Option.map_eq_some_iff.mp hhead
  obtain ⟨rest, hbatch⟩ := List.head?_eq_some_iff.mp hpost
  rw [tasks, tasks, Mailbox.take_batch, Mailbox.take_queue, hbatch]
  rfl

/-- The timer of a functor that is taken is held by nobody else. -/
lemma loose_take (hidle : s.phase = .idle) (hhead : s.functors.head? = some (.addTimerInLoop p)) :
    s.loose.Perm (p :: loose { s with functors := s.functors.take .loopThread }) := by
  rw [loose, loose, inFlight, inFlight, tasks_take hhead, hidle]
  exact List.perm_middle

lemma loose_take_cancel (hhead : s.functors.head? = some (.cancelInLoop timerId)) :
    loose { s with functors := s.functors.take .loopThread } = s.loose := by
  rw [loose, loose, inFlight, inFlight, tasks_take hhead]
  rfl

lemma loose_swap (hidle : s.betweenFunctors = true) :
    loose { s with functors := s.functors.collect } = s.loose := by
  rw [loose, loose, inFlight, inFlight, tasks_swap hidle]

lemma loose_remoteNew (s : TimerThreads) (th : ThreadId) (p : TimerPtr) (when interval : ℤ)
    (isRepeat : Bool) : (p :: s.loose).Perm (s.remoteNew th p when interval isRepeat).loose := by
  unfold loose inFlight TimerThreads.remoteNew
  simp only [List.map_append, List.map_cons, List.map_nil, List.append_assoc]
  rw [← List.append_assoc, ← List.append_assoc]
  exact List.perm_middle.symm

lemma tasks_remotePush (s : TimerThreads) (w : ThreadId × ActiveTimer) :
    (s.remotePush w).tasks = s.tasks ++ [.addTimerInLoop w.2.ptr] := s.tasks_post _

lemma loose_remotePush {w : ThreadId × ActiveTimer} (hw : w ∈ s.made) :
    s.loose.Perm (s.remotePush w).loose := by
  rw [loose, loose, inFlight, inFlight, s.tasks_remotePush, adds_append]
  refine List.Perm.append_left _ ?_
  have hperm := (List.perm_cons_erase hw).map fun w => w.2.ptr
  refine (hperm.append_right _).trans ?_
  rw [List.map_cons, List.cons_append, ← List.append_assoc]
  exact (List.perm_append_singleton _ _).symm

lemma loose_remoteCancel (s : TimerThreads) (timerId : ActiveTimer) :
    loose { s with functors := s.functors.post (.cancelInLoop timerId) } = s.loose := by
  have hadds : adds (s.tasks ++ [.cancelInLoop timerId]) = adds s.tasks := by
    rw [adds_append]
    exact List.append_nil _
  rw [loose, loose, inFlight, inFlight, s.tasks_post, hadds]

lemma arm_queue (s : TimerThreads) (r : Option Timestamp) : (s.arm r).queue = s.queue := by
  cases r <;> rfl

lemma arm_loose (s : TimerThreads) (r : Option Timestamp) : (s.arm r).loose = s.loose := by
  cases r <;> rfl

/-! ### The end of a batch -/

/-- What `reset` is given after the last callback. -/
lemma good_endBatch (h : s.queue.Good s.loose) {now : Timestamp} {expired : List TimerNode}
    (hphase : s.phase = .calling now expired []) :
    TimerQueue.Good { s.queue with callingExpiredTimers := false }
      (expired.map TimerNode.ptr ++ s.inFlight) := by
  rw [loose, hphase] at h
  exact h.of_eq rfl rfl rfl rfl (le_refl _) rfl

/-- A batch has each of its timers once. -/
lemma batch_nodup (h : s.queue.Good s.loose) {now : Timestamp} {expired toRun : List TimerNode}
    (hphase : s.phase = .calling now expired toRun) : (expired.map TimerNode.ptr).Nodup := by
  have hloose := h.loose_nodup
  rw [loose, hphase] at hloose
  exact (List.nodup_append.mp hloose).1

/-- What is on its way to the queue is not in the batch. -/
lemma notMem_batch_of_inFlight (h : s.queue.Good s.loose) (hp : p ∈ s.inFlight) :
    p ∉ s.phase.batch.map TimerNode.ptr := by
  intro hmem
  exact (List.nodup_append.mp h.loose_nodup).2.2 p hmem p hp rfl

lemma next_endBatch {now : Timestamp} {expired : List TimerNode}
    (hphase : s.phase = .calling now expired []) {q : TimerQueue} {r : Option Timestamp}
    (hreset : { s.queue with callingExpiredTimers := false }.reset expired now = .ok (q, r)) :
    s.next = .ok ({ s with queue := q, phase := .idle }.arm r) := by
  unfold TimerThreads.next
  rw [hphase]
  dsimp only
  rw [hreset, ok_bind]

/-! ### The queue is right in every run -/

lemma cancelInLoop_good (h : s.queue.Good s.loose) (hcancel : s.cancelInLoop timerId = .ok t) :
    t.queue.Good t.loose := by
  obtain ⟨q, hq, hcancel⟩ := bind_eq_ok hcancel
  cases hcancel
  obtain ⟨q', hq', hgood⟩ := h.cancelInLoop timerId
  cases hq.symm.trans hq'
  exact hgood

/-- **Every step** keeps the representation invariant of the queue, with the timers outside it
as the loose ones. -/
theorem step_good (h : s.queue.Good s.loose) {i : ThreadInput} (hstep : s.step i = .ok t) :
    t.queue.Good t.loose := by
  cases step_outcome hstep with
  | nothing => exact h
  | tick => exact h
  | addTimer hfree hadd =>
    obtain ⟨⟨q, r, timerId⟩, hq, hadd⟩ := bind_eq_ok hadd
    cases hadd
    obtain ⟨q', r', hq', hgood⟩ := h.addTimer hfree.1 hfree.2.2 _ _ _
    cases hq.symm.trans hq'
    rw [arm_queue, arm_loose]
    exact hgood
  | cancel _ hcancel => exact cancelInLoop_good h hcancel
  | handleTimerfdRead hidle hread =>
    obtain ⟨⟨q, expired⟩, hq, hread⟩ := bind_eq_ok hread
    cases hread
    obtain ⟨q', expired', hq', hgood⟩ := h.getExpiredTimer s.clock
    cases hq.symm.trans hq'
    rw [loose_of_idle (phase_of_betweenFunctors hidle)] at hgood
    exact hgood.of_eq rfl rfl rfl rfl (le_refl _) rfl
  | callBack hphase _ => rwa [loose, hphase] at h
  | endBatch hphase hreset =>
    obtain ⟨r', hreset', hgood⟩ := (good_endBatch h hphase).reset _
    cases hreset.symm.trans hreset'
    rw [arm_queue, arm_loose]
    exact hgood
  | swap hidle =>
    rw [loose_swap hidle]
    exact h
  | runAdd hidle hhead hadd =>
    obtain ⟨⟨q, r⟩, hq, hadd⟩ := bind_eq_ok hadd
    cases hadd
    obtain ⟨tm, htm, rfl, -⟩ := TimerQueue.addTimerInLoop_ok hq
    obtain ⟨q', b, hins, hgood, -⟩ := (h.perm (loose_take hidle hhead)).insertTimer
    obtain ⟨tm', htm', rfl, -⟩ := TimerQueue.insertTimer_ok hins
    cases htm'.symm.trans htm
    rw [arm_queue, arm_loose]
    exact hgood
  | runCancel _ hhead hcancel =>
    refine cancelInLoop_good ?_ hcancel
    rw [loose_take_cancel hhead]
    exact h
  | remoteNew hfree =>
    exact (h.newTimer hfree.1 hfree.2.2 _ _ _).perm (s.loose_remoteNew _ _ _ _ _)
  | remotePush hw => exact h.perm (loose_remotePush hw)
  | remoteReturn _ => exact h
  | remoteCancel _ =>
    rw [s.loose_remoteCancel]
    exact h
  | createElsewhere => exact h.of_eq rfl rfl rfl rfl (Nat.le_succ _) rfl

namespace Inv

lemma sequence_le (h : s.Inv) (ha : Alive s.queue timerId) :
    timerId.sequence ≤ s.queue.timerCreated := by
  obtain ⟨tm, htm, hseq⟩ := alive_iff.mp ha
  exact hseq ▸ h.good.sequence_le htm

/-- A timer whose id is known has been pushed. -/
lemma notMem_made (h : s.Inv) (hret : timerId ∈ s.returned) (ha : Alive s.queue timerId) :
    timerId.ptr ∉ s.made.map fun w => w.2.ptr := by
  intro hmem
  obtain ⟨w, hw, hptr⟩ := List.mem_map.mp hmem
  have hne := h.known_ne timerId (List.mem_append_left _ hret) w hw
  have hw := h.made_alive w hw
  unfold Alive at ha hw
  rw [hptr, ha] at hw
  exact hne (Option.some.inj hw).symm

lemma inFlight_loose (hp : p ∈ s.inFlight) : p ∈ s.loose := List.mem_append_right _ hp

/-- A step of the loop thread leaves the calls of the others alone: it does not touch the
timers on their way, and the ids it makes known are new. -/
lemma calls_frame (h : s.Inv) (hmade : t.made = s.made)
    (hknown : ∀ timerId ∈ t.returned ++ t.pushed.map Prod.snd,
      timerId ∈ s.returned ++ s.pushed.map Prod.snd ∨
        s.queue.timerCreated < timerId.sequence ∧ timerId.sequence ≤ t.queue.timerCreated)
    (hret : ∀ timerId ∈ s.returned, timerId ∈ t.returned) (htasks : t.tasks.Sublist s.tasks)
    (hcreated : s.queue.timerCreated ≤ t.queue.timerCreated)
    (hheap : ∀ p ∈ s.inFlight, t.queue.heap p = s.queue.heap p) : t.Calls where
  made_alive := by
    intro w hw
    rw [hmade] at hw
    have hp : w.2.ptr ∈ s.inFlight := List.mem_append_left _ (List.mem_map_of_mem hw)
    exact (alive_congr (hheap _ hp)).mpr (h.made_alive w hw)
  known_le := by
    intro timerId hmem
    rcases hknown timerId hmem with hold | hnew
    · exact (h.known_le timerId hold).trans hcreated
    · exact hnew.2
  known_ne := by
    intro timerId hmem w hw
    rw [hmade] at hw
    rcases hknown timerId hmem with hold | hnew
    · exact h.known_ne timerId hold w hw
    · have hle := h.sequence_le (h.made_alive w hw)
      omega
  tasks_returned := fun timerId hmem => hret timerId (h.tasks_returned timerId (htasks.subset hmem))
  fifo := by
    refine (h.fifo.sublist htasks).imp_of_mem fun {a b} _ hb hab => ?_
    cases a with
    | addTimerInLoop _ => trivial
    | cancelInLoop timerId =>
      cases b with
      | cancelInLoop _ => trivial
      | addTimerInLoop p =>
        intro hp
        have hmem : p ∈ s.inFlight := List.mem_append_right _ (mem_adds.mpr (htasks.subset hb))
        exact (not_congr (alive_congr (hp ▸ hheap p hmem))).mpr (hab hp)

/-- A cancel that comes in time. -/
theorem cancelInLoop (h : s.Inv) (hret : timerId ∈ s.returned)
    (hsafe : Alive s.queue timerId →
      timerId.ptr ∉ s.phase.toRun.map TimerNode.ptr ∧ timerId.ptr ∉ adds s.tasks)
    (hcancel : s.cancelInLoop timerId = .ok t) : t.Inv := by
  have hgood := cancelInLoop_good h.good hcancel
  unfold TimerThreads.cancelInLoop at hcancel
  obtain ⟨q, hq, hcancel⟩ := bind_eq_ok hcancel
  cases hcancel
  have hlog (timerId' : ActiveTimer)
      (hmem : TimerEvent.cancelled timerId' ∈ s.log ++ [TimerEvent.cancelled timerId]) :
      .cancelled timerId' ∈ s.log ∨ timerId' = timerId := by
    simpa using hmem
  have hreturned (timerId' : ActiveTimer)
      (hmem : TimerEvent.cancelled timerId' ∈ s.log ++ [TimerEvent.cancelled timerId]) :
      timerId' ∈ s.returned := by
    rcases hlog timerId' hmem with hold | rfl
    · exact h.cancelled_returned timerId' hold
    · exact hret
  have hpairwise : (s.log ++ [TimerEvent.cancelled timerId]).Pairwise NotAfter := by
    refine List.pairwise_append.mpr ⟨h.log, List.pairwise_singleton _ _, fun a _ b hb => ?_⟩
    rw [List.mem_singleton.mp hb]
    cases a <;> trivial
  rcases TimerQueue.cancelInLoop_ok hq with ⟨hactive, tm, -, rfl⟩ | ⟨hactive, rfl⟩
  · -- the timer is deleted
    have hloose : timerId.ptr ∉ s.loose := ((h.good.active_iff _ _).mp hactive).1
    refine ⟨h.calls_frame rfl (fun _ hmem => Or.inl hmem) (fun _ hmem => hmem) (List.Sublist.refl _)
      le_rfl fun p hp => ?_, hgood, h.toRun_mem, h.calling, hreturned, fun timerId' hmem => ?_,
      hpairwise⟩
    · refine Function.update_of_ne ?_ _ _
      rintro rfl
      exact hloose (inFlight_loose hp)
    · intro ha
      by_cases hptr : timerId'.ptr = timerId.ptr
      · obtain ⟨tm', htm', -⟩ := alive_iff.mp ha
        simp only [hptr, Function.update_self] at htm'
        cases htm'
      · rcases hlog timerId' hmem with hold | rfl
        · exact h.dead timerId' hold ((alive_congr (Function.update_of_ne hptr _ _)).mp ha)
        · exact absurd rfl hptr
  · -- the timer is not in the queue
    refine ⟨h.calls_frame rfl (fun _ hmem => Or.inl hmem) (fun _ hmem => hmem) (List.Sublist.refl _)
      le_rfl fun _ _ => rfl, hgood, h.toRun_mem, h.calling, hreturned, fun timerId' hmem => ?_,
      hpairwise⟩
    intro ha
    have ha : Alive s.queue timerId' := ha
    dsimp only
    rcases hlog timerId' hmem with hold | rfl
    · obtain ⟨hbatch, htoRun, hcanceling⟩ := h.dead timerId' hold ha
      refine ⟨hbatch, htoRun, ?_⟩
      split
      · exact OrderedSet.mem_insert.mpr (Or.inr hcanceling)
      · exact hcanceling
    · obtain ⟨htoRun, hadds⟩ := hsafe ha
      have hbatch : timerId'.ptr ∈ s.phase.batch.map TimerNode.ptr := by
        by_contra hbatch
        refine hactive ((h.good.active_iff timerId'.ptr timerId'.sequence).mpr
          ⟨fun hloose => ?_, alive_iff.mp ha⟩)
        rcases List.mem_append.mp hloose with hmem | hmem
        · exact hbatch hmem
        · rcases List.mem_append.mp hmem with hmade | hadd
          · exact h.notMem_made hret ha hmade
          · exact hadds hadd
      refine ⟨hbatch, htoRun, ?_⟩
      rw [if_pos (h.calling.trans (inCallback_of_mem_batch hbatch))]
      exact OrderedSet.mem_insert.mpr (Or.inl rfl)

/-- The clock and the timerfd do not matter. -/
lemma of_same (h : s.Inv) (hqueue : t.queue = s.queue) (hphase : t.phase = s.phase)
    (hfunctors : t.functors = s.functors) (hmade : t.made = s.made) (hpushed : t.pushed = s.pushed)
    (hreturned : t.returned = s.returned) (hlog : t.log = s.log) : t.Inv := by
  obtain ⟨queue, phase, clock, timerfd, functors, made, pushed, returned, log, written⟩ := t
  dsimp only at hqueue hphase hfunctors hmade hpushed hreturned hlog
  subst hqueue hphase hfunctors hmade hpushed hreturned hlog
  exact ⟨⟨h.made_alive, h.known_le, h.known_ne, h.tasks_returned, h.fifo⟩, h.good, h.toRun_mem,
    h.calling, h.cancelled_returned, h.dead, h.log⟩

lemma arm (h : s.Inv) (r : Option Timestamp) : (s.arm r).Inv := by
  cases r with
  | none => exact h
  | some when => exact h.of_same rfl rfl rfl rfl rfl rfl rfl

/-- A new timer has a number of its own, so no cancelled id becomes alive. -/
lemma dead_newTimer (h : s.Inv) (tm : Timer) (hseq : tm.sequence = s.queue.timerCreated + 1)
    (hheap : q.heap = Function.update s.queue.heap p (some tm))
    (hmem : .cancelled timerId ∈ s.log) (ha : Alive q timerId) : Alive s.queue timerId := by
  by_cases hptr : timerId.ptr = p
  · obtain ⟨tm', htm', hk⟩ := alive_iff.mp ha
    rw [hheap, hptr, Function.update_self] at htm'
    cases htm'
    have hle := h.known_le timerId (List.mem_append_left _ (h.cancelled_returned timerId hmem))
    omega
  · exact (alive_congr (hheap ▸ Function.update_of_ne hptr _ _)).mp ha

lemma addTimer (h : s.Inv) (hgood : t.queue.Good t.loose) (hfree : s.Free p)
    {when interval : ℤ} {isRepeat : Bool}
    (hadd : s.addTimer p when interval isRepeat = .ok t) : t.Inv := by
  unfold TimerThreads.addTimer at hadd
  obtain ⟨⟨q, r, timerId⟩, hq, hadd⟩ := bind_eq_ok hadd
  cases hadd
  rw [arm_queue, arm_loose] at hgood
  obtain ⟨rfl, rfl, -⟩ := TimerQueue.addTimer_ok hq
  suffices hinv : Inv { s with
      queue := (s.queue.newTimer p when interval isRepeat).link p
        ⟨interval, isRepeat, when, s.queue.timerCreated + 1⟩
      returned := s.returned ++ [.mk p (s.queue.timerCreated + 1)] } from hinv.arm r
  refine ⟨h.calls_frame rfl (fun timerId hmem => ?_) (fun _ hmem => ?_)
    (List.Sublist.refl _) (Nat.le_succ _) fun p' hp' => ?_, hgood, h.toRun_mem, h.calling,
    fun timerId hmem => ?_, fun timerId hmem ha => ?_, h.log⟩
  · dsimp only at hmem
    rw [List.append_assoc, List.mem_append, List.mem_append, List.mem_singleton] at hmem
    rcases hmem with hret | rfl | hpushed
    · exact Or.inl (List.mem_append_left _ hret)
    · exact Or.inr ⟨Nat.lt_succ_self _, le_rfl⟩
    · exact Or.inl (List.mem_append_right _ hpushed)
  · exact List.mem_append_left _ hmem
  · refine Function.update_of_ne ?_ _ _
    rintro rfl
    obtain ⟨tm, htm⟩ := h.good.loose_live p' (inFlight_loose hp')
    rw [hfree.1] at htm
    cases htm
  · exact List.mem_append_left _ (h.cancelled_returned timerId hmem)
  · exact h.dead timerId hmem (h.dead_newTimer ⟨interval, isRepeat, when, _⟩ rfl rfl hmem ha)

lemma handleTimerfdRead (h : s.Inv) (hgood : t.queue.Good t.loose)
    (hphase : s.phase = .idle) (hread : s.handleTimerfdRead = .ok t) : t.Inv := by
  unfold TimerThreads.handleTimerfdRead at hread
  obtain ⟨⟨q, expired⟩, hq, hread⟩ := bind_eq_ok hread
  cases hread
  obtain ⟨-, -, heq⟩ := TimerQueue.getExpiredTimer_ok hq
  have hheap : q.heap = s.queue.heap := by rw [heq]
  have hcreated : q.timerCreated = s.queue.timerCreated := by rw [heq]
  refine ⟨h.calls_frame rfl (fun _ hmem => Or.inl hmem) (fun _ hmem => hmem) (List.Sublist.refl _)
    (le_of_eq hcreated.symm) fun p _ => by rw [hheap], hgood, fun _ hmem => hmem, rfl,
    h.cancelled_returned, fun timerId hmem ha => ?_, h.log⟩
  have ha : Alive s.queue timerId := (alive_congr (by rw [hheap])).mp ha
  obtain ⟨hbatch, -, -⟩ := h.dead timerId hmem ha
  rw [hphase] at hbatch
  cases hbatch

/-- The next callback of the batch starts. -/
lemma callBack (h : s.Inv) {now : Timestamp} {expired toRun : List TimerNode} {n : TimerNode}
    {tm : Timer} (hphase : s.phase = .calling now expired (n :: toRun))
    (htm : s.queue.heap n.ptr = some tm) :
    Inv { s with
      phase := .calling now expired toRun
      log := s.log ++ [.started (.mk n.ptr tm.sequence)] } := by
  have hgood := h.good
  have hmem := h.toRun_mem
  have hcalling := h.calling
  have hlog (timerId : ActiveTimer) (hc : TimerEvent.cancelled timerId ∈
      s.log ++ [TimerEvent.started (.mk n.ptr tm.sequence)]) : .cancelled timerId ∈ s.log := by
    simpa using hc
  rw [loose, hphase] at hgood
  rw [hphase] at hmem
  rw [inCallback, hphase] at hcalling
  refine ⟨h.calls_frame rfl (fun _ hk => Or.inl hk) (fun _ hr => hr) (List.Sublist.refl _)
    le_rfl fun _ _ => rfl, hgood, fun p hp => hmem p (List.mem_cons_of_mem _ hp), hcalling,
    fun timerId hc => h.cancelled_returned timerId (hlog timerId hc), fun timerId hc ha => ?_, ?_⟩
  · obtain ⟨hbatch, htoRun, hcanceling⟩ := h.dead timerId (hlog timerId hc) ha
    rw [hphase] at hbatch htoRun
    exact ⟨hbatch, fun hp => htoRun (List.mem_cons_of_mem _ hp), hcanceling⟩
  · refine List.pairwise_append.mpr ⟨h.log, List.pairwise_singleton _ _, fun a ha b hb => ?_⟩
    rw [List.mem_singleton.mp hb]
    cases a with
    | started _ => trivial
    | cancelled timerId =>
      -- a cancelled timer is not among those that have yet to start
      rintro rfl
      obtain ⟨-, htoRun, -⟩ := h.dead _ ha (alive_iff.mpr ⟨tm, htm, rfl⟩)
      rw [hphase] at htoRun
      exact htoRun List.mem_cons_self

/-- The cancelled timers of a batch are deleted at its end. -/
lemma endBatch (h : s.Inv) {now : Timestamp} {expired : List TimerNode} {r : Option Timestamp}
    (hphase : s.phase = .calling now expired [])
    (hreset : { s.queue with callingExpiredTimers := false }.reset expired now = .ok (q, r)) :
    Inv ({ s with queue := q, phase := .idle }.arm r) := by
  have hgood := good_endBatch h.good hphase
  obtain ⟨r', hreset', hgood'⟩ := hgood.reset now
  cases hreset.symm.trans hreset'
  obtain ⟨hback, -⟩ := TimerQueue.reset_ok hreset
  have hdisjoint (p : TimerPtr) (hp : p ∈ s.inFlight) : p ∉ expired.map TimerNode.ptr := by
    have hnot := notMem_batch_of_inFlight h.good hp
    rwa [hphase] at hnot
  suffices hinv : Inv { s with queue := q, phase := .idle } from hinv.arm r
  refine ⟨h.calls_frame rfl (fun _ hk => Or.inl hk) (fun _ hr => hr)
    (List.Sublist.refl _) (le_of_eq hback.timerCreated.symm)
    fun p hp => hback.frame p (hdisjoint p hp), hgood', fun _ hp => (nomatch hp), hback.calling,
    h.cancelled_returned, fun timerId hc ha => ?_, h.log⟩
  obtain ⟨tm, htm, hseq⟩ := alive_iff.mp ha
  obtain ⟨tm', htm', hseq', -, -, hps⟩ := hback.heap _ tm htm
  obtain ⟨hbatch, -, hcanceling⟩ :=
    h.dead timerId hc (alive_iff.mpr ⟨tm', htm', hseq'.symm.trans hseq⟩)
  rw [hphase] at hbatch
  refine absurd ?_ (hps hbatch)
  rw [hseq]
  exact hcanceling

lemma swap (h : s.Inv) (hgood : s.queue.Good (loose { s with functors := s.functors.collect }))
    (hidle : s.betweenFunctors = true) : Inv { s with functors := s.functors.collect } :=
  ⟨h.calls_frame rfl (fun _ hk => Or.inl hk) (fun _ hr => hr) (by rw [tasks_swap hidle])
    le_rfl fun _ _ => rfl, hgood, h.toRun_mem, h.calling, h.cancelled_returned, h.dead, h.log⟩

/-- `addTimerInLoop` of another thread's timer. -/
lemma runAdd (h : s.Inv) (hgood : t.queue.Good t.loose)
    (hhead : s.functors.head? = some (.addTimerInLoop p))
    (hadd : { s with functors := s.functors.take .loopThread }.addTimerInLoop p = .ok t) :
    t.Inv := by
  unfold TimerThreads.addTimerInLoop at hadd
  obtain ⟨⟨q, r⟩, hq, hadd⟩ := bind_eq_ok hadd
  cases hadd
  rw [arm_queue, arm_loose] at hgood
  obtain ⟨tm, -, rfl, -⟩ := TimerQueue.addTimerInLoop_ok hq
  suffices hinv : Inv { s with
      functors := s.functors.take .loopThread, queue := s.queue.link p tm } from hinv.arm r
  refine ⟨h.calls_frame rfl (fun _ hk => Or.inl hk) (fun _ hr => hr) ?_ le_rfl fun _ _ => rfl,
    hgood, h.toRun_mem, h.calling, h.cancelled_returned, h.dead, h.log⟩
  rw [tasks_take hhead]
  exact List.sublist_cons_self _ _

/-- `cancelInLoop` of another thread's cancel: by the order of the functors it finds the timer
in the queue, or deleted. -/
lemma runCancel (h : s.Inv) (hidle : s.phase = .idle)
    (hhead : s.functors.head? = some (.cancelInLoop timerId))
    (hcancel : { s with functors := s.functors.take .loopThread }.cancelInLoop timerId = .ok t) :
    t.Inv := by
  have htasks := tasks_take hhead
  have hgood : s.queue.Good (loose { s with functors := s.functors.take .loopThread }) := by
    rw [loose_take_cancel hhead]
    exact h.good
  have hinv : Inv { s with functors := s.functors.take .loopThread } := by
    refine ⟨h.calls_frame rfl (fun _ hk => Or.inl hk) (fun _ hr => hr) ?_ le_rfl fun _ _ => rfl,
      hgood, h.toRun_mem, h.calling, h.cancelled_returned, h.dead, h.log⟩
    rw [htasks]
    exact List.sublist_cons_self _ _
  refine hinv.cancelInLoop (h.tasks_returned timerId (by simp [htasks])) (fun ha => ?_) hcancel
  refine ⟨by simp [hidle, TimerPhase.toRun], fun hmem => ?_⟩
  have hfifo := h.fifo
  rw [htasks] at hfifo
  exact (List.pairwise_cons.mp hfifo).1 _ (mem_adds.mp hmem) rfl ha

/-! ### The other threads -/

lemma remoteNew (h : s.Inv) {th : ThreadId} {when interval : ℤ} {isRepeat : Bool}
    (hgood : (s.remoteNew th p when interval isRepeat).queue.Good
      (s.remoteNew th p when interval isRepeat).loose) (hfree : s.Free p) :
    (s.remoteNew th p when interval isRepeat).Inv := by
  have hheap (p' : TimerPtr) (hp' : p' ∈ s.inFlight) :
      (s.queue.newTimer p when interval isRepeat).heap p' = s.queue.heap p' := by
    refine Function.update_of_ne ?_ _ _
    rintro rfl
    obtain ⟨tm, htm⟩ := h.good.loose_live p' (inFlight_loose hp')
    rw [hfree.1] at htm
    cases htm
  have hold : Calls { s with queue := s.queue.newTimer p when interval isRepeat } :=
    h.calls_frame rfl (fun _ hk => Or.inl hk) (fun _ hr => hr) (List.Sublist.refl _)
      (Nat.le_succ _) hheap
  refine ⟨⟨fun w hw => ?_, hold.known_le, fun timerId hk w hw => ?_, hold.tasks_returned,
    hold.fifo⟩, hgood, h.toRun_mem, h.calling, h.cancelled_returned,
    fun timerId hmem ha => ?_, h.log⟩
  · rcases List.mem_append.mp hw with hw | hw
    · exact hold.made_alive w hw
    · rw [List.mem_singleton.mp hw]
      exact alive_iff.mpr ⟨_, Function.update_self .., rfl⟩
  · rcases List.mem_append.mp hw with hw | hw
    · exact hold.known_ne timerId hk w hw
    · rw [List.mem_singleton.mp hw]
      exact ne_of_gt (Nat.lt_succ_of_le (h.known_le timerId hk))
  · exact h.dead timerId hmem
      (h.dead_newTimer ⟨interval, isRepeat, when, _⟩ rfl rfl hmem ha)

lemma remotePush (h : s.Inv) {w : ThreadId × ActiveTimer}
    (hgood : s.queue.Good (s.remotePush w).loose) (hw : w ∈ s.made) :
    (s.remotePush w).Inv := by
  have htasks := s.tasks_remotePush w
  have halive := h.made_alive w hw
  have hsub (v : ThreadId × ActiveTimer) (hv : v ∈ s.made.erase w) : v ∈ s.made :=
    List.mem_of_mem_erase hv
  have hptr (v : ThreadId × ActiveTimer) (hv : v ∈ s.made.erase w) : v.2.ptr ≠ w.2.ptr := by
    have hnodup : (s.made.map fun w => w.2.ptr).Nodup :=
      (List.nodup_append.mp (List.nodup_append.mp h.good.loose_nodup).2.1).1
    have hperm := (List.perm_cons_erase hw).map fun w => w.2.ptr
    have hnodup := hperm.nodup_iff.mp hnodup
    rw [List.map_cons, List.nodup_cons] at hnodup
    intro heq
    exact hnodup.1 (heq ▸ List.mem_map_of_mem hv)
  have hknown (timerId : ActiveTimer)
      (hk : timerId ∈ s.returned ++ (s.pushed ++ [w]).map Prod.snd) :
      timerId ∈ s.returned ++ s.pushed.map Prod.snd ∨ timerId = w.2 := by
    simpa [or_assoc] using hk
  refine ⟨⟨fun v hv => h.made_alive v (hsub v hv), fun timerId hk => ?_,
    fun timerId hk v hv => ?_, fun timerId hmem => ?_, ?_⟩, hgood, h.toRun_mem, h.calling,
    h.cancelled_returned, h.dead, h.log⟩
  · rcases hknown timerId hk with hold | rfl
    · exact h.known_le timerId hold
    · exact h.sequence_le halive
  · rcases hknown timerId hk with hold | rfl
    · exact h.known_ne timerId hold v (hsub v hv)
    · obtain ⟨tm, htm, hseq⟩ := alive_iff.mp halive
      obtain ⟨tm', htm', hseq'⟩ := alive_iff.mp (h.made_alive v (hsub v hv))
      intro heq
      refine hptr v hv (h.good.sequence_inj _ _ tm' tm htm' htm ?_)
      rw [hseq, hseq', heq]
  · rw [htasks] at hmem
    exact h.tasks_returned timerId (by simpa using hmem)
  · rw [htasks]
    refine List.pairwise_append.mpr ⟨h.fifo, List.pairwise_singleton _ _, fun a ha b hb => ?_⟩
    rw [List.mem_singleton.mp hb]
    cases a with
    | addTimerInLoop _ => trivial
    | cancelInLoop timerId =>
      intro hp hac
      exact h.notMem_made (h.tasks_returned timerId ha) hac (hp ▸ List.mem_map_of_mem hw)

lemma remoteReturn (h : s.Inv) {w : ThreadId × ActiveTimer} (hw : w ∈ s.pushed) :
    Inv { s with pushed := s.pushed.erase w, returned := s.returned ++ [w.2] } := by
  refine ⟨h.calls_frame rfl (fun timerId hk => Or.inl ?_) (fun _ hr => List.mem_append_left _ hr)
    (List.Sublist.refl _) le_rfl fun _ _ => rfl, h.good, h.toRun_mem, h.calling,
    fun timerId hc => List.mem_append_left _ (h.cancelled_returned timerId hc), h.dead, h.log⟩
  dsimp only at hk
  rw [List.append_assoc, List.mem_append, List.mem_append, List.mem_singleton] at hk
  rcases hk with hret | rfl | hpushed
  · exact List.mem_append_left _ hret
  · exact List.mem_append_right _ (List.mem_map_of_mem hw)
  · obtain ⟨v, hv, rfl⟩ := List.mem_map.mp hpushed
    exact List.mem_append_right _ (List.mem_map_of_mem (List.mem_of_mem_erase hv))

lemma remoteCancel (h : s.Inv)
    (hgood : s.queue.Good (loose { s with functors := s.functors.post (.cancelInLoop timerId) }))
    (hret : timerId ∈ s.returned) :
    Inv { s with functors := s.functors.post (.cancelInLoop timerId) } := by
  have htasks := s.tasks_post (.cancelInLoop timerId)
  refine ⟨⟨h.made_alive, h.known_le, h.known_ne, fun timerId' hmem => ?_, ?_⟩, hgood,
    h.toRun_mem, h.calling, h.cancelled_returned, h.dead, h.log⟩
  · rw [htasks] at hmem
    rcases List.mem_append.mp hmem with hold | hnew
    · exact h.tasks_returned timerId' hold
    · cases List.mem_singleton.mp hnew
      exact hret
  · rw [htasks]
    refine List.pairwise_append.mpr ⟨h.fifo, List.pairwise_singleton _ _, fun a _ b hb => ?_⟩
    rw [List.mem_singleton.mp hb]
    cases a <;> trivial

lemma createElsewhere (h : s.Inv)
    (hgood : TimerQueue.Good { s.queue with timerCreated := s.queue.timerCreated + 1 } s.loose) :
    Inv { s with queue := { s.queue with timerCreated := s.queue.timerCreated + 1 } } :=
  ⟨h.calls_frame rfl (fun _ hk => Or.inl hk) (fun _ hr => hr) (List.Sublist.refl _)
    (Nat.le_succ _) fun _ _ => rfl, hgood, h.toRun_mem, h.calling, h.cancelled_returned, h.dead,
    h.log⟩

end Inv

/-! ## Every run -/

lemma step_inv (h : s.Inv) (i : ThreadInput) (hi : s.CancelInTime i) (hstep : s.step i = .ok t) :
    t.Inv := by
  have hgood := step_good h.good hstep
  cases step_outcome hstep with
  | nothing => exact h
  | tick => exact h.of_same rfl rfl rfl rfl rfl rfl rfl
  | addTimer hfree hadd => exact h.addTimer hgood hfree hadd
  | cancel hret hcancel => exact h.cancelInLoop hret hi hcancel
  | handleTimerfdRead hidle hread =>
    exact h.handleTimerfdRead hgood (phase_of_betweenFunctors hidle) hread
  | callBack hphase htm => exact h.callBack hphase htm
  | endBatch hphase hreset => exact h.endBatch hphase hreset
  | swap hidle => exact h.swap hgood hidle
  | runAdd _ hhead hadd => exact h.runAdd hgood hhead hadd
  | runCancel hidle hhead hcancel => exact h.runCancel hidle hhead hcancel
  | remoteNew hfree => exact h.remoteNew hgood hfree
  | remotePush hw => exact h.remotePush hgood hw
  | remoteReturn hw => exact h.remoteReturn hw
  | remoteCancel hret => exact h.remoteCancel hgood hret
  | createElsewhere => exact h.createElsewhere hgood

/-- After a timer has been cancelled its callback is not started. -/
def CancelEffective (s : TimerThreads) : Prop := s.log.Pairwise NotAfter

instance (s : TimerThreads) : Decidable s.CancelEffective :=
  inferInstanceAs (Decidable (List.Pairwise _ _))

def Cancels : RunSpec TimerThreads Fault where
  good := CancelEffective
  move := fun _ _ => True
  stop := fun _ => True

/-- **Cancelling a timer keeps it from running** in every interleaving of the threads with the
loop in which no cancel that runs at once comes too late or too early. -/
theorem cancel_effective (n : ℕ) (clock : Timestamp) (is : List ThreadInput)
    (hcancel : machine.Along CancelInTime (start n clock) is) :
    machine.Meets Cancels (start n clock) is := by
  refine Machine.meets_of_along machine (I := Inv) ?_ ?_ ?_ (start_inv n clock) hcancel
  · intro s h
    exact h.log
  · intro s i t h hi hstep
    exact ⟨step_inv h i hi hstep, trivial⟩
  · intro s i e _ _ _
    trivial

/-- Another thread adds a timer and cancels it, while a callback cancels its own timer and one
of an earlier batch. -/
theorem cancel_effective_threads :
    machine.Meets Cancels (start 0 1000000)
      [.addTimer 8 1000100 50 true, .addTimer 16 1000200 0 false, .tick 150, .handleTimerfdRead,
        .remoteNew 1 24 1000300 0 false, .next, .cancel (.mk 8 1), .remotePush 1, .remoteReturn 1,
        .remoteCancel (.mk 24 3), .cancel (.mk 16 2), .next, .swap, .runFunctor, .runFunctor,
        .tick 500, .handleTimerfdRead, .next] :=
  cancel_effective 0 1000000 _ (by decide +kernel)

/-- A callback cancels a timer that expired together with its own: it runs all the same.  So
does a timer of another thread that the loop thread cancels while it is not in the queue. -/
theorem cancel_not_effective :
    (∃ s, machine.run (start 0 1000000)
        [.addTimer 8 1000100 0 false, .addTimer 16 1000100 0 false, .tick 150, .handleTimerfdRead,
          .next, .cancel (.mk 16 2), .next] = .ok s ∧ ¬ s.CancelEffective) ∧
      ∃ s, machine.run (start 0 1000000)
        [.remoteNew 1 8 1000100 0 false, .remotePush 1, .remoteReturn 1, .cancel (.mk 8 1), .swap,
          .runFunctor, .tick 150, .handleTimerfdRead, .next] = .ok s ∧ ¬ s.CancelEffective := by
  decide +kernel

end TimerThreads

end Firey
