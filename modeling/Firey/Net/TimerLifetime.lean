import Firey.Net.TimerCancel

/-!
# Timers and the pointers to them

A `Timerff` is pointed to from the two sets, from the batch that is run, from the functors that
are going to add it, and from the threads that are in `addTimer`.  `Outlives` says that all these
pointers are good, so that a timer is deleted only when nobody is going to follow a pointer to
it, and that no timer is deleted twice, by the destructor of the queue either.

The thread that made a timer follows its pointer last, when `addTimer` builds the `TimerIdff`, and
by then the loop may have run the timer and deleted it.  That this is the only way to go wrong is
`timers_outlive_iff`.  The condition is on the end of a batch, where `reset` deletes.
-/

set_option autoImplicit false

namespace Firey

namespace TimerQueue

/-! ## The destructor -/

def deleteAll (q : TimerQueue) : List TimerNode → Except Fault TimerQueue
  | [] => .ok q
  | n :: ns => do
      let q' ← q.delete n.ptr
      q'.deleteAll ns

/-- `TimerQueueff::~TimerQueueff`, as far as the timers go. -/
def destructor (q : TimerQueue) : Except Fault TimerQueue := q.deleteAll q.timers.elems

lemma Accounted.deleteAll {q : TimerQueue} (h : q.Accounted) {ns : List TimerNode}
    (hlive : ∀ n ∈ ns, ∃ tm, q.heap n.ptr = some tm) (hnodup : (ns.map TimerNode.ptr).Nodup) :
    ∃ q', q.deleteAll ns = .ok q' ∧ q'.Accounted := by
  induction ns generalizing q with
  | nil => exact ⟨q, rfl, h⟩
  | cons n ns ih =>
    obtain ⟨hn, hnodup⟩ := List.nodup_cons.mp hnodup
    obtain ⟨tm, htm⟩ := hlive n List.mem_cons_self
    have hrest : ∀ m ∈ ns, ∃ tm', Function.update q.heap n.ptr none m.ptr = some tm' := by
      intro m hm
      obtain ⟨tm', htm'⟩ := hlive m (List.mem_cons_of_mem n hm)
      refine ⟨tm', (Function.update_of_ne ?_ _ _).trans htm'⟩
      intro heq
      exact hn (heq ▸ List.mem_map_of_mem hm)
    obtain ⟨q', hall, hacc⟩ := ih (h.delete htm) hrest hnodup
    refine ⟨q', ?_, hacc⟩
    rw [TimerQueue.deleteAll, TimerQueue.delete, deref, htm, ok_bind, ok_bind, hall]

/-- The nodes of the queue are told apart by their pointers. -/
lemma Good.timers_nodup {q : TimerQueue} {loose : List TimerPtr} (h : q.Good loose) :
    (q.timers.elems.map TimerNode.ptr).Nodup := by
  refine q.timers.nodup.map_on fun n hn m hm heq => ?_
  obtain ⟨tm, htm, hwhen⟩ := h.live_of_mem hn
  obtain ⟨tm', htm', hwhen'⟩ := h.live_of_mem hm
  rw [heq] at htm
  cases htm.symm.trans htm'
  exact Prod.ext (hwhen.symm.trans hwhen') heq

lemma Good.destructor {q : TimerQueue} {loose : List TimerPtr} (h : q.Good loose) :
    ∃ q', q.destructor = .ok q' ∧ q'.deleted.Nodup := by
  have hlive : ∀ n ∈ q.timers.elems, ∃ tm, q.heap n.ptr = some tm := by
    intro n hn
    obtain ⟨tm, htm, -⟩ := h.live_of_mem hn
    exact ⟨tm, htm⟩
  obtain ⟨q', hall, hacc⟩ := h.toAccounted.deleteAll hlive h.timers_nodup
  exact ⟨q', hall, hacc.deleted_nodup⟩

end TimerQueue

namespace TimerThreads

/-! ## Who points to a timer -/

/-- The threads in `addTimer`, each with the id it is going to return. -/
def adding (s : TimerThreads) : List (ThreadId × ActiveTimer) := s.made ++ s.pushed

/-- The pointers of the loop. -/
inductive Holds (s : TimerThreads) : TimerPtr → Prop
  | timers (n : TimerNode) (hn : n ∈ s.queue.timers) : Holds s n.ptr
  | activeTimers (a : ActiveTimer) (ha : a ∈ s.queue.activeTimers) : Holds s a.ptr
  | batch (n : TimerNode) (hn : n ∈ s.phase.batch) : Holds s n.ptr
  | functor (p : TimerPtr) (hp : p ∈ adds s.tasks) : Holds s p

/-- No run fails, no pointer dangles, the timer of a thread in `addTimer` is still the one it has
made, and no timer is deleted twice, also not if the queue is destroyed next. -/
def Outlives : RunSpec TimerThreads Fault where
  good s := (∀ p, s.Holds p → ∃ tm, s.queue.heap p = some tm) ∧
    (∀ w ∈ s.adding, Alive s.queue w.2) ∧ s.queue.deleted.Nodup ∧
      ∃ q, s.queue.destructor = .ok q ∧ q.deleted.Nodup
  move _ _ := True
  stop _ := False

/-- When a batch ends, each of its timers that a thread is still to return repeats. -/
def EndsInTime (s : TimerThreads) : ThreadInput → Prop
  | .next =>
      match s.phase with
      | .calling _ expired [] => ∀ n ∈ expired, ∀ w ∈ s.pushed, n.ptr = w.2.ptr →
          (s.queue.heap n.ptr).map Timer.isRepeat = some true
      | _ => True
  | _ => True

instance (s : TimerThreads) (i : ThreadInput) : Decidable (s.EndsInTime i) := by
  unfold EndsInTime
  split
  · split <;> infer_instance
  · infer_instance

lemma arm_adding (s : TimerThreads) (r : Option Timestamp) : (s.arm r).adding = s.adding := by
  cases r <;> rfl

/-! ## The invariant -/

structure Lasting (s : TimerThreads) : Prop where
  good : s.queue.Good s.loose
  toRun_mem : ∀ p ∈ s.phase.toRun.map TimerNode.ptr, p ∈ s.phase.batch.map TimerNode.ptr
  alive : ∀ w ∈ s.adding, Alive s.queue w.2
  distinct : (s.adding.map Prod.snd).Nodup
  returned_le : ∀ timerId ∈ s.returned, timerId.sequence ≤ s.queue.timerCreated
  returned_ne : ∀ timerId ∈ s.returned, ∀ w ∈ s.adding, timerId ≠ w.2
  cancels : ∀ timerId, .cancelInLoop timerId ∈ s.tasks → timerId ∈ s.returned
  canceling : ∀ timerId ∈ s.queue.cancelingTimers, timerId ∈ s.returned

lemma start_lasting (n : ℕ) (clock : Timestamp) : (start n clock).Lasting where
  good := TimerQueue.start_good n
  toRun_mem := fun _ h => nomatch h
  alive := fun _ h => nomatch h
  distinct := .nil
  returned_le := fun _ h => nomatch h
  returned_ne := fun _ h => nomatch h
  cancels := fun _ h => nomatch h
  canceling := fun _ h => absurd h OrderedSet.notMem_empty

variable {s t : TimerThreads} {p : TimerPtr} {timerId : ActiveTimer} {q : TimerQueue}

namespace Lasting

lemma outlives (h : s.Lasting) : Outlives.good s := by
  refine ⟨fun p hp => ?_, h.alive, h.good.deleted_nodup, h.good.destructor⟩
  cases hp with
  | timers n hn =>
    obtain ⟨tm, htm, -⟩ := h.good.live_of_mem hn
    exact ⟨tm, htm⟩
  | activeTimers a ha =>
    obtain ⟨-, tm, htm, -⟩ := (h.good.active_iff a.ptr a.sequence).mp ha
    exact ⟨tm, htm⟩
  | batch n hn => exact h.good.loose_live _ (List.mem_append_left _ (List.mem_map_of_mem hn))
  | functor p hp =>
    exact h.good.loose_live p (List.mem_append_right _ (List.mem_append_right _ hp))

lemma sequence_le (h : s.Lasting) {w : ThreadId × ActiveTimer} (hw : w ∈ s.adding) :
    w.2.sequence ≤ s.queue.timerCreated := by
  obtain ⟨tm, htm, hseq⟩ := alive_iff.mp (h.alive w hw)
  exact hseq ▸ h.good.sequence_le htm

/-- The clock, the timerfd and the history do not matter. -/
lemma of_same (h : s.Lasting) (hqueue : t.queue = s.queue) (hphase : t.phase = s.phase)
    (hfunctors : t.functors = s.functors) (hmade : t.made = s.made) (hpushed : t.pushed = s.pushed)
    (hreturned : t.returned = s.returned) : t.Lasting := by
  obtain ⟨queue, phase, clock, timerfd, functors, made, pushed, returned, log, written⟩ := t
  dsimp only at hqueue hphase hfunctors hmade hpushed hreturned
  subst hqueue hphase hfunctors hmade hpushed hreturned
  exact ⟨h.good, h.toRun_mem, h.alive, h.distinct, h.returned_le, h.returned_ne, h.cancels,
    h.canceling⟩

lemma arm (h : s.Lasting) (r : Option Timestamp) : (s.arm r).Lasting := by
  cases r with
  | none => exact h
  | some when => exact h.of_same rfl rfl rfl rfl rfl rfl

/-- A step of the loop thread that leaves alone who is in `addTimer`, what they have made and
what has been returned. -/
lemma loop_frame (h : s.Lasting) (hgood : t.queue.Good t.loose)
    (htoRun : ∀ p ∈ t.phase.toRun.map TimerNode.ptr, p ∈ t.phase.batch.map TimerNode.ptr)
    (hadding : t.adding = s.adding) (hreturned : t.returned = s.returned)
    (halive : ∀ w ∈ s.adding, Alive t.queue w.2)
    (hcreated : s.queue.timerCreated ≤ t.queue.timerCreated) (htasks : t.tasks ⊆ s.tasks)
    (hcanceling : ∀ timerId ∈ t.queue.cancelingTimers, timerId ∈ s.returned) : t.Lasting where
  good := hgood
  toRun_mem := htoRun
  alive := hadding ▸ halive
  distinct := hadding ▸ h.distinct
  returned_le := fun timerId hret => (h.returned_le timerId (hreturned ▸ hret)).trans hcreated
  returned_ne := by
    rw [hadding, hreturned]
    exact h.returned_ne
  cancels := fun timerId hmem => hreturned ▸ h.cancels timerId (htasks hmem)
  canceling := fun timerId hmem => hreturned ▸ hcanceling timerId hmem

/-- A cancel deletes no timer that a thread is still to return. -/
lemma cancelInLoop (h : s.Lasting) (hret : timerId ∈ s.returned) :
    ∃ t, s.cancelInLoop timerId = .ok t ∧ t.Lasting := by
  obtain ⟨q, hq, hgood⟩ := h.good.cancelInLoop timerId
  refine ⟨_, by rw [TimerThreads.cancelInLoop, hq, ok_bind], ?_⟩
  rcases TimerQueue.cancelInLoop_ok hq with ⟨hactive, tm, htm, rfl⟩ | ⟨-, rfl⟩
  · refine h.loop_frame hgood h.toRun_mem rfl rfl (fun w hw => ?_) le_rfl (List.Subset.refl _)
      h.canceling
    refine (alive_congr (Function.update_of_ne (fun hptr => ?_) _ _)).mpr (h.alive w hw)
    -- the timer is in the set under its own number
    obtain ⟨-, tm', htm', hseq'⟩ := (h.good.active_iff timerId.ptr timerId.sequence).mp hactive
    obtain ⟨tm'', htm'', hseq''⟩ := alive_iff.mp (h.alive w hw)
    rw [hptr] at htm''
    cases htm'.symm.trans htm''
    exact h.returned_ne timerId hret w hw (Prod.ext hptr.symm (hseq'.symm.trans hseq''))
  · refine h.loop_frame hgood h.toRun_mem rfl rfl h.alive le_rfl (List.Subset.refl _) ?_
    intro timerId' hmem
    dsimp only at hmem
    split at hmem
    · rcases OrderedSet.mem_insert.mp hmem with rfl | hold
      · exact hret
      · exact h.canceling timerId' hold
    · exact h.canceling timerId' hmem

/-- An address that `new` returns is not one that a thread in `addTimer` points to. -/
lemma free_ne (h : s.Lasting) (hfree : s.Free p) {w : ThreadId × ActiveTimer}
    (hw : w ∈ s.adding) : w.2.ptr ≠ p := by
  rintro rfl
  obtain ⟨tm, htm, -⟩ := alive_iff.mp (h.alive w hw)
  exact nomatch hfree.1.symm.trans htm

/-- The loop thread adds a timer, which it returns at once. -/
lemma addTimer (h : s.Lasting) (hfree : s.Free p) (when interval : ℤ) (isRepeat : Bool) :
    ∃ t, s.addTimer p when interval isRepeat = .ok t ∧ t.Lasting := by
  obtain ⟨q, r, hq, hgood⟩ := h.good.addTimer hfree.1 hfree.2.2 when interval isRepeat
  obtain ⟨r, timerId⟩ := r
  refine ⟨_, by rw [TimerThreads.addTimer, hq, ok_bind], ?_⟩
  obtain ⟨rfl, rfl, -⟩ := TimerQueue.addTimer_ok hq
  suffices hlasting : Lasting { s with
      queue := (s.queue.newTimer p when interval isRepeat).link p
        ⟨interval, isRepeat, when, s.queue.timerCreated + 1⟩
      returned := s.returned ++ [.mk p (s.queue.timerCreated + 1)] } from hlasting.arm r
  refine ⟨hgood, h.toRun_mem, fun w hw => ?_, h.distinct, fun timerId hret => ?_,
    fun timerId hret w hw => ?_,
    fun timerId hmem => List.mem_append_left _ (h.cancels timerId hmem),
    fun timerId hmem => List.mem_append_left _ (h.canceling timerId hmem)⟩
  · exact (alive_congr (Function.update_of_ne (h.free_ne hfree hw) _ _)).mpr (h.alive w hw)
  · rcases List.mem_append.mp hret with hold | hnew
    · exact Nat.le_succ_of_le (h.returned_le timerId hold)
    · rw [List.mem_singleton.mp hnew]
      exact le_rfl
  · rcases List.mem_append.mp hret with hold | hnew
    · exact h.returned_ne timerId hold w hw
    · rw [List.mem_singleton.mp hnew]
      intro heq
      exact h.free_ne hfree hw (congrArg ActiveTimer.ptr heq).symm

lemma handleTimerfdRead (h : s.Lasting) (hidle : s.betweenFunctors = true) :
    ∃ t, s.handleTimerfdRead = .ok t ∧ t.Lasting := by
  obtain ⟨q, expired, hq, hgood⟩ := h.good.getExpiredTimer s.clock
  refine ⟨_, by rw [TimerThreads.handleTimerfdRead, hq, ok_bind], ?_⟩
  obtain ⟨-, -, heq⟩ := TimerQueue.getExpiredTimer_ok hq
  rw [loose_of_idle (phase_of_betweenFunctors hidle)] at hgood
  have hheap : q.heap = s.queue.heap := by rw [heq]
  have hcreated : q.timerCreated = s.queue.timerCreated := by rw [heq]
  refine h.loop_frame (hgood.of_eq rfl rfl rfl rfl (le_refl _) rfl) (fun _ hmem => hmem) rfl rfl
    (fun w hw => ?_) (le_of_eq hcreated.symm) (List.Subset.refl _)
    fun _ hmem => absurd hmem OrderedSet.notMem_empty
  exact (alive_congr (congrFun hheap _)).mpr (h.alive w hw)

/-- A timer that a thread has yet to push is not in the batch. -/
lemma made_notMem_batch (h : s.Lasting) {w : ThreadId × ActiveTimer} (hw : w ∈ s.made) :
    w.2.ptr ∉ s.phase.batch.map TimerNode.ptr :=
  notMem_batch_of_inFlight h.good (List.mem_append_left _ (List.mem_map_of_mem hw))

/-- The end of a batch, if the timers of it that are still to be returned repeat. -/
lemma endBatch (h : s.Lasting) {now : Timestamp} {expired : List TimerNode}
    (hphase : s.phase = .calling now expired [])
    (hrepeat : ∀ n ∈ expired, ∀ w ∈ s.pushed, n.ptr = w.2.ptr →
      (s.queue.heap n.ptr).map Timer.isRepeat = some true) :
    ∃ t, s.next = .ok t ∧ t.Lasting := by
  obtain ⟨⟨q, r⟩, hreset, hgood⟩ := (good_endBatch h.good hphase).reset now
  refine ⟨_, next_endBatch hphase hreset, ?_⟩
  obtain ⟨hback, -⟩ := TimerQueue.reset_ok hreset
  obtain ⟨q', hall, heq⟩ := bind_eq_ok hreset
  cases heq
  suffices hlasting : Lasting { s with queue := q, phase := .idle } from hlasting.arm _
  refine h.loop_frame hgood (fun _ hp => nomatch hp) rfl rfl (fun w hw => ?_)
    (le_of_eq hback.timerCreated.symm) (List.Subset.refl _) fun timerId hmem => ?_
  · obtain ⟨tm, htm, hseq⟩ := alive_iff.mp (h.alive w hw)
    have hputs (hmem : w.2.ptr ∈ expired.map TimerNode.ptr) : s.queue.PutsBack w.2.ptr tm := by
      rcases List.mem_append.mp hw with hmade | hpushed
      · refine absurd ?_ (h.made_notMem_batch hmade)
        rw [hphase]
        exact hmem
      · obtain ⟨n, hn, hptr⟩ := List.mem_map.mp hmem
        have hrep := hrepeat n hn w hpushed hptr
        rw [hptr, htm, Option.map_some, Option.some.injEq] at hrep
        refine ⟨hrep, fun hcanceled => ?_⟩
        rw [hseq] at hcanceled
        exact h.returned_ne _ (h.canceling _ hcanceled) w hw rfl
    obtain ⟨tm', htm', hseq', -⟩ := TimerQueue.resetAll_keeps hall htm hputs
    exact alive_iff.mpr ⟨tm', htm', hseq'.trans hseq⟩
  · rw [hback.canceling] at hmem
    exact h.canceling timerId hmem

lemma next (h : s.Lasting) (hi : s.EndsInTime .next) : ∃ t, s.next = .ok t ∧ t.Lasting := by
  cases hphase : s.phase with
  | idle =>
    refine ⟨s, ?_, h⟩
    unfold TimerThreads.next
    rw [hphase]
  | calling now expired toRun =>
    cases toRun with
    | nil =>
      unfold EndsInTime at hi
      rw [hphase] at hi
      exact h.endBatch hphase hi
    | cons n toRun =>
      have hgood := h.good
      have hmem := h.toRun_mem
      rw [loose, hphase] at hgood
      rw [hphase] at hmem
      obtain ⟨tm, htm⟩ := hgood.loose_live n.ptr
        (List.mem_append_left _ (hmem n.ptr List.mem_cons_self))
      refine ⟨{ s with
        phase := .calling now expired toRun
        log := s.log ++ [.started (.mk n.ptr tm.sequence)] }, ?_, ?_⟩
      · unfold TimerThreads.next TimerQueue.deref
        rw [hphase]
        dsimp only
        rw [htm, ok_bind]
      · exact h.loop_frame hgood (fun p hp => hmem p (List.mem_cons_of_mem _ hp)) rfl rfl h.alive
          le_rfl (List.Subset.refl _) h.canceling

lemma swap (h : s.Lasting) (hidle : s.betweenFunctors = true) :
    Lasting { s with functors := s.functors.collect } := by
  refine h.loop_frame ?_ h.toRun_mem rfl rfl h.alive le_rfl ?_ h.canceling
  · rw [loose_swap hidle]
    exact h.good
  rw [tasks_swap hidle]
  exact List.Subset.refl _

lemma runFunctor (h : s.Lasting) (hidle : s.phase = .idle) :
    ∃ t, s.runFunctor = .ok t ∧ t.Lasting := by
  unfold TimerThreads.runFunctor
  dsimp only
  split
  · exact ⟨s, rfl, h⟩
  · next p hhead =>
    obtain ⟨q, b, hins, hgood, -⟩ := (h.good.perm (loose_take hidle hhead)).insertTimer
    obtain ⟨tm, htm, rfl, -⟩ := TimerQueue.insertTimer_ok hins
    have hadd : ∃ r, s.queue.addTimerInLoop p = .ok (s.queue.link p tm, r) := by
      unfold TimerQueue.addTimerInLoop
      rw [hins, ok_bind]
      cases b with
      | false => exact ⟨none, rfl⟩
      | true =>
        refine ⟨some tm.expireTime, ?_⟩
        have hderef : (s.queue.link p tm).deref p = .ok tm := by
          rw [TimerQueue.deref, TimerQueue.link, htm]
        simp only [if_true, hderef, ok_bind]
    obtain ⟨r, hadd⟩ := hadd
    refine ⟨_, by rw [TimerThreads.addTimerInLoop, hadd, ok_bind], ?_⟩
    suffices hlasting : Lasting { s with
        functors := s.functors.take .loopThread, queue := s.queue.link p tm } from hlasting.arm r
    refine h.loop_frame hgood h.toRun_mem rfl rfl h.alive le_rfl ?_ h.canceling
    rw [tasks_take hhead]
    exact List.subset_cons_self _ _
  · next timerId hhead =>
    have htasks := tasks_take hhead
    refine Lasting.cancelInLoop (s := { s with functors := s.functors.take .loopThread }) ?_
      (h.cancels timerId (by rw [htasks]; exact List.mem_cons_self))
    refine h.loop_frame ?_ h.toRun_mem rfl rfl h.alive le_rfl ?_ h.canceling
    · rw [loose_take_cancel hhead]
      exact h.good
    · rw [htasks]
      exact List.subset_cons_self _ _

/-! ### The other threads -/

lemma remoteNew (h : s.Lasting) (th : ThreadId) (hfree : s.Free p) (when interval : ℤ)
    (isRepeat : Bool) : (s.remoteNew th p when interval isRepeat).Lasting := by
  have hperm : (s.remoteNew th p when interval isRepeat).adding.Perm
      ((th, .mk p (s.queue.timerCreated + 1)) :: s.adding) := by
    unfold adding TimerThreads.remoteNew
    rw [List.append_assoc]
    exact List.perm_middle
  refine ⟨(h.good.newTimer hfree.1 hfree.2.2 when interval isRepeat).perm
    (s.loose_remoteNew th p when interval isRepeat), h.toRun_mem, fun w hw => ?_,
    (hperm.map _).nodup_iff.mpr (List.nodup_cons.mpr ⟨fun hmem => ?_, h.distinct⟩),
    fun timerId hret => Nat.le_succ_of_le (h.returned_le timerId hret),
    fun timerId hret w hw => ?_, h.cancels, h.canceling⟩
  · rcases List.mem_cons.mp (hperm.mem_iff.mp hw) with rfl | hw
    · exact alive_iff.mpr ⟨_, Function.update_self .., rfl⟩
    · exact (alive_congr (Function.update_of_ne (h.free_ne hfree hw) _ _)).mpr (h.alive w hw)
  · obtain ⟨w, hw, heq⟩ := List.mem_map.mp hmem
    exact h.free_ne hfree hw (congrArg ActiveTimer.ptr heq)
  · rcases List.mem_cons.mp (hperm.mem_iff.mp hw) with rfl | hw
    · intro heq
      have hle := h.returned_le timerId hret
      rw [heq] at hle
      exact absurd hle (Nat.not_succ_le_self _)
    · exact h.returned_ne timerId hret w hw

lemma remotePush (h : s.Lasting) {w : ThreadId × ActiveTimer} (hw : w ∈ s.made) :
    (s.remotePush w).Lasting := by
  have hperm : (s.remotePush w).adding.Perm s.adding := by
    unfold adding TimerThreads.remotePush
    refine (List.perm_append_comm.append_left _).trans ?_
    rw [← List.append_assoc]
    exact ((List.perm_append_singleton _ _).trans (List.perm_cons_erase hw).symm).append_right _
  refine ⟨h.good.perm (loose_remotePush hw), h.toRun_mem,
    fun v hv => h.alive v (hperm.mem_iff.mp hv), (hperm.map _).nodup_iff.mpr h.distinct,
    h.returned_le, fun timerId hret v hv => h.returned_ne timerId hret v (hperm.mem_iff.mp hv),
    fun timerId hmem => h.cancels timerId ?_, h.canceling⟩
  rw [s.tasks_remotePush] at hmem
  simpa using hmem

/-- The pointer is followed for the last time. -/
lemma remoteReturn (h : s.Lasting) {w : ThreadId × ActiveTimer} (hw : w ∈ s.pushed) :
    ∃ t, s.remoteReturn w = .ok t ∧ t.Lasting := by
  have hadding : w ∈ s.adding := List.mem_append_right _ hw
  obtain ⟨tm, htm, hseq⟩ := alive_iff.mp (h.alive w hadding)
  have hperm : s.adding.Perm
      (w :: adding { s with pushed := s.pushed.erase w, returned := s.returned ++ [w.2] }) :=
    ((List.perm_cons_erase hw).append_left _).trans List.perm_middle
  have hdistinct := (hperm.map Prod.snd).nodup_iff.mp h.distinct
  obtain ⟨hne, hdistinct⟩ := List.nodup_cons.mp hdistinct
  refine ⟨{ s with pushed := s.pushed.erase w, returned := s.returned ++ [w.2] }, ?_, ?_⟩
  · unfold TimerThreads.remoteReturn TimerQueue.deref
    rw [htm]
    exact if_pos hseq
  · refine ⟨h.good, h.toRun_mem,
      fun v hv => h.alive v (hperm.mem_iff.mpr (List.mem_cons_of_mem w hv)), hdistinct,
      fun timerId hret => ?_, fun timerId hret v hv => ?_,
      fun timerId hmem => List.mem_append_left _ (h.cancels timerId hmem),
      fun timerId hmem => List.mem_append_left _ (h.canceling timerId hmem)⟩
    · rcases List.mem_append.mp hret with hold | hnew
      · exact h.returned_le timerId hold
      · rw [List.mem_singleton.mp hnew]
        exact h.sequence_le hadding
    · rcases List.mem_append.mp hret with hold | hnew
      · exact h.returned_ne timerId hold v (hperm.mem_iff.mpr (List.mem_cons_of_mem w hv))
      · rw [List.mem_singleton.mp hnew]
        intro heq
        exact hne (heq ▸ List.mem_map_of_mem hv)

lemma remoteCancel (h : s.Lasting) (hret : timerId ∈ s.returned) :
    Lasting { s with functors := s.functors.post (.cancelInLoop timerId) } := by
  refine ⟨?_, h.toRun_mem, h.alive, h.distinct, h.returned_le, h.returned_ne,
    fun timerId' hmem => ?_, h.canceling⟩
  · rw [s.loose_remoteCancel]
    exact h.good
  · rw [s.tasks_post] at hmem
    rcases List.mem_append.mp hmem with hold | hnew
    · exact h.cancels timerId' hold
    · cases List.mem_singleton.mp hnew
      exact hret

end Lasting

/-! ## Every run -/

lemma step_lasting (h : s.Lasting) {i : ThreadInput} (hi : s.EndsInTime i) :
    ∃ t, s.step i = .ok t ∧ t.Lasting := by
  cases i with
  | tick d => exact ⟨_, rfl, h.of_same rfl rfl rfl rfl rfl rfl⟩
  | addTimer p when interval isRepeat =>
    simp only [step]
    split
    · next hfree => exact h.addTimer hfree when interval isRepeat
    · exact ⟨s, rfl, h⟩
  | cancel timerId =>
    simp only [step]
    split
    · next hret => exact h.cancelInLoop hret
    · exact ⟨s, rfl, h⟩
  | handleTimerfdRead =>
    simp only [step]
    split
    · next hidle => exact h.handleTimerfdRead hidle
    · exact ⟨s, rfl, h⟩
  | next => exact h.next hi
  | swap =>
    simp only [step]
    split
    · next hidle => exact ⟨_, rfl, h.swap hidle⟩
    · exact ⟨s, rfl, h⟩
  | runFunctor =>
    simp only [step]
    split
    · exact ⟨s, rfl, h⟩
    · next hidle => exact h.runFunctor (phase_idle (by simpa using hidle))
  | remoteNew th p when interval isRepeat =>
    simp only [step]
    split
    · next hfree => exact ⟨_, rfl, h.remoteNew th hfree when interval isRepeat⟩
    · exact ⟨s, rfl, h⟩
  | remotePush th =>
    cases hw : waiting s.made th with
    | none => exact ⟨s, by rw [step, hw]; rfl, h⟩
    | some w =>
      exact ⟨_, by rw [step, hw]; rfl, h.remotePush (List.mem_of_find?_eq_some hw)⟩
  | remoteReturn th =>
    simp only [step]
    split
    · exact ⟨s, rfl, h⟩
    · next w hw => exact h.remoteReturn (List.mem_of_find?_eq_some hw)
  | remoteCancel timerId =>
    simp only [step]
    split
    · next hret => exact ⟨_, rfl, h.remoteCancel hret⟩
    · exact ⟨s, rfl, h⟩
  | createElsewhere =>
    refine ⟨_, rfl, h.loop_frame (h.good.of_eq rfl rfl rfl rfl (Nat.le_succ _) rfl) h.toRun_mem
      rfl rfl h.alive (Nat.le_succ _) (List.Subset.refl _) h.canceling⟩

/-- A batch that ends too early deletes a timer that a thread is still to read. -/
lemma step_dangles (h : s.Lasting) {i : ThreadInput} (hi : ¬ s.EndsInTime i)
    (hstep : s.step i = .ok t) : ¬ Outlives.good t := by
  cases i with
  | next =>
    unfold EndsInTime at hi
    dsimp only at hi
    split at hi
    · next now expired hphase =>
      push Not at hi
      obtain ⟨n, hn, w, hw, hptr, hrep⟩ := hi
      change s.next = .ok t at hstep
      unfold TimerThreads.next at hstep
      rw [hphase] at hstep
      obtain ⟨⟨q, r⟩, hreset, hstep⟩ := bind_eq_ok hstep
      obtain ⟨q', hall, heq⟩ := bind_eq_ok hreset
      cases heq
      obtain ⟨tm, htm, -⟩ := alive_iff.mp (h.alive w (List.mem_append_right _ hw))
      have hnodup := batch_nodup h.good hphase
      have hgone : q.heap w.2.ptr = none := by
        refine (TimerQueue.resetAll_heap hall hnodup (hptr ▸ List.mem_map_of_mem hn) htm).2 ?_
        rintro ⟨hrepeats, -⟩
        rw [hptr, htm, Option.map_some, hrepeats] at hrep
        exact hrep rfl
      rintro ⟨-, halive, -⟩
      have hwt : Alive q w.2 := by
        have hadding : w ∈ t.adding := by
          rw [← Except.ok.inj hstep, arm_adding]
          exact List.mem_append_right _ hw
        have hqueue : t.queue = q := by rw [← Except.ok.inj hstep, arm_queue]
        exact hqueue ▸ halive w hadding
      obtain ⟨tm', htm', -⟩ := alive_iff.mp hwt
      exact nomatch hgone.symm.trans htm'
    · exact absurd trivial hi
  | tick _ => exact absurd trivial hi
  | addTimer _ _ _ _ => exact absurd trivial hi
  | cancel _ => exact absurd trivial hi
  | handleTimerfdRead => exact absurd trivial hi
  | swap => exact absurd trivial hi
  | runFunctor => exact absurd trivial hi
  | remoteNew _ _ _ _ _ => exact absurd trivial hi
  | remotePush _ => exact absurd trivial hi
  | remoteReturn _ => exact absurd trivial hi
  | remoteCancel _ => exact absurd trivial hi
  | createElsewhere => exact absurd trivial hi

/-- **Timers outlive every use** exactly if no batch ends while a thread is still to read a
one-shot timer of it. -/
theorem timers_outlive_iff (n : ℕ) (clock : Timestamp) (is : List ThreadInput) :
    machine.Meets Outlives (start n clock) is ↔ machine.Along EndsInTime (start n clock) is := by
  refine machine.meets_iff_of_sound (I := Lasting) (fun s h => h.outlives) ?_ ?_
    (start_lasting n clock)
  · intro s i h hi
    change Outlives.Sound _ s (s.step i)
    obtain ⟨t, ht, hlasting⟩ := step_lasting h hi
    rw [ht]
    exact ⟨hlasting, trivial⟩
  · intro s i h hi
    cases hstep : machine.step s i with
    | ok t => exact fun hgood => step_dangles h hi hstep hgood.2
    | error e => exact id

/-- Another thread adds a timer whose time is past.  The loop inserts it, runs it and deletes it
before the thread comes to `timer->sequence()`. -/
def pastTimer : List ThreadInput :=
  [.remoteNew 1 8 0 0 false, .remotePush 1, .swap, .runFunctor, .tick 100, .handleTimerfdRead,
    .next, .next, .remoteReturn 1]

theorem pastTimer_dangles : machine.run (start 0 1000000) pastTimer = .error .dangling ∧
    ¬ machine.Meets Outlives (start 0 1000000) pastTimer := by
  have hrun : machine.run (start 0 1000000) pastTimer = .error .dangling := by decide +kernel
  exact ⟨hrun, fun hmeets => Machine.Meets.stop_of_run machine hmeets hrun⟩

end TimerThreads

end Firey
