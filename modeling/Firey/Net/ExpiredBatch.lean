import Firey.Net.StaleTimers

/-!
# What one `handleTimerfdRead` does

The batch of a `handleTimerfdRead` is fixed when it begins: it is what `getExpiredTimer` takes out
of both sets, and the timers of the heap it points to stay as they are until `reset`, whatever the
callbacks add and cancel (`Within`).  So the callbacks that are started are those of the batch, each
once and in the order of the set, and `reset` meets in `cancelingTimers_` exactly the ids of the
batch that callbacks cancelled.

The callbacks are any calls of the loop thread.  The queue may be in any state it is in between two
batches, with other threads at work or without, and the time at which the handler looks at the
clock is arbitrary.
-/

set_option autoImplicit false

namespace Firey

namespace TimerQueue

/-! ## Timers by their ids -/

/-- The timer with this id is in both sets, under its own keys. -/
def Holds (q : TimerQueue) (timerId : ActiveTimer) (tm : Timer) : Prop :=
  q.heap timerId.ptr = some tm ∧ timerId ∈ q.activeTimers ∧
    TimerNode.mk tm.expireTime timerId.ptr ∈ q.timers

/-- The ids of the timers that nodes point to. -/
def ids (q : TimerQueue) (ns : List TimerNode) : List ActiveTimer :=
  ns.filterMap fun n => (q.heap n.ptr).map fun tm => .mk n.ptr tm.sequence

/-- The timers of the queue that are due, each once and in the order of their times. -/
structure Due (q : TimerQueue) (now : Timestamp) (timerIds : List ActiveTimer) : Prop where
  mem_iff : ∀ timerId, timerId ∈ timerIds ↔ ∃ tm, q.Holds timerId tm ∧ tm.expireTime ≤ now
  nodup : timerIds.Nodup
  sorted : timerIds.Pairwise fun a b => ∀ tm tm', q.Holds a tm → q.Holds b tm' →
    tm.expireTime ≤ tm'.expireTime

/-- The timers of the queue are there afterwards as they were, but for those with the ids `cs`. -/
def Keeps (q q' : TimerQueue) (cs : List ActiveTimer) : Prop :=
  ∀ timerId tm, q.Holds timerId tm → timerId ∉ cs → q'.Holds timerId tm

/-- What is left of the timers of a queue after a batch, when the callbacks have cancelled the ids
`cs`.  A repeating timer has a positive interval. -/
structure Settled (q : TimerQueue) (now : Timestamp) (timerIds cs : List ActiveTimer)
    (q' : TimerQueue) : Prop where
  deleted : ∀ timerId ∈ timerIds, ∀ tm, q.Holds timerId tm → tm.isRepeat = false ∨ timerId ∈ cs →
    q'.heap timerId.ptr = none
  restarted : ∀ timerId ∈ timerIds, ∀ tm, q.Holds timerId tm → tm.isRepeat = true →
    0 < tm.interval → timerId ∉ cs →
      q'.Holds timerId (tm.restart now) ∧ now < (tm.restart now).expireTime
  kept : ∀ timerId ∉ timerIds, ∀ tm, q.Holds timerId tm → timerId ∉ cs → q'.Holds timerId tm

variable {q q' : TimerQueue} {loose : List TimerPtr} {timerId : ActiveTimer} {tm : Timer}
  {now : Timestamp}

lemma Good.holds_iff (h : q.Good loose) : q.Holds timerId tm ↔
    timerId.ptr ∉ loose ∧ q.heap timerId.ptr = some tm ∧ tm.sequence = timerId.sequence := by
  constructor
  · rintro ⟨htm, hactive, -⟩
    obtain ⟨hnot, tm', htm', hseq⟩ := (h.active_iff timerId.ptr timerId.sequence).mp hactive
    cases htm.symm.trans htm'
    exact ⟨hnot, htm, hseq⟩
  · rintro ⟨hnot, htm, hseq⟩
    exact ⟨htm, (h.active_iff timerId.ptr timerId.sequence).mpr ⟨hnot, tm, htm, hseq⟩,
      (h.timers_iff _ _).mpr ⟨hnot, tm, htm, rfl⟩⟩

lemma mem_ids {ns : List TimerNode} : timerId ∈ q.ids ns ↔
    timerId.ptr ∈ ns.map TimerNode.ptr ∧
      ∃ tm, q.heap timerId.ptr = some tm ∧ tm.sequence = timerId.sequence := by
  rw [ids, List.mem_filterMap, List.mem_map]
  constructor
  · rintro ⟨n, hn, hmap⟩
    obtain ⟨tm, htm, rfl⟩ := Option.map_eq_some_iff.mp hmap
    exact ⟨⟨n, hn, rfl⟩, tm, htm, rfl⟩
  · rintro ⟨⟨n, hn, hptr⟩, tm, htm, hseq⟩
    refine ⟨n, hn, ?_⟩
    rw [hptr, htm, Option.map_some, hseq]
    rfl

lemma ids_cons {n : TimerNode} (htm : q.heap n.ptr = some tm) (ns : List TimerNode) :
    q.ids (n :: ns) = .mk n.ptr tm.sequence :: q.ids ns := by
  rw [ids, List.filterMap_cons_some (b := ActiveTimer.mk n.ptr tm.sequence) (by rw [htm]; rfl), ids]

/-- What is before the sentry is what is due. -/
lemma Good.due (h : q.Good loose) (now : Timestamp) :
    q.Due now (q.ids (q.timers.before (.mk now UINTPTR_MAX))) where
  mem_iff := by
    intro timerId
    rw [mem_ids, h.mem_batch]
    constructor
    · rintro ⟨⟨hnot, tm, htm, hdue⟩, tm', htm', hseq⟩
      cases htm.symm.trans htm'
      exact ⟨tm, h.holds_iff.mpr ⟨hnot, htm, hseq⟩, hdue⟩
    · rintro ⟨tm, hholds, hdue⟩
      obtain ⟨hnot, htm, hseq⟩ := h.holds_iff.mp hholds
      exact ⟨⟨hnot, tm, htm, hdue⟩, tm, htm, hseq⟩
  nodup := by
    have hptrs := (List.nodup_append.mp (h.batch_nodup now)).1
    refine List.Pairwise.filterMap _ ?_ (List.pairwise_map.mp hptrs)
    intro n m hne a ha b hb heq
    obtain ⟨tm, -, rfl⟩ := Option.map_eq_some_iff.mp ha
    obtain ⟨tm', -, rfl⟩ := Option.map_eq_some_iff.mp hb
    exact hne (congrArg ActiveTimer.ptr heq)
  sorted := by
    have hsorted : (q.timers.before (.mk now UINTPTR_MAX)).Pairwise (· < ·) :=
      q.timers.sorted.sublist (List.takeWhile_sublist _)
    have hin : ∀ n ∈ q.timers.before (.mk now UINTPTR_MAX), n ∈ q.timers := fun n hn =>
      (h.mem_before.mp hn).1
    refine List.Pairwise.filterMap _ ?_ (hsorted.imp_of_mem fun hn hm hlt =>
      And.intro (And.intro (hin _ hn) (hin _ hm)) hlt)
    rintro n m ⟨⟨hn, hm⟩, hlt⟩ a ha b hb tm tm' htm htm'
    obtain ⟨_, -, rfl⟩ := Option.map_eq_some_iff.mp ha
    obtain ⟨_, -, rfl⟩ := Option.map_eq_some_iff.mp hb
    obtain ⟨tm₁, htm₁, hwhen⟩ := h.live_of_mem hn
    obtain ⟨tm₂, htm₂, hwhen'⟩ := h.live_of_mem hm
    cases htm.1.symm.trans htm₁
    cases htm'.1.symm.trans htm₂
    rw [hwhen, hwhen']
    exact TimerNode.when_mono hlt.le

end TimerQueue

/-! ## The callbacks of a batch -/

namespace TimerLoop

/-- The callback that a step starts. -/
def starts (s : TimerLoop) : TimerInput → List ActiveTimer
  | .next => s.queue.ids (s.phase.toRun.take 1)
  | _ => []

/-- The callbacks that a run starts. -/
def started : TimerLoop → List TimerInput → List ActiveTimer
  | _, [] => []
  | s, i :: is => s.starts i ++
      match machine.step s i with
      | .ok t => started t is
      | .error _ => []

/-- The ids that the callbacks cancel. -/
def cancels (is : List TimerInput) : List ActiveTimer :=
  is.filterMap fun
    | .cancel timerId => some timerId
    | _ => none

/-- The step ends a batch. -/
def EndsBatch (s : TimerLoop) (i : TimerInput) : Prop :=
  i = .next ∧ ∃ now expired, s.phase = .calling now expired []

instance (phase : TimerPhase) : Decidable (phase = .idle) :=
  match phase with
  | .idle => .isTrue rfl
  | .calling _ _ _ => .isFalse nofun

instance (s : TimerLoop) (i : TimerInput) : Decidable (s.EndsBatch i) :=
  match i, s with
  | .next, ⟨_, .calling now expired []⟩ => .isTrue ⟨rfl, now, expired, rfl⟩
  | .next, ⟨_, .calling _ _ (_ :: _)⟩ => .isFalse nofun
  | .next, ⟨_, .idle⟩ => .isFalse nofun
  | .addTimer .., _ | .cancel _, _ | .createElsewhere, _ | .handleTimerfdRead _, _ =>
      .isFalse nofun

/-- Within the batch that has begun with the queue `q`: the timers of the batch are as they were,
and those of them that have been cancelled are the ids `cs`. -/
structure Within (q : TimerQueue) (loose : List TimerPtr) (now : Timestamp)
    (batch toRun : List TimerNode) (cs : List ActiveTimer) (s : TimerLoop) : Prop where
  phase : s.phase = .calling now batch toRun
  good : s.queue.Good (batch.map TimerNode.ptr ++ loose)
  toRun_mem : ∀ n ∈ toRun, n ∈ batch
  calling : s.queue.callingExpiredTimers = true
  heap : ∀ p ∈ batch.map TimerNode.ptr, s.queue.heap p = q.heap p
  canceling : ∀ timerId : ActiveTimer, timerId.ptr ∈ batch.map TimerNode.ptr →
    (timerId ∈ s.queue.cancelingTimers ↔ timerId ∈ cs)

variable {q : TimerQueue} {loose : List TimerPtr} {now : Timestamp} {batch toRun : List TimerNode}
  {cs : List ActiveTimer} {s t : TimerLoop} {timerId : ActiveTimer} {tm : Timer}

/-- A batch begins. -/
lemma handleTimerfdRead_within (h : q.Good loose) (now : Timestamp) : ∃ s,
    machine.step ⟨q, .idle⟩ (.handleTimerfdRead now) = .ok s ∧
      Within q loose now (q.timers.before (.mk now UINTPTR_MAX))
        (q.timers.before (.mk now UINTPTR_MAX)) [] s ∧ s.queue.heap = q.heap := by
  obtain ⟨q', expired, hget, hgood⟩ := h.getExpiredTimer now
  obtain ⟨rfl, -, heq⟩ := TimerQueue.getExpiredTimer_ok hget
  have hheap : q'.heap = q.heap := by rw [heq]
  refine ⟨⟨{ q' with callingExpiredTimers := true, cancelingTimers := .empty },
    .calling now _ _⟩, ?_, ⟨rfl, hgood.of_eq rfl rfl rfl rfl (le_refl _) rfl, fun _ hn => hn, rfl,
    fun p _ => congrFun hheap p, fun _ _ => ?_⟩, hheap⟩
  · simp only [machine, step, handleTimerfdRead, hget, ok_bind]
  · exact iff_of_false OrderedSet.notMem_empty List.not_mem_nil

namespace Within

lemma mem_loose {p : TimerPtr} (hp : p ∈ batch.map TimerNode.ptr) :
    p ∈ batch.map TimerNode.ptr ++ loose := List.mem_append_left _ hp

lemma addTimer (h : Within q loose now batch toRun cs s) {p : TimerPtr}
    (hfree : s.queue.heap p = none) (hp : p < UINTPTR_MAX) (when : Timestamp) (interval : ℤ)
    (isRepeat : Bool) : ∃ q' r, s.queue.addTimer p when interval isRepeat = .ok (q', r) ∧
      Within q loose now batch toRun cs { s with queue := q' } ∧ s.queue.Keeps q' [] := by
  obtain ⟨q', r, hadd, hgood⟩ := h.good.addTimer hfree hp when interval isRepeat
  obtain ⟨rfl, -, -⟩ := TimerQueue.addTimer_ok hadd
  have hother (p' : TimerPtr) (tm : Timer) (htm : s.queue.heap p' = some tm) : p' ≠ p := by
    rintro rfl
    rw [hfree] at htm
    cases htm
  refine ⟨_, r, hadd, ⟨h.phase, hgood, h.toRun_mem, h.calling, fun p' hp' => ?_, h.canceling⟩,
    fun timerId tm hholds _ => ?_⟩
  · obtain ⟨tm, htm⟩ := h.good.loose_live p' (mem_loose hp')
    exact (Function.update_of_ne (hother p' tm htm) _ _).trans (h.heap p' hp')
  · obtain ⟨hnot, htm, hseq⟩ := h.good.holds_iff.mp hholds
    refine hgood.holds_iff.mpr ⟨hnot, ?_, hseq⟩
    exact (Function.update_of_ne (hother _ tm htm) _ _).trans htm

lemma cancel (h : Within q loose now batch toRun cs s) (timerId : ActiveTimer) :
    ∃ q', s.queue.cancelInLoop timerId = .ok q' ∧
      Within q loose now batch toRun (cs ++ [timerId]) { s with queue := q' } ∧
      s.queue.Keeps q' [timerId] := by
  obtain ⟨q', hcancel, hgood⟩ := h.good.cancelInLoop timerId
  refine ⟨q', hcancel, ?_⟩
  rcases TimerQueue.cancelInLoop_ok hcancel with ⟨hactive, tm, htm, rfl⟩ | ⟨hactive, rfl⟩
  · -- a timer of the queue, so none of the batch
    obtain ⟨hnot, tm', htm', hseq⟩ :=
      (h.good.active_iff timerId.ptr timerId.sequence).mp hactive
    cases htm.symm.trans htm'
    have hbatch : timerId.ptr ∉ batch.map TimerNode.ptr := fun hp => hnot (mem_loose hp)
    refine ⟨⟨h.phase, hgood, h.toRun_mem, h.calling, fun p hp => ?_, fun a ha => ?_⟩,
      fun a tm₁ hholds ha => ?_⟩
    · have hne : p ≠ timerId.ptr := fun heq => hbatch (heq ▸ hp)
      exact (Function.update_of_ne hne _ _).trans (h.heap p hp)
    · have hne : a ≠ timerId := fun heq => hbatch (heq ▸ ha)
      rw [List.mem_append, List.mem_singleton, or_iff_left hne]
      exact h.canceling a ha
    · obtain ⟨hnot₁, htm₁, hseq₁⟩ := h.good.holds_iff.mp hholds
      have hne : a.ptr ≠ timerId.ptr := by
        intro hptr
        rw [hptr] at htm₁
        cases htm₁.symm.trans htm
        exact ha (List.mem_singleton.mpr (Prod.ext hptr (hseq₁.symm.trans hseq)))
      exact hgood.holds_iff.mpr ⟨hnot₁, (Function.update_of_ne hne _ _).trans htm₁, hseq₁⟩
  · refine ⟨⟨h.phase, hgood, h.toRun_mem, h.calling, h.heap, fun a ha => ?_⟩,
      fun a tm hholds _ => hgood.holds_iff.mpr (h.good.holds_iff.mp hholds)⟩
    rw [if_pos h.calling, OrderedSet.mem_insert, List.mem_append, List.mem_singleton,
      h.canceling a ha]
    exact or_comm

/-- What has yet to be started. -/
lemma starts_next (h : Within q loose now batch toRun cs s) :
    s.starts .next = (q.ids toRun).take 1 ∧ (q.ids toRun = [] ↔ toRun = []) := by
  rw [starts, h.phase, TimerPhase.toRun]
  cases toRun with
  | nil => exact ⟨rfl, iff_of_true rfl rfl⟩
  | cons n toRun =>
    have hn : n.ptr ∈ batch.map TimerNode.ptr :=
      List.mem_map_of_mem (h.toRun_mem n List.mem_cons_self)
    obtain ⟨tm, htm⟩ := h.good.loose_live n.ptr (mem_loose hn)
    rw [List.take_succ_cons, List.take_zero, TimerQueue.ids_cons htm,
      TimerQueue.ids_cons ((h.heap n.ptr hn).symm.trans htm)]
    exact ⟨rfl, iff_of_false (List.cons_ne_nil _ _) (List.cons_ne_nil _ _)⟩

lemma endsBatch_iff (h : Within q loose now batch toRun cs s) :
    s.EndsBatch .next ↔ toRun = [] := by
  rw [EndsBatch, h.phase]
  constructor
  · rintro ⟨-, now', expired, hphase⟩
    cases hphase
    rfl
  · rintro rfl
    exact ⟨rfl, now, batch, rfl⟩

/-- A step goes through.  If it does not end the batch it starts what it takes off the list. -/
lemma step (h : Within q loose now batch toRun cs s) {i : TimerInput} (hi : ¬ s.EndsBatch i) :
    ∃ t toRun', machine.step s i = .ok t ∧
      Within q loose now batch toRun' (cs ++ cancels [i]) t ∧
      q.ids toRun = s.starts i ++ q.ids toRun' ∧ s.queue.Keeps t.queue (cancels [i]) := by
  have hcs : cs ++ [] = cs := List.append_nil cs
  cases i with
  | addTimer p when interval isRepeat =>
    by_cases hp : s.queue.heap p = none ∧ 0 < p ∧ p < UINTPTR_MAX
    · obtain ⟨q', r, hadd, hwithin, hkeeps⟩ := h.addTimer hp.1 hp.2.2 when interval isRepeat
      refine ⟨_, toRun, (if_pos hp).trans ?_, hcs.symm ▸ hwithin, rfl, hkeeps⟩
      rw [hadd, ok_bind]
    · exact ⟨s, toRun, if_neg hp, hcs.symm ▸ h, rfl, fun _ _ hholds _ => hholds⟩
  | cancel timerId =>
    obtain ⟨q', hcancel, hwithin, hkeeps⟩ := h.cancel timerId
    refine ⟨_, toRun, ?_, hwithin, rfl, hkeeps⟩
    simp only [machine, TimerLoop.step, hcancel, ok_bind]
  | createElsewhere =>
    refine ⟨_, toRun, rfl, ?_, rfl, fun _ _ hholds _ => hholds⟩
    exact ⟨h.phase, h.good.of_eq rfl rfl rfl rfl (Nat.le_succ _) rfl, h.toRun_mem, h.calling,
      h.heap, hcs.symm ▸ h.canceling⟩
  | handleTimerfdRead now' =>
    refine ⟨s, toRun, ?_, hcs.symm ▸ h, rfl, fun _ _ hholds _ => hholds⟩
    simp only [machine, TimerLoop.step, TimerLoop.handleTimerfdRead, h.phase]
  | next =>
    cases toRun with
    | nil => exact absurd ⟨rfl, now, batch, h.phase⟩ hi
    | cons n toRun =>
      have hn : n.ptr ∈ batch.map TimerNode.ptr :=
        List.mem_map_of_mem (h.toRun_mem n List.mem_cons_self)
      obtain ⟨tm, htm⟩ := h.good.loose_live n.ptr (mem_loose hn)
      have htm' : q.heap n.ptr = some tm := (h.heap n.ptr hn).symm.trans htm
      refine ⟨{ s with phase := .calling now batch toRun }, toRun, ?_,
        ⟨rfl, h.good, fun m hm => h.toRun_mem m (List.mem_cons_of_mem _ hm), h.calling, h.heap,
          hcs.symm ▸ h.canceling⟩, ?_, fun _ _ hholds _ => hholds⟩
      · simp only [machine, TimerLoop.step, TimerLoop.next, h.phase, TimerQueue.deref, htm, ok_bind]
      · rw [h.starts_next.1, TimerQueue.ids_cons htm']
        rfl

lemma cancels_cons (i : TimerInput) (js : List TimerInput) :
    cancels (i :: js) = cancels [i] ++ cancels js :=
  List.filterMap_append (l := [i])

/-- Up to its end. -/
lemma run (h : Within q loose now batch toRun cs s) {js : List TimerInput}
    (hjs : machine.Along (fun u j => ¬ u.EndsBatch j) s js) :
    ∃ t toRun', machine.run s js = .ok t ∧
      Within q loose now batch toRun' (cs ++ cancels js) t ∧
      q.ids toRun = started s js ++ q.ids toRun' ∧ s.queue.Keeps t.queue (cancels js) := by
  induction js generalizing s toRun cs with
  | nil =>
    exact ⟨s, toRun, rfl, (List.append_nil cs).symm ▸ h, rfl, fun _ _ hholds _ => hholds⟩
  | cons i js ih =>
    obtain ⟨hi, hrest⟩ := hjs
    obtain ⟨t, toRun₁, ht, hwithin, hids, hkeeps⟩ := h.step hi
    rw [ht] at hrest
    obtain ⟨u, toRun₂, hu, hwithin', hids', hkeeps'⟩ := ih hwithin hrest
    refine ⟨u, toRun₂, by rw [machine.run_cons_ok ht, hu], ?_, ?_, fun a tm hholds ha => ?_⟩
    · rwa [cancels_cons, ← List.append_assoc]
    · rw [hids, hids', started, ht, List.append_assoc]
    · rw [cancels_cons, List.mem_append, not_or] at ha
      exact hkeeps' a tm (hkeeps a tm hholds ha.1) ha.2

/-- At its end. -/
lemma endBatch (h : Within q loose now batch [] cs s) :
    ∃ t, machine.step s .next = .ok t ∧ t.phase = .idle ∧ t.queue.Good loose ∧
      (∀ p, p ∉ batch.map TimerNode.ptr → t.queue.heap p = s.queue.heap p) ∧
      ∀ p ∈ batch.map TimerNode.ptr, ∀ tm, q.heap p = some tm →
        (tm.isRepeat = true ∧ ActiveTimer.mk p tm.sequence ∉ cs →
          t.queue.heap p = some (tm.restart now)) ∧
        (¬ (tm.isRepeat = true ∧ ActiveTimer.mk p tm.sequence ∉ cs) →
          t.queue.heap p = none) := by
  have hgood : TimerQueue.Good { s.queue with callingExpiredTimers := false }
      (batch.map TimerNode.ptr ++ loose) := h.good.of_eq rfl rfl rfl rfl (le_refl _) rfl
  have hnodup := (List.nodup_append.mp h.good.loose_nodup).1
  obtain ⟨⟨q', r⟩, hreset, hgood'⟩ := hgood.reset now
  obtain ⟨q₁, hall, heq⟩ := bind_eq_ok hreset
  cases heq
  refine ⟨⟨q', .idle⟩, ?_, rfl, hgood', (TimerQueue.resetAll_putBack hall).frame, ?_⟩
  · simp only [machine, TimerLoop.step, TimerLoop.next, h.phase, hreset, ok_bind]
  · intro p hp tm htm
    have hputs : TimerQueue.PutsBack { s.queue with callingExpiredTimers := false } p tm ↔
        tm.isRepeat = true ∧ ActiveTimer.mk p tm.sequence ∉ cs :=
      and_congr_right fun _ => not_congr (h.canceling (.mk p tm.sequence) hp)
    rw [← hputs]
    exact TimerQueue.resetAll_heap hall hnodup hp ((h.heap p hp).trans htm)

end Within

/-! ## Every queue -/

/-- The queue occurs between two batches of some run, of the loop thread alone or with other
threads. -/
inductive BetweenBatches : TimerQueue → Prop
  | alone {n : ℕ} {is : List TimerInput} {s : TimerLoop}
      (hrun : machine.run (start n) is = .ok s) (hidle : s.phase = .idle) : BetweenBatches s.queue
  | threads {n : ℕ} {clock : Timestamp} {is : List ThreadInput} {s : TimerThreads}
      (hrun : TimerThreads.machine.run (.start n clock) is = .ok s) (hidle : s.phase = .idle) :
      BetweenBatches s.queue

lemma BetweenBatches.good (h : BetweenBatches q) : ∃ loose, q.Good loose := by
  cases h with
  | @alone n is s hrun hidle =>
    have hinv : s.Inv := by
      refine machine.run_invariant (I := Inv) (fun s i t h hstep => ?_) (start_inv n) hrun
      obtain ⟨t', ht', hinv⟩ := step_inv h i
      cases ht'.symm.trans hstep
      exact hinv
    exact ⟨_, hinv.good⟩
  | threads hrun _ => exact ⟨_, TimerThreads.good_of_run hrun⟩

/-- What the end of a batch leaves. -/
lemma Within.settled (hq : q.Good loose) (h : Within q loose now batch [] cs s)
    (hkeeps : ∀ timerId tm, q.Holds timerId tm → timerId ∉ q.ids batch → timerId ∉ cs →
      s.queue.Holds timerId tm) :
    ∃ t, machine.step s .next = .ok t ∧ t.phase = .idle ∧ q.Settled now (q.ids batch) cs t.queue ∧
      ∀ timerId tm, s.queue.Holds timerId tm → t.queue.Holds timerId tm := by
  obtain ⟨t, ht, hidle, hgood, hframe, hbatch⟩ := h.endBatch
  have hafter (timerId : ActiveTimer) (tm : Timer) (hholds : s.queue.Holds timerId tm) :
      t.queue.Holds timerId tm := by
    obtain ⟨hnot, htm, hseq⟩ := h.good.holds_iff.mp hholds
    rw [List.mem_append, not_or] at hnot
    exact hgood.holds_iff.mpr ⟨hnot.2, (hframe _ hnot.1).trans htm, hseq⟩
  refine ⟨t, ht, hidle, ⟨fun timerId hmem tm hholds hgone => ?_,
    fun timerId hmem tm hholds hrep hpos hcs => ?_,
    fun timerId hmem tm hholds hcs => hafter timerId tm (hkeeps timerId tm hholds hmem hcs)⟩,
    hafter⟩
  · obtain ⟨-, htm, hseq⟩ := hq.holds_iff.mp hholds
    refine (hbatch _ (TimerQueue.mem_ids.mp hmem).1 tm htm).2 ?_
    rw [hseq]
    rintro ⟨hrep, hcs⟩
    rcases hgone with hone | hcancelled
    · rw [hrep] at hone
      cases hone
    · exact hcs hcancelled
  · obtain ⟨hnot, htm, hseq⟩ := hq.holds_iff.mp hholds
    have hheap := (hbatch _ (TimerQueue.mem_ids.mp hmem).1 tm htm).1 ⟨hrep, hseq ▸ hcs⟩
    rw [TimerQueue.restart_eq hrep] at hheap ⊢
    exact ⟨hgood.holds_iff.mpr ⟨hnot, hheap, hseq⟩, Int.lt_add_of_pos_right now hpos⟩

/-- **The expired batch is exact.**  Whatever the queue and the time, `handleTimerfdRead` goes
through and starts the callbacks of the timers that are due, each once, in the order of their times,
and no others; when all of them have run, the one-shot timers among them and those that a callback
cancelled are deleted, the others are put back with a time after `now`, and the timers outside the
batch, those that callbacks add included, are as they were unless a callback cancelled them. -/
theorem expired_batch_exact (h : BetweenBatches q) (now : Timestamp) :
    ∃ s timerIds, machine.step ⟨q, .idle⟩ (.handleTimerfdRead now) = .ok s ∧
      q.Due now timerIds ∧
      ∀ js, machine.Along (fun u j => ¬ u.EndsBatch j) s js →
        ∃ u rest, machine.run s js = .ok u ∧ timerIds = started s js ++ rest ∧
          u.starts .next = rest.take 1 ∧ (u.EndsBatch .next ↔ rest = []) ∧
          (rest = [] → ∃ t, machine.step u .next = .ok t ∧ t.phase = .idle ∧
            q.Settled now timerIds (cancels js) t.queue ∧
            ∀ js₁ js₂ v, js = js₁ ++ js₂ → machine.run s js₁ = .ok v →
              v.queue.Keeps t.queue (cancels js₂)) := by
  obtain ⟨loose, hq⟩ := h.good
  obtain ⟨s, hs, hwithin, hheap⟩ := handleTimerfdRead_within hq now
  refine ⟨s, _, hs, hq.due now, fun js hjs => ?_⟩
  obtain ⟨u, toRun, hu, hwithin', hids, hkeeps⟩ := hwithin.run hjs
  obtain ⟨hstarts, hnil⟩ := hwithin'.starts_next
  refine ⟨u, _, hu, hids, hstarts, hwithin'.endsBatch_iff.trans hnil.symm, fun hrest => ?_⟩
  cases hnil.mp hrest
  -- the timers outside the batch are in the queue that the batch begins with
  have houtside (timerId : ActiveTimer) (tm : Timer) (hholds : q.Holds timerId tm)
      (hnot : timerId ∉ q.ids (q.timers.before (.mk now UINTPTR_MAX))) :
      s.queue.Holds timerId tm := by
    obtain ⟨hloose, htm, hseq⟩ := hq.holds_iff.mp hholds
    refine hwithin.good.holds_iff.mpr ⟨fun hmem => ?_, hheap ▸ htm, hseq⟩
    rcases List.mem_append.mp hmem with hbatch | hmem
    · exact hnot (TimerQueue.mem_ids.mpr ⟨hbatch, tm, htm, hseq⟩)
    · exact hloose hmem
  obtain ⟨t, ht, hidle, hsettled, hafter⟩ := hwithin'.settled hq fun timerId tm hholds hnot hcs =>
    hkeeps timerId tm (houtside timerId tm hholds hnot) hcs
  refine ⟨t, ht, hidle, hsettled, ?_⟩
  rintro js₁ js₂ v rfl hv timerId tm hholds hcs
  obtain ⟨hjs₁, hjs₂⟩ := machine.along_append hjs
  obtain ⟨v', toRun₁, hv', hwithin₁, -, -⟩ := hwithin.run hjs₁
  cases hv.symm.trans hv'
  obtain ⟨u', toRun₂, hu', -, -, hkeeps₂⟩ := hwithin₁.run (hjs₂ v hv)
  cases hu'.symm.trans ((machine.run_append hv js₂).symm.trans hu)
  exact hafter timerId tm (hkeeps₂ timerId tm hholds hcs)

/-- Two timers at 100 and one at 101. -/
def threeTimers : List TimerInput :=
  [.addTimer 8 100 0 false, .addTimer 16 100 50 true, .addTimer 24 101 0 false]

/-- The first callback adds a timer that is past already and cancels the second timer. -/
def twoCallbacks : List TimerInput :=
  [.next, .addTimer 32 50 0 false, .cancel (.mk 16 2), .next]

/-- At 100 the first two are due, and only they are run. -/
theorem expired_batch_exact_tie : ∃ q s, BetweenBatches q ∧
    machine.step ⟨q, .idle⟩ (.handleTimerfdRead 100) = .ok s ∧
    q.Due 100 [.mk 8 1, .mk 16 2] ∧ started s twoCallbacks = [.mk 8 1, .mk 16 2] ∧
    ∃ u t, machine.run s twoCallbacks = .ok u ∧ machine.step u .next = .ok t ∧
      q.Settled 100 [.mk 8 1, .mk 16 2] [.mk 16 2] t.queue := by
  have hbefore : ∃ s, machine.run (start 0) threeTimers = .ok s ∧ s.phase = .idle ∧
      ∃ s₀, machine.step ⟨s.queue, .idle⟩ (.handleTimerfdRead 100) = .ok s₀ ∧
        machine.Along (fun u j => ¬ u.EndsBatch j) s₀ twoCallbacks ∧
        started s₀ twoCallbacks = [.mk 8 1, .mk 16 2] ∧
        ∃ u, machine.run s₀ twoCallbacks = .ok u ∧ u.EndsBatch .next := by
    decide +kernel
  obtain ⟨s, hs, hidle, s₀, hs₀, halong, hstarted, u, hu, hends⟩ := hbefore
  obtain ⟨s₁, timerIds, hs₁, hdue, hbatch⟩ := expired_batch_exact (.alone hs hidle) 100
  cases hs₁.symm.trans hs₀
  obtain ⟨u', rest, hu', hids, -, hiff, hend⟩ := hbatch twoCallbacks halong
  cases hu'.symm.trans hu
  have hrest := hiff.mp hends
  obtain ⟨t, ht, -, hsettled, -⟩ := hend hrest
  rw [hrest, List.append_nil, hstarted] at hids
  subst hids
  exact ⟨s.queue, s₀, .alone hs hidle, hs₀, hdue, hstarted, u, t, hu, ht, hsettled⟩

end TimerLoop

end Firey
