import Firey.Net.TimerCancel

/-!
# Cancelling a timer that is over

A `TimerIdff` stays with its user when the timer has expired or been cancelled, and the address in
it may have been given to another timer.  `cancelInLoop` finds nothing under such an id, and at
most puts it into `cancelingTimers_`, where only `reset` looks, for the ids of its own batch.

So the run with the cancel and the run without it go on together: `stale_cancel_harmless`.  If the
timer is never going to run again they do so for good, and otherwise, where it repeats and is in the
batch that is run, up to the end of the batch, which treats every other timer as it would have been
treated.
-/

set_option autoImplicit false

namespace Firey

namespace TimerQueue

variable {q q' : TimerQueue} {p : TimerPtr} {now : Timestamp} {c : OrderedSet ActiveTimer}

/-! ## The operations that do not look at `cancelingTimers_` -/

def withCanceling (q : TimerQueue) (c : OrderedSet ActiveTimer) : TimerQueue :=
  { q with cancelingTimers := c }

/-- The same result with another `cancelingTimers_`. -/
def Recanceled {α : Type} (c : OrderedSet ActiveTimer) (x : Except Fault (TimerQueue × α)) :
    Except Fault (TimerQueue × α) := x.map fun r => (r.1.withCanceling c, r.2)

/-- The first part is the same for both. -/
lemma bind_eq_map {α β : Type} {x : Except Fault α} {f g : α → Except Fault β} {v : β → β}
    (h : ∀ a, x = .ok a → g a = (f a).map v) : (x >>= g) = (x >>= f).map v := by
  cases x with
  | error e => rfl
  | ok a => exact h a rfl

/-- The first part is the same up to `u`. -/
lemma bind_map_eq_map {α β : Type} {x y : Except Fault α} {f g : α → Except Fault β}
    {u : α → α} {v : β → β} (hx : y = x.map u) (h : ∀ a, x = .ok a → g (u a) = (f a).map v) :
    (y >>= g) = (x >>= f).map v := by
  subst hx
  cases x with
  | error e => rfl
  | ok a => exact h a rfl

lemma delete_withCanceling (q : TimerQueue) (c : OrderedSet ActiveTimer) (p : TimerPtr) :
    (q.withCanceling c).delete p = (q.delete p).map fun q' => q'.withCanceling c := by
  unfold delete
  exact bind_eq_map fun tm _ => rfl

lemma insertTimer_withCanceling (q : TimerQueue) (c : OrderedSet ActiveTimer) (p : TimerPtr) :
    (q.withCanceling c).insertTimer p = Recanceled c (q.insertTimer p) := by
  unfold insertTimer
  refine bind_eq_map fun _ _ => ?_
  refine bind_eq_map fun tm _ => ?_
  exact bind_eq_map fun _ _ => rfl

lemma addTimerInLoop_withCanceling (q : TimerQueue) (c : OrderedSet ActiveTimer) (p : TimerPtr) :
    (q.withCanceling c).addTimerInLoop p = Recanceled c (q.addTimerInLoop p) := by
  unfold addTimerInLoop
  refine bind_map_eq_map (q.insertTimer_withCanceling c p) fun r _ => ?_
  obtain ⟨q', b⟩ := r
  dsimp only
  split
  · exact bind_eq_map fun tm _ => rfl
  · rfl

lemma addTimer_withCanceling (q : TimerQueue) (c : OrderedSet ActiveTimer) (p : TimerPtr)
    (when : Timestamp) (interval : ℤ) (isRepeat : Bool) :
    (q.withCanceling c).addTimer p when interval isRepeat =
      Recanceled c (q.addTimer p when interval isRepeat) := by
  unfold addTimer
  have hadd := addTimerInLoop_withCanceling (q.newTimer p when interval isRepeat) c p
  refine bind_map_eq_map hadd fun r _ => ?_
  exact bind_eq_map fun tm _ => rfl

lemma eraseActive_withCanceling (q : TimerQueue) (c : OrderedSet ActiveTimer)
    (ns : List TimerNode) :
    (q.withCanceling c).eraseActive ns = (q.eraseActive ns).map fun q' => q'.withCanceling c := by
  induction ns generalizing q with
  | nil => rfl
  | cons n ns ih =>
    rw [eraseActive, eraseActive]
    refine bind_eq_map fun tm _ => ?_
    exact ih { q with activeTimers := q.activeTimers.erase (.mk n.ptr tm.sequence) }

lemma getExpiredTimer_withCanceling (q : TimerQueue) (c : OrderedSet ActiveTimer)
    (now : Timestamp) :
    (q.withCanceling c).getExpiredTimer now = Recanceled c (q.getExpiredTimer now) := by
  unfold getExpiredTimer
  refine bind_eq_map fun _ _ => ?_
  refine bind_eq_map fun _ _ => ?_
  have herase := eraseActive_withCanceling
    { q with timers := q.timers.eraseBefore (.mk now UINTPTR_MAX) } c
    (q.timers.before (.mk now UINTPTR_MAX))
  refine bind_map_eq_map herase fun q' _ => ?_
  exact bind_eq_map fun _ _ => rfl

/-! ## Those that do -/

/-- The two sets agree on the timers that could be put back. -/
def AgreeOn (q : TimerQueue) (c : OrderedSet ActiveTimer) (ps : List TimerPtr) : Prop :=
  ∀ p ∈ ps, ∀ tm, q.heap p = some tm → tm.isRepeat = true →
    (ActiveTimer.mk p tm.sequence ∈ c ↔ ActiveTimer.mk p tm.sequence ∈ q.cancelingTimers)

lemma resetTimer_withCanceling {n : TimerNode} (h : q.AgreeOn c [n.ptr]) :
    (q.withCanceling c).resetTimer now n =
      (q.resetTimer now n).map fun q' => q'.withCanceling c := by
  unfold resetTimer
  refine bind_eq_map fun tm htm => ?_
  have hagree := h n.ptr (List.mem_singleton_self _) tm (deref_eq_ok htm)
  have hcond : (tm.isRepeat = true ∧ ActiveTimer.mk n.ptr tm.sequence ∉ c) ↔
      tm.isRepeat = true ∧ ActiveTimer.mk n.ptr tm.sequence ∉ q.cancelingTimers :=
    and_congr_right fun hrep => not_congr (hagree hrep)
  by_cases hback : tm.isRepeat = true ∧ ActiveTimer.mk n.ptr tm.sequence ∉ q.cancelingTimers
  · rw [if_pos hback]
    refine (if_pos (hcond.mpr hback)).trans ?_
    have hins := insertTimer_withCanceling
      { q with heap := Function.update q.heap n.ptr (some (tm.restart now)) } c n.ptr
    exact bind_map_eq_map hins fun r _ => rfl
  · rw [if_neg hback]
    exact (if_neg (mt hcond.mp hback)).trans (q.delete_withCanceling c n.ptr)

lemma resetAll_withCanceling {ns : List TimerNode} (hnodup : (ns.map TimerNode.ptr).Nodup)
    (h : q.AgreeOn c (ns.map TimerNode.ptr)) :
    (q.withCanceling c).resetAll now ns = (q.resetAll now ns).map fun q' => q'.withCanceling c := by
  induction ns generalizing q with
  | nil => rfl
  | cons n ns ih =>
    obtain ⟨hn, hnodup⟩ := List.nodup_cons.mp hnodup
    have hone : (q.withCanceling c).resetTimer now n =
        (q.resetTimer now n).map fun q' => q'.withCanceling c :=
      resetTimer_withCanceling fun p hp => h p (List.mem_singleton.mp hp ▸ List.mem_cons_self)
    rw [resetAll, resetAll, hone]
    cases hreset : q.resetTimer now n with
    | error e => rfl
    | ok q' =>
      refine ih hnodup fun p hp tm htm hrep => ?_
      have hback := resetTimer_putBack hreset
      have hne : p ∉ [n.ptr] := by
        rintro hmem
        exact hn (List.mem_singleton.mp hmem ▸ hp)
      rw [hback.frame p hne] at htm
      rw [hback.canceling]
      exact h p (List.mem_cons_of_mem _ hp) tm htm hrep

lemma reset_withCanceling {expired : List TimerNode}
    (hnodup : (expired.map TimerNode.ptr).Nodup)
    (h : q.AgreeOn c (expired.map TimerNode.ptr)) :
    (q.withCanceling c).reset expired now = Recanceled c (q.reset expired now) := by
  unfold reset
  rw [resetAll_withCanceling hnodup h]
  cases q.resetAll now expired <;> rfl

/-- What a cancel puts aside. -/
def setAside (q : TimerQueue) (c : OrderedSet ActiveTimer) (timerId : ActiveTimer) :
    OrderedSet ActiveTimer :=
  if timerId ∉ q.activeTimers ∧ q.callingExpiredTimers = true then c.insert timerId else c

lemma cancelInLoop_withCanceling (q : TimerQueue) (c : OrderedSet ActiveTimer)
    (timerId : ActiveTimer) :
    (q.withCanceling c).cancelInLoop timerId =
      (q.cancelInLoop timerId).map fun q' => q'.withCanceling (q.setAside c timerId) := by
  unfold cancelInLoop setAside
  refine bind_eq_map fun _ _ => ?_
  dsimp only [withCanceling]
  by_cases hactive : timerId ∈ q.activeTimers
  · simp only [hactive, if_true, not_true_eq_false, false_and, if_false]
    refine bind_eq_map fun tm _ => ?_
    have hdelete := delete_withCanceling
      { q with timers := q.timers.erase (.mk tm.expireTime timerId.ptr) } c timerId.ptr
    refine bind_map_eq_map hdelete fun q' _ => ?_
    simp only [ok_bind]
    exact bind_eq_map fun _ _ => rfl
  · simp only [hactive, if_false, not_false_eq_true, true_and]
    by_cases hcalling : q.callingExpiredTimers = true
    · simp only [if_pos hcalling, ok_bind]
      exact (if_pos hcalling).trans (bind_eq_map fun _ _ => rfl)
    · simp only [if_neg hcalling, ok_bind]
      exact (if_neg hcalling).trans (bind_eq_map fun _ _ => rfl)

/-! ## Batches that differ by one cancelled timer -/

/-- The same timers, but for the one at `p`. -/
structure SameOthers (p : TimerPtr) (q r : TimerQueue) : Prop where
  heap : ∀ p', p' ≠ p → r.heap p' = q.heap p'
  timers : ∀ n : TimerNode, n.ptr ≠ p → (n ∈ r.timers ↔ n ∈ q.timers)
  activeTimers : ∀ a : ActiveTimer, a.ptr ≠ p → (a ∈ r.activeTimers ↔ a ∈ q.activeTimers)
  canceling : ∀ a : ActiveTimer, a.ptr ≠ p → (a ∈ r.cancelingTimers ↔ a ∈ q.cancelingTimers)

namespace SameOthers

variable {r r' : TimerQueue} {tm tm' : Timer}

lemma relink_self (h : SameOthers p q r) : SameOthers p (q.relink p tm now) r where
  heap := fun p' hp' => (h.heap p' hp').trans (Function.update_of_ne hp' _ _).symm
  timers := by
    intro n hn
    rw [h.timers n hn]
    refine ⟨fun hmem => OrderedSet.mem_insert.mpr (Or.inr hmem), fun hmem => ?_⟩
    rcases OrderedSet.mem_insert.mp hmem with rfl | hold
    · exact absurd rfl hn
    · exact hold
  activeTimers := by
    intro a ha
    rw [h.activeTimers a ha]
    refine ⟨fun hmem => OrderedSet.mem_insert.mpr (Or.inr hmem), fun hmem => ?_⟩
    rcases OrderedSet.mem_insert.mp hmem with rfl | hold
    · exact absurd rfl ha
    · exact hold
  canceling := h.canceling

lemma delete_self {ks : List ℕ} (h : SameOthers p q r) :
    SameOthers p { q with heap := Function.update q.heap p none, deleted := ks } r where
  heap := fun p' hp' => (h.heap p' hp').trans (Function.update_of_ne hp' _ _).symm
  timers := h.timers
  activeTimers := h.activeTimers
  canceling := h.canceling

lemma symm (h : SameOthers p q r) : SameOthers p r q where
  heap := fun p' hp' => (h.heap p' hp').symm
  timers := fun n hn => (h.timers n hn).symm
  activeTimers := fun a ha => (h.activeTimers a ha).symm
  canceling := fun a ha => (h.canceling a ha).symm

lemma relink {p' : TimerPtr} (h : SameOthers p q r) :
    SameOthers p (q.relink p' tm now) (r.relink p' tm now) where
  heap := by
    intro x hx
    change Function.update r.heap p' _ x = Function.update q.heap p' _ x
    by_cases hxp : x = p'
    · rw [hxp, Function.update_self, Function.update_self]
    · rw [Function.update_of_ne hxp, Function.update_of_ne hxp, h.heap x hx]
  timers := fun n hn => OrderedSet.mem_insert.trans
    ((or_congr Iff.rfl (h.timers n hn)).trans OrderedSet.mem_insert.symm)
  activeTimers := fun a ha => OrderedSet.mem_insert.trans
    ((or_congr Iff.rfl (h.activeTimers a ha)).trans OrderedSet.mem_insert.symm)
  canceling := h.canceling

lemma delete {p' : TimerPtr} {ks ks' : List ℕ} (h : SameOthers p q r) :
    SameOthers p { q with heap := Function.update q.heap p' none, deleted := ks }
      { r with heap := Function.update r.heap p' none, deleted := ks' } where
  heap := by
    intro x hx
    dsimp only
    by_cases hxp : x = p'
    · rw [hxp, Function.update_self, Function.update_self]
    · rw [Function.update_of_ne hxp, Function.update_of_ne hxp, h.heap x hx]
  timers := h.timers
  activeTimers := h.activeTimers
  canceling := h.canceling

/-- A timer is put back or deleted by its own id. -/
lemma resetTimer {n : TimerNode} (h : SameOthers p q r) (hq : q.resetTimer now n = .ok q')
    (hr : r.resetTimer now n = .ok r') : SameOthers p q' r' := by
  obtain ⟨tm, htm, hq⟩ := resetTimer_ok hq
  obtain ⟨tm', htm', hr⟩ := resetTimer_ok hr
  by_cases hp : n.ptr = p
  · subst hp
    have hleft : SameOthers n.ptr q' r := by
      rcases hq with ⟨-, rfl⟩ | ⟨-, rfl⟩
      · exact h.relink_self
      · exact h.delete_self
    rcases hr with ⟨-, rfl⟩ | ⟨-, rfl⟩
    · exact hleft.symm.relink_self.symm
    · exact hleft.symm.delete_self.symm
  · rw [h.heap n.ptr hp, htm] at htm'
    cases htm'
    have hback : r.PutsBack n.ptr tm ↔ q.PutsBack n.ptr tm :=
      and_congr_right fun _ => not_congr (h.canceling _ hp)
    rcases hq with ⟨hputs, rfl⟩ | ⟨hnot, rfl⟩
    · rcases hr with ⟨-, rfl⟩ | ⟨hnot, -⟩
      · exact h.relink
      · exact absurd (hback.mpr hputs) hnot
    · rcases hr with ⟨hputs, -⟩ | ⟨-, rfl⟩
      · exact absurd (hback.mp hputs) hnot
      · exact h.delete

lemma resetAll {ns : List TimerNode} (h : SameOthers p q r) (hq : q.resetAll now ns = .ok q')
    (hr : r.resetAll now ns = .ok r') : SameOthers p q' r' := by
  induction ns generalizing q r with
  | nil =>
    cases hq
    cases hr
    exact h
  | cons n ns ih =>
    rw [TimerQueue.resetAll] at hq hr
    obtain ⟨q₁, hq₁, hq⟩ := bind_eq_ok hq
    obtain ⟨r₁, hr₁, hr⟩ := bind_eq_ok hr
    exact ih (h.resetTimer hq₁ hr₁) hq hr

end SameOthers

end TimerQueue

namespace TimerThreads

variable {s t : TimerThreads} {p : TimerPtr} {timerId : ActiveTimer} {c : OrderedSet ActiveTimer}
  {log : List TimerEvent}

/-! ## Ids that are out of date -/

/-- The timer with this id has been deleted, or is in the batch that is run. -/
def Past (s : TimerThreads) (timerId : ActiveTimer) : Prop :=
  timerId.sequence ∈ s.queue.deleted ∨
    Alive s.queue timerId ∧ timerId.ptr ∈ s.phase.batch.map TimerNode.ptr

/-- It is not going to run after this batch: it has been deleted, does not repeat, or has been
cancelled in the batch. -/
def Spent (s : TimerThreads) (timerId : ActiveTimer) : Prop :=
  Alive s.queue timerId → timerId.ptr ∈ s.phase.batch.map TimerNode.ptr ∧
    ((s.queue.heap timerId.ptr).map Timer.isRepeat = some false ∨
      timerId ∈ s.queue.cancelingTimers)

/-- The ids of the timers that have been started. -/
def starts (log : List TimerEvent) : List ActiveTimer :=
  log.filterMap fun
    | .started timerId => some timerId
    | .cancelled _ => none

/-- The state with other traces of cancels. -/
def withCancels (s : TimerThreads) (c : OrderedSet ActiveTimer) (log : List TimerEvent) :
    TimerThreads :=
  { s with queue := s.queue.withCanceling c, log := log }

/-- The same timers in the same places, which have been started in the same order. -/
def SameTimers (s t : TimerThreads) : Prop :=
  ∃ c log, t = s.withCancels c log ∧ starts log = starts s.log

/-- The step executes `cancelInLoop` for the id, in the state `s'`. -/
inductive Executes (s : TimerThreads) (timerId : ActiveTimer) :
    ThreadInput → TimerThreads → Prop
  | now (hret : timerId ∈ s.returned) : Executes s timerId (.cancel timerId) s
  | queued (hidle : s.inCallback = false)
      (hhead : s.functors.head? = some (.cancelInLoop timerId)) :
      Executes s timerId .runFunctor { s with functors := s.functors.take .loopThread }

/-- The step ends a batch. -/
def EndsBatch (s : TimerThreads) (i : ThreadInput) : Prop :=
  i = .next ∧ ∃ now expired, s.phase = .calling now expired []

/-! ## The timer stays spent -/

lemma notMem_deleted_of_alive (h : s.queue.Good s.loose) (ha : Alive s.queue timerId) :
    timerId.sequence ∉ s.queue.deleted := by
  obtain ⟨tm, htm, hseq⟩ := alive_iff.mp ha
  exact hseq ▸ h.live_notMem _ tm htm

lemma Past.sequence_le (hpast : s.Past timerId) (h : s.queue.Good s.loose) :
    timerId.sequence ≤ s.queue.timerCreated := by
  rcases hpast with hdel | ⟨ha, -⟩
  · exact h.created_le _ ((h.created_iff _).mpr (Or.inr hdel))
  · obtain ⟨tm, htm, hseq⟩ := alive_iff.mp ha
    exact hseq ▸ h.sequence_le htm

lemma Past.notMem_active (hpast : s.Past timerId) (h : s.queue.Good s.loose) :
    timerId ∉ s.queue.activeTimers := by
  intro hactive
  obtain ⟨hloose, halive⟩ := (h.active_iff timerId.ptr timerId.sequence).mp hactive
  rcases hpast with hdel | ⟨-, hbatch⟩
  · exact notMem_deleted_of_alive h (alive_iff.mpr halive) hdel
  · exact hloose (List.mem_append_left _ hbatch)

/-- Nothing happens to the timer, and the batch is the same. -/
lemma Spent.of_frame (h : s.Spent timerId)
    (hheap : Alive t.queue timerId → t.queue.heap timerId.ptr = s.queue.heap timerId.ptr)
    (hphase : t.phase.batch = s.phase.batch)
    (hcanceling : timerId ∈ s.queue.cancelingTimers → timerId ∈ t.queue.cancelingTimers) :
    t.Spent timerId := by
  intro ha
  have hsame := hheap ha
  obtain ⟨hbatch, hone⟩ := h ((alive_congr hsame).mp ha)
  rw [hphase, hsame]
  exact ⟨hbatch, hone.imp_right hcanceling⟩

/-- A new timer has another number. -/
lemma ne_of_alive_new {q : TimerQueue} {tm : Timer} (hknown : timerId.sequence < tm.sequence)
    (hheap : q.heap = Function.update s.queue.heap p (some tm)) (ha : Alive q timerId) :
    q.heap timerId.ptr = s.queue.heap timerId.ptr := by
  rw [hheap]
  refine Function.update_of_ne ?_ _ _
  intro hptr
  obtain ⟨tm', htm', hseq⟩ := alive_iff.mp ha
  rw [hheap, hptr, Function.update_self] at htm'
  cases htm'
  omega

lemma Spent.cancelInLoop (h : s.Spent timerId) {timerId' : ActiveTimer}
    (hcancel : s.cancelInLoop timerId' = .ok t) : t.Spent timerId := by
  obtain ⟨q, hq, hcancel⟩ := bind_eq_ok hcancel
  cases hcancel
  rcases TimerQueue.cancelInLoop_ok hq with ⟨-, tm, -, rfl⟩ | ⟨-, rfl⟩
  · refine h.of_frame (fun ha => Function.update_of_ne ?_ _ _) rfl id
    intro hptr
    obtain ⟨tm', htm', -⟩ := alive_iff.mp ha
    simp only [hptr, Function.update_self] at htm'
    cases htm'
  · refine h.of_frame (fun _ => rfl) rfl fun hmem => ?_
    dsimp only
    split
    · exact OrderedSet.mem_insert.mpr (Or.inr hmem)
    · exact hmem

/-- At the end of its batch the timer is deleted. -/
lemma Spent.endBatch (h : s.Spent timerId) (hgood : s.queue.Good s.loose) {now : Timestamp}
    {expired : List TimerNode} {q : TimerQueue} {r : Option Timestamp}
    (hphase : s.phase = .calling now expired [])
    (hreset : { s.queue with callingExpiredTimers := false }.reset expired now = .ok (q, r)) :
    Spent ({ s with queue := q, phase := .idle }.arm r) timerId := by
  obtain ⟨hback, -⟩ := TimerQueue.reset_ok hreset
  obtain ⟨q', hall, heq⟩ := bind_eq_ok hreset
  cases heq
  have hnodup := batch_nodup hgood hphase
  intro ha
  rw [arm_queue] at ha
  obtain ⟨tm, htm, hseq⟩ := alive_iff.mp ha
  obtain ⟨tm', htm', hseq', -, -, hps⟩ := hback.heap _ tm htm
  obtain ⟨hbatch, hone⟩ := h (alive_iff.mpr ⟨tm', htm', hseq'.symm.trans hseq⟩)
  rw [hphase] at hbatch
  have hputs : ¬ TimerQueue.PutsBack { s.queue with callingExpiredTimers := false }
      timerId.ptr tm' := by
    rintro ⟨hrep, -⟩
    rcases hone with hone | hcanceled
    · have htm' : s.queue.heap timerId.ptr = some tm' := htm'
      rw [htm', Option.map_some, hrep] at hone
      exact nomatch hone
    · refine hps hbatch ?_
      rw [hseq]
      exact hcanceled
  have hgone := (TimerQueue.resetAll_heap hall hnodup hbatch htm').2 hputs
  exact nomatch hgone.symm.trans htm

lemma Spent.arm (h : s.Spent timerId) (r : Option Timestamp) : (s.arm r).Spent timerId := by
  cases r <;> exact h

/-- A timer that is over stays over. -/
lemma Spent.step (h : s.Spent timerId) (hgood : s.queue.Good s.loose)
    (hknown : timerId.sequence ≤ s.queue.timerCreated) {i : ThreadInput}
    (hstep : s.step i = .ok t) : t.Spent timerId := by
  have hnew := Nat.lt_succ_of_le hknown
  cases step_outcome hstep with
  | nothing => exact h
  | tick => exact h
  | addTimer _ hadd =>
    obtain ⟨⟨q, r, a⟩, hq, hadd⟩ := bind_eq_ok hadd
    obtain ⟨rfl, -, -⟩ := TimerQueue.addTimer_ok hq
    cases hadd
    refine Spent.arm ?_ r
    exact h.of_frame (ne_of_alive_new hnew rfl) rfl id
  | cancel _ hcancel => exact h.cancelInLoop hcancel
  | handleTimerfdRead hidle hread =>
    obtain ⟨⟨q, expired⟩, hq, hread⟩ := bind_eq_ok hread
    cases hread
    obtain ⟨-, -, heq⟩ := TimerQueue.getExpiredTimer_ok hq
    intro ha
    have hheap : q.heap = s.queue.heap := by rw [heq]
    obtain ⟨hbatch, -⟩ := h ((alive_congr (congrFun hheap _)).mp ha)
    rw [phase_of_betweenFunctors hidle] at hbatch
    exact nomatch hbatch
  | callBack hphase _ => exact h.of_frame (fun _ => rfl) (by rw [hphase]; rfl) id
  | endBatch hphase hreset => exact h.endBatch hgood hphase hreset
  | swap _ => exact h
  | runAdd _ _ hadd =>
    obtain ⟨⟨q, r⟩, hq, hadd⟩ := bind_eq_ok hadd
    obtain ⟨tm, -, rfl, -⟩ := TimerQueue.addTimerInLoop_ok hq
    cases hadd
    refine Spent.arm ?_ r
    exact h.of_frame (fun _ => rfl) rfl id
  | runCancel _ _ hcancel =>
    exact Spent.cancelInLoop (s := { s with functors := s.functors.take .loopThread }) h hcancel
  | remoteNew _ => exact h.of_frame (ne_of_alive_new hnew rfl) rfl id
  | remotePush _ => exact h
  | remoteReturn _ => exact h
  | remoteCancel _ => exact h
  | createElsewhere => exact h

/-! ## Two runs, one of which has cancelled the timer -/

/-- `t` is `s` after a cancel of a timer that is out of date. -/
structure Shadow (timerId : ActiveTimer) (s t : TimerThreads) : Prop where
  known : timerId.sequence ≤ s.queue.timerCreated
  same : s.SameTimers t
  canceling : ∀ a, a ≠ timerId →
    (a ∈ t.queue.cancelingTimers ↔ a ∈ s.queue.cancelingTimers)
  sticky : timerId ∈ s.queue.cancelingTimers → timerId ∈ t.queue.cancelingTimers

/-- What a step does that leaves `cancelingTimers_` and the log alone. -/
structure Apart (s s' : TimerThreads) : Prop where
  canceling : s'.queue.cancelingTimers = s.queue.cancelingTimers
  log : s'.log = s.log
  created : s.queue.timerCreated ≤ s'.queue.timerCreated

lemma Apart.arm (h : Apart s t) (r : Option Timestamp) : Apart s (t.arm r) := by
  cases r with
  | none => exact h
  | some when => exact ⟨h.canceling, h.log, h.created⟩

lemma alike_of_map {R : TimerThreads → TimerThreads → Prop} {x y : Except Fault TimerThreads}
    {u : TimerThreads → TimerThreads} (hy : y = x.map u) (h : ∀ s', x = .ok s' → R s' (u s')) :
    Machine.Alike R x y := by
  subst hy
  cases x with
  | error e => exact rfl
  | ok s' => exact h s' rfl

namespace Shadow

lemma starts_eq (h : Shadow timerId s (s.withCancels c log)) : starts log = starts s.log := by
  obtain ⟨c', log', heq, hstarts⟩ := h.same
  have hlog : log = log' := congrArg TimerThreads.log heq
  rw [hlog, hstarts]

/-- A step that leaves the traces of cancels alone is the same for both. -/
lemma of_apart {x : Except Fault TimerThreads}
    (h : Shadow timerId s (s.withCancels c log)) (hapart : ∀ s', x = .ok s' → Apart s s') :
    Machine.Alike (Shadow timerId) x (x.map fun s' => s'.withCancels c log) := by
  refine alike_of_map rfl fun s' hs' => ?_
  obtain ⟨hcanceling, hlog, hcreated⟩ := hapart s' hs'
  have hstarts := h.starts_eq
  refine ⟨h.known.trans hcreated, ⟨c, log, rfl, by rw [hlog, hstarts]⟩,
    fun a ha => ?_, fun hmem => ?_⟩
  · rw [hcanceling]
    exact h.canceling a ha
  · rw [hcanceling] at hmem
    exact h.sticky hmem

lemma addTimer (h : Shadow timerId s (s.withCancels c log)) (when interval : ℤ)
    (isRepeat : Bool) :
    Machine.Alike (Shadow timerId) (s.addTimer p when interval isRepeat)
      ((s.withCancels c log).addTimer p when interval isRepeat) := by
  have hmap : (s.withCancels c log).addTimer p when interval isRepeat =
      (s.addTimer p when interval isRepeat).map fun s' => s'.withCancels c log := by
    unfold TimerThreads.addTimer
    refine TimerQueue.bind_map_eq_map
      (s.queue.addTimer_withCanceling c p when interval isRepeat) fun r _ => ?_
    obtain ⟨q, r, a⟩ := r
    cases r <;> rfl
  rw [hmap]
  refine h.of_apart fun s' hs' => ?_
  obtain ⟨⟨q, r, a⟩, hq, hs'⟩ := bind_eq_ok hs'
  cases hs'
  obtain ⟨rfl, -, -⟩ := TimerQueue.addTimer_ok hq
  have hlink : Apart s { s with
      queue := (s.queue.newTimer p when interval isRepeat).link p
        ⟨interval, isRepeat, when, s.queue.timerCreated + 1⟩
      returned := s.returned ++ [a] } := ⟨rfl, rfl, Nat.le_succ _⟩
  exact hlink.arm r

lemma addTimerInLoop (h : Shadow timerId s (s.withCancels c log)) (p : TimerPtr) :
    Machine.Alike (Shadow timerId) (s.addTimerInLoop p)
      ((s.withCancels c log).addTimerInLoop p) := by
  have hmap : (s.withCancels c log).addTimerInLoop p =
      (s.addTimerInLoop p).map fun s' => s'.withCancels c log := by
    unfold TimerThreads.addTimerInLoop
    refine TimerQueue.bind_map_eq_map (s.queue.addTimerInLoop_withCanceling c p) fun r _ => ?_
    obtain ⟨q, r⟩ := r
    cases r <;> rfl
  rw [hmap]
  refine h.of_apart fun s' hs' => ?_
  obtain ⟨⟨q, r⟩, hq, hs'⟩ := bind_eq_ok hs'
  cases hs'
  obtain ⟨tm, -, rfl, -⟩ := TimerQueue.addTimerInLoop_ok hq
  have hlink : Apart s { s with queue := s.queue.link p tm } := ⟨rfl, rfl, le_rfl⟩
  exact hlink.arm r

/-- Another cancel, of this timer or another one. -/
lemma cancelInLoop (h : Shadow timerId s (s.withCancels c log)) (timerId' : ActiveTimer) :
    Machine.Alike (Shadow timerId) (s.cancelInLoop timerId')
      ((s.withCancels c log).cancelInLoop timerId') := by
  have hmap : (s.withCancels c log).cancelInLoop timerId' =
      (s.cancelInLoop timerId').map fun s' =>
        s'.withCancels (s.queue.setAside c timerId') (log ++ [.cancelled timerId']) := by
    unfold TimerThreads.cancelInLoop
    exact TimerQueue.bind_map_eq_map (s.queue.cancelInLoop_withCanceling c timerId') fun q _ => rfl
  refine alike_of_map hmap fun s' hs' => ?_
  obtain ⟨q, hq, hs'⟩ := bind_eq_ok hs'
  cases hs'
  have hstarts := h.starts_eq
  have hcanceling : q.cancelingTimers = s.queue.setAside s.queue.cancelingTimers timerId' := by
    unfold TimerQueue.setAside
    rcases TimerQueue.cancelInLoop_ok hq with ⟨hactive, tm, -, rfl⟩ | ⟨hactive, rfl⟩
    · rw [if_neg fun hnot => hnot.1 hactive]
    · simp only [hactive, not_false_eq_true, true_and]
  have hcreated : q.timerCreated = s.queue.timerCreated := by
    rcases TimerQueue.cancelInLoop_ok hq with ⟨-, tm, -, rfl⟩ | ⟨-, rfl⟩ <;> rfl
  refine ⟨h.known.trans (le_of_eq hcreated.symm), ⟨_, _, rfl, ?_⟩, fun a ha => ?_,
    fun hmem => ?_⟩
  · simp only [starts, List.filterMap_append] at hstarts ⊢
    rw [hstarts]
  · have hold := h.canceling a ha
    change a ∈ s.queue.setAside c timerId' ↔ a ∈ q.cancelingTimers
    rw [hcanceling]
    unfold TimerQueue.setAside
    split
    · rw [OrderedSet.mem_insert, OrderedSet.mem_insert]
      exact or_congr Iff.rfl hold
    · exact hold
  · have hold := h.sticky
    change timerId ∈ q.cancelingTimers at hmem
    change timerId ∈ s.queue.setAside c timerId'
    rw [hcanceling] at hmem
    unfold TimerQueue.setAside at hmem ⊢
    split at hmem
    · next hcond =>
      rw [if_pos hcond, OrderedSet.mem_insert]
      exact (OrderedSet.mem_insert.mp hmem).imp_right hold
    · next hcond =>
      rw [if_neg hcond]
      exact hold hmem

lemma handleTimerfdRead (h : Shadow timerId s (s.withCancels c log)) :
    Machine.Alike (Shadow timerId) s.handleTimerfdRead
      (s.withCancels c log).handleTimerfdRead := by
  have hmap : (s.withCancels c log).handleTimerfdRead =
      s.handleTimerfdRead.map fun s' => s'.withCancels .empty log := by
    unfold TimerThreads.handleTimerfdRead
    exact TimerQueue.bind_map_eq_map (s.queue.getExpiredTimer_withCanceling c s.clock)
      fun r _ => rfl
  refine alike_of_map hmap fun s' hs' => ?_
  obtain ⟨⟨q, expired⟩, hq, hs'⟩ := bind_eq_ok hs'
  cases hs'
  obtain ⟨-, -, heq⟩ := TimerQueue.getExpiredTimer_ok hq
  have hcreated : q.timerCreated = s.queue.timerCreated := by rw [heq]
  exact ⟨h.known.trans (le_of_eq hcreated.symm), ⟨_, _, rfl, h.starts_eq⟩,
    fun _ _ => Iff.rfl, fun hmem => hmem⟩

/-- The callbacks do not look at what has been cancelled. -/
lemma startNext (h : Shadow timerId s (s.withCancels c log)) {now : Timestamp} {n : TimerNode}
    {expired toRun : List TimerNode} (hphase : s.phase = .calling now expired (n :: toRun)) :
    Machine.Alike (Shadow timerId) s.next (s.withCancels c log).next := by
  have hphase' : (s.withCancels c log).phase = .calling now expired (n :: toRun) := hphase
  unfold TimerThreads.next
  rw [hphase, hphase']
  dsimp only
  cases htm : s.queue.deref n.ptr with
  | error e =>
    have htm' : (s.withCancels c log).queue.deref n.ptr = .error e := htm
    rw [htm']
    exact rfl
  | ok tm =>
    have htm' : (s.withCancels c log).queue.deref n.ptr = .ok tm := htm
    rw [htm', ok_bind, ok_bind]
    refine ⟨h.known, ⟨_, _, rfl, ?_⟩, h.canceling, h.sticky⟩
    have hstarts := h.starts_eq
    simp only [withCancels, starts, List.filterMap_append] at hstarts ⊢
    rw [hstarts]

/-- The end of a batch does, but for a timer that is spent it comes to the same. -/
lemma endBatch (h : Shadow timerId s (s.withCancels c log)) {now : Timestamp}
    {expired : List TimerNode} (hphase : s.phase = .calling now expired [])
    (hgood : s.queue.Good s.loose) (hspent : s.Spent timerId) :
    Machine.Alike (Shadow timerId) s.next (s.withCancels c log).next := by
  have hphase' : (s.withCancels c log).phase = .calling now expired [] := hphase
  have hnodup := batch_nodup hgood hphase
  have hagree : TimerQueue.AgreeOn { s.queue with callingExpiredTimers := false } c
      (expired.map TimerNode.ptr) := by
    intro p _ tm htm hrep
    by_cases heq : ActiveTimer.mk p tm.sequence = timerId
    · subst heq
      obtain ⟨-, hone | hcanceled⟩ := hspent (alive_iff.mpr ⟨tm, htm, rfl⟩)
      · have hone : (s.queue.heap p).map Timer.isRepeat = some false := hone
        have htm : s.queue.heap p = some tm := htm
        rw [htm, Option.map_some, hrep] at hone
        exact nomatch hone
      · exact iff_of_true (h.sticky hcanceled) hcanceled
    · exact h.canceling _ heq
  have hmap : (s.withCancels c log).next = s.next.map fun s' => s'.withCancels c log := by
    unfold TimerThreads.next
    rw [hphase, hphase']
    refine TimerQueue.bind_map_eq_map (TimerQueue.reset_withCanceling hnodup hagree) fun r _ => ?_
    obtain ⟨q, r⟩ := r
    cases r <;> rfl
  rw [hmap]
  refine h.of_apart fun s' hs' => ?_
  unfold TimerThreads.next at hs'
  rw [hphase] at hs'
  obtain ⟨⟨q, r⟩, hreset, hs'⟩ := bind_eq_ok hs'
  cases hs'
  obtain ⟨hback, -⟩ := TimerQueue.reset_ok hreset
  have hapart : Apart s { s with queue := q, phase := .idle } :=
    ⟨hback.canceling, rfl, le_of_eq hback.timerCreated.symm⟩
  exact hapart.arm r

lemma next (h : Shadow timerId s (s.withCancels c log)) (hgood : s.queue.Good s.loose)
    (hspent : s.EndsBatch .next → s.Spent timerId) :
    Machine.Alike (Shadow timerId) s.next (s.withCancels c log).next := by
  cases hphase : s.phase with
  | idle =>
    have hphase' : (s.withCancels c log).phase = .idle := hphase
    unfold TimerThreads.next
    rw [hphase, hphase']
    exact h
  | calling now expired toRun =>
    cases toRun with
    | nil => exact h.endBatch hphase hgood (hspent ⟨rfl, now, expired, hphase⟩)
    | cons n toRun => exact h.startNext hphase

/-- Both do the same to the rest of the state. -/
lemma of_same {s' : TimerThreads} (h : Shadow timerId s (s.withCancels c log))
    (hapart : Apart s s') : Shadow timerId s' (s'.withCancels c log) := by
  have halike := h.of_apart (x := .ok s') fun _ heq => Except.ok.inj heq ▸ hapart
  exact halike

lemma runFunctor (h : Shadow timerId s (s.withCancels c log)) :
    Machine.Alike (Shadow timerId) s.runFunctor (s.withCancels c log).runFunctor := by
  have htake : Shadow timerId { s with functors := s.functors.take .loopThread }
      (withCancels { s with functors := s.functors.take .loopThread } c log) :=
    h.of_same ⟨rfl, rfl, le_rfl⟩
  have hfunctors : (s.withCancels c log).functors = s.functors := rfl
  unfold TimerThreads.runFunctor
  dsimp only
  rw [hfunctors]
  split
  · exact h
  · next p _ => exact htake.addTimerInLoop p
  · next timerId' _ => exact htake.cancelInLoop timerId'

lemma step (h : Shadow timerId s (s.withCancels c log)) (hgood : s.queue.Good s.loose)
    {i : ThreadInput} (hspent : s.EndsBatch i → s.Spent timerId) :
    Machine.Alike (Shadow timerId) (s.step i) ((s.withCancels c log).step i) := by
  -- the guards of both are the same
  cases i with
  | tick d => exact h.of_same ⟨rfl, rfl, le_rfl⟩
  | addTimer p when interval isRepeat =>
    have hfree : (s.withCancels c log).Free p ↔ s.Free p := Iff.rfl
    simp only [TimerThreads.step, hfree]
    split
    · exact h.addTimer when interval isRepeat
    · exact h
  | cancel timerId' =>
    have hret : (s.withCancels c log).returned = s.returned := rfl
    simp only [TimerThreads.step, hret]
    split
    · exact h.cancelInLoop timerId'
    · exact h
  | handleTimerfdRead =>
    have hbetween : (s.withCancels c log).betweenFunctors = s.betweenFunctors := rfl
    simp only [TimerThreads.step, hbetween]
    split
    · exact h.handleTimerfdRead
    · exact h
  | next => exact h.next hgood hspent
  | swap =>
    have hbetween : (s.withCancels c log).betweenFunctors = s.betweenFunctors := rfl
    simp only [TimerThreads.step, hbetween]
    split
    · exact h.of_same ⟨rfl, rfl, le_rfl⟩
    · exact h
  | runFunctor =>
    have hcall : (s.withCancels c log).inCallback = s.inCallback := rfl
    simp only [TimerThreads.step, hcall]
    split
    · exact h
    · exact h.runFunctor
  | remoteNew th p when interval isRepeat =>
    have hfree : (s.withCancels c log).Free p ↔ s.Free p := Iff.rfl
    simp only [TimerThreads.step, hfree]
    split
    · exact h.of_same ⟨rfl, rfl, Nat.le_succ _⟩
    · exact h
  | remotePush th =>
    have hmade : (s.withCancels c log).made = s.made := rfl
    simp only [TimerThreads.step, hmade]
    cases waiting s.made th with
    | none => exact h
    | some w => exact h.of_same ⟨rfl, rfl, le_rfl⟩
  | remoteReturn th =>
    have hpushed : (s.withCancels c log).pushed = s.pushed := rfl
    simp only [TimerThreads.step, hpushed]
    split
    · exact h
    · next w _ =>
      unfold TimerThreads.remoteReturn
      cases htm : s.queue.deref w.2.ptr with
      | error e =>
        have htm' : (s.withCancels c log).queue.deref w.2.ptr = .error e := htm
        rw [htm']
        exact rfl
      | ok tm =>
        have htm' : (s.withCancels c log).queue.deref w.2.ptr = .ok tm := htm
        rw [htm', ok_bind, ok_bind]
        split
        · exact h.of_same ⟨rfl, rfl, le_rfl⟩
        · exact rfl
  | remoteCancel timerId' =>
    have hret : (s.withCancels c log).returned = s.returned := rfl
    simp only [TimerThreads.step, hret]
    split
    · exact h.of_same ⟨rfl, rfl, le_rfl⟩
    · exact h
  | createElsewhere => exact h.of_same ⟨rfl, rfl, Nat.le_succ _⟩

end Shadow

/-- The same timers but for one, and the same batch. -/
def OtherTimers (timerId : ActiveTimer) (s t : TimerThreads) : Prop :=
  TimerQueue.SameOthers timerId.ptr s.queue t.queue ∧ t.phase = s.phase ∧
    t.functors = s.functors ∧ starts t.log = starts s.log

lemma OtherTimers.arm (h : OtherTimers timerId s t) (r r' : Option Timestamp) :
    OtherTimers timerId (s.arm r) (t.arm r') := by
  cases r <;> cases r' <;> exact h

/-- At the end of a batch every other timer is put back or deleted as it would have been. -/
lemma Shadow.endBatch_others (h : Shadow timerId s (s.withCancels c log))
    (hgood : s.queue.Good s.loose) {now : Timestamp} {expired : List TimerNode}
    (hphase : s.phase = .calling now expired []) :
    Machine.Alike (OtherTimers timerId) s.next (s.withCancels c log).next := by
  have hphase' : (s.withCancels c log).phase = .calling now expired [] := hphase
  have hgood' : (s.withCancels c log).queue.Good (s.withCancels c log).loose :=
    hgood.of_eq rfl rfl rfl rfl (le_refl _) rfl
  obtain ⟨⟨q, r⟩, hq, -⟩ := (good_endBatch hgood hphase).reset now
  obtain ⟨⟨q', r'⟩, hq', -⟩ := (good_endBatch hgood' hphase').reset now
  rw [next_endBatch hphase hq, next_endBatch hphase' hq']
  obtain ⟨q₁, hall, heq⟩ := bind_eq_ok hq
  obtain ⟨q₂, hall', heq'⟩ := bind_eq_ok hq'
  cases heq
  cases heq'
  have hbefore : TimerQueue.SameOthers timerId.ptr { s.queue with callingExpiredTimers := false }
      { s.queue.withCanceling c with callingExpiredTimers := false } :=
    ⟨fun _ _ => rfl, fun _ _ => Iff.rfl, fun _ _ => Iff.rfl,
      fun a ha => h.canceling a fun heq => ha (congrArg ActiveTimer.ptr heq)⟩
  have hafter : OtherTimers timerId { s with queue := q, phase := .idle }
      { s.withCancels c log with queue := q', phase := .idle } :=
    ⟨hbefore.resetAll hall hall', rfl, rfl, h.starts_eq⟩
  exact hafter.arm _ _

/-! ## Every run -/

lemma good_of_run {n : ℕ} {clock : Timestamp} {is : List ThreadInput}
    (hrun : machine.run (start n clock) is = .ok s) : s.queue.Good s.loose :=
  machine.run_invariant (I := fun s => s.queue.Good s.loose)
    (fun _ _ _ h hstep => step_good h hstep) (TimerQueue.start_good n) hrun

/-- The cancel finds nothing. -/
lemma Past.shadow (hpast : s.Past timerId) (hgood : s.queue.Good s.loose) :
    ∃ c, s.cancelInLoop timerId = .ok (s.withCancels c (s.log ++ [.cancelled timerId])) ∧
      Shadow timerId s (s.withCancels c (s.log ++ [.cancelled timerId])) := by
  have hnot := hpast.notMem_active hgood
  obtain ⟨q, hq, -⟩ := hgood.cancelInLoop timerId
  have hqueue : q = s.queue.withCanceling (if s.queue.callingExpiredTimers then
      s.queue.cancelingTimers.insert timerId else s.queue.cancelingTimers) := by
    rcases TimerQueue.cancelInLoop_ok hq with ⟨hmem, -⟩ | ⟨-, heq⟩
    · exact absurd hmem hnot
    · exact heq
  subst hqueue
  refine ⟨_, by rw [TimerThreads.cancelInLoop, hq]; rfl, hpast.sequence_le hgood,
    ⟨_, _, rfl, by simp [starts]⟩, fun a ha => ?_, fun hmem => ?_⟩
  · change a ∈ ite _ _ _ ↔ _
    split
    · rw [OrderedSet.mem_insert]
      exact or_iff_right ha
    · exact Iff.rfl
  · change timerId ∈ ite _ _ _
    split
    · exact OrderedSet.mem_insert.mpr (Or.inr hmem)
    · exact hmem

/-- For a timer that is over, the run with the cancel is the run without it. -/
lemma Shadow.run (h : Shadow timerId s t) (hgood : s.queue.Good s.loose)
    (hspent : s.Spent timerId) (js : List ThreadInput) :
    Machine.Alike SameTimers (machine.run s js) (machine.run t js) := by
  have halike : Machine.Alike
      (fun u v => u.queue.Good u.loose ∧ Shadow timerId u v ∧ u.Spent timerId)
      (machine.run s js) (machine.run t js) := by
    refine machine.run_alike (P := fun _ _ => True) ?_ ⟨hgood, h, hspent⟩
      (machine.along_of_forall (fun _ _ => trivial) _ _)
    rintro u v i ⟨hu, hshadow, hover⟩ -
    obtain ⟨c, log, rfl, -⟩ := hshadow.same
    refine (hshadow.step hu fun _ => hover).imp fun u' v' hstep hR => ?_
    exact ⟨step_good hu hstep, hR, hover.step hu hshadow.known hstep⟩
  exact halike.imp fun u v _ hR => hR.2.1.same

/-- In any case it is up to the end of the batch, where only the timer itself is concerned. -/
lemma Shadow.run_batch (h : Shadow timerId s t) (hgood : s.queue.Good s.loose)
    {js : List ThreadInput} (hjs : machine.Along (fun u j => ¬ u.EndsBatch j) s js) :
    Machine.Alike (fun u v => u.SameTimers v ∧ (u.EndsBatch .next →
      Machine.Alike (OtherTimers timerId) (machine.step u .next) (machine.step v .next)))
      (machine.run s js) (machine.run t js) := by
  have halike : Machine.Alike (fun u v => u.queue.Good u.loose ∧ Shadow timerId u v)
      (machine.run s js) (machine.run t js) := by
    refine machine.run_alike ?_ ⟨hgood, h⟩ hjs
    rintro u v i ⟨hu, hshadow⟩ hi
    obtain ⟨c, log, rfl, -⟩ := hshadow.same
    refine (hshadow.step hu fun hends => absurd hends hi).imp fun u' v' hstep hR => ?_
    exact ⟨step_good hu hstep, hR⟩
  refine halike.imp fun u v _ hR => ⟨hR.2.same, fun hends => ?_⟩
  obtain ⟨hu, hshadow⟩ := hR
  obtain ⟨-, now, expired, hphase⟩ := hends
  obtain ⟨c, log, rfl, -⟩ := hshadow.same
  exact hshadow.endBatch_others hu hphase

/-- **A stale id is harmless.**  In every run, a cancel of a timer that has been deleted, or is in
the batch that is run, leaves both sets as they are.  If the timer is not going to run again, what
follows is the same with the cancel and without it.  If it is, all is the same until the batch ends,
and so are then all the other timers. -/
theorem stale_cancel_harmless {n : ℕ} {clock : Timestamp} {is : List ThreadInput}
    {i : ThreadInput} {s' : TimerThreads} (hrun : machine.run (start n clock) is = .ok s)
    (hexec : s.Executes timerId i s') (hpast : s.Past timerId) :
    ∃ t, machine.step s i = .ok t ∧ t.queue.timers = s.queue.timers ∧
      t.queue.activeTimers = s.queue.activeTimers ∧
      (s.Spent timerId →
        ∀ js, Machine.Alike SameTimers (machine.run s' js) (machine.run t js)) ∧
      ∀ js, machine.Along (fun u j => ¬ u.EndsBatch j) s' js →
        Machine.Alike (fun u v => u.SameTimers v ∧ (u.EndsBatch .next →
          Machine.Alike (OtherTimers timerId) (machine.step u .next) (machine.step v .next)))
          (machine.run s' js) (machine.run t js) := by
  have hgood := good_of_run hrun
  cases hexec with
  | now hret =>
    obtain ⟨c, hcancel, hshadow⟩ := hpast.shadow hgood
    refine ⟨_, (if_pos hret).trans hcancel, rfl, rfl, fun hspent js => hshadow.run hgood hspent js,
      fun js hjs => hshadow.run_batch hgood hjs⟩
  | queued hidle hhead =>
    have hgood' : s.queue.Good (loose { s with functors := s.functors.take .loopThread }) := by
      rw [loose_take_cancel hhead]
      exact hgood
    have hpast' : Past { s with functors := s.functors.take .loopThread } timerId := hpast
    obtain ⟨c, hcancel, hshadow⟩ := hpast'.shadow hgood'
    have hstep : machine.step s .runFunctor =
        { s with functors := s.functors.take .loopThread }.cancelInLoop timerId := by
      change (if s.inCallback then _ else _) = _
      rw [if_neg (by simp [hidle])]
      unfold TimerThreads.runFunctor
      dsimp only
      rw [hhead]
    exact ⟨_, hstep.trans hcancel, rfl, rfl, fun hspent js => hshadow.run hgood' hspent js,
      fun js hjs => hshadow.run_batch hgood' hjs⟩

/-- A timer is cancelled, and its address goes to a repeating one, of which the callback is
running. -/
def reusedAddress : List ThreadInput :=
  [.addTimer 8 1000100 0 false, .cancel (.mk 8 1), .addTimer 8 1000100 50 true, .tick 150,
    .handleTimerfdRead, .next]

/-- The callback cancels the first timer once more.  The id is put aside, and the batch ends as it
would have ended. -/
theorem stale_cancel_harmless_reused : ∃ s,
    machine.run (start 0 1000000) reusedAddress = .ok s ∧ s.phase.batch.map TimerNode.ptr = [8] ∧
      ∃ t, machine.step s (.cancel (.mk 8 1)) = .ok t ∧ t.queue.timers = s.queue.timers ∧
        Machine.Alike SameTimers (machine.run s [.next]) (machine.run t [.next]) := by
  have hbefore : ∃ s, machine.run (start 0 1000000) reusedAddress = .ok s ∧
      s.phase.batch.map TimerNode.ptr = [8] ∧ ActiveTimer.mk 8 1 ∈ s.returned ∧
      1 ∈ s.queue.deleted ∧ ¬ Alive s.queue (.mk 8 1) := by
    decide +kernel
  obtain ⟨s, hs, hbatch, hret, hdel, hgone⟩ := hbefore
  obtain ⟨t, hstep, htimers, -, hrest, -⟩ := stale_cancel_harmless hs (.now hret) (Or.inl hdel)
  exact ⟨s, hs, hbatch, t, hstep, htimers, hrest (fun ha => absurd ha hgone) [.next]⟩

end TimerThreads

end Firey
