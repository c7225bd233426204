import Firey.Net.TimerQueue

/-!
# What each operation of `TimerQueueff` leaves behind

One inversion lemma an operation: if it succeeds, this is the queue it returns.  Nothing is
assumed of the queue, so the results on when a timer fires and when the timerfd is set do not
unfold the operations any more.  `PutBack` is what a `reset` does to the heap and to `timers_`,
whatever the batch.
-/

set_option autoImplicit false

namespace Firey

namespace TimerNode

lemma when_mono {m n : TimerNode} (h : m ≤ n) : m.when ≤ n.when := Prod.Lex.monotone_fst_ofLex h

end TimerNode

namespace TimerQueue

variable {q q' : TimerQueue} {p : TimerPtr} {now : Timestamp}

lemma deref_eq_ok {tm : Timer} (h : q.deref p = .ok tm) : q.heap p = some tm := by
  unfold deref at h
  split at h
  · next htm =>
    cases h
    exact htm
  · cases h

/-! ## Adding -/

/-- The queue with a timer of the heap in both sets. -/
def link (q : TimerQueue) (p : TimerPtr) (tm : Timer) : TimerQueue :=
  { q with
    timers := q.timers.insert (.mk tm.expireTime p)
    activeTimers := q.activeTimers.insert (.mk p tm.sequence) }

lemma insertTimer_ok {b : Bool} (h : q.insertTimer p = .ok (q', b)) :
    ∃ tm, q.heap p = some tm ∧ q' = q.link p tm ∧
      (b = true ↔ ∀ m ∈ q.timers, tm.expireTime < m.when) := by
  unfold insertTimer at h
  obtain ⟨-, -, h⟩ := bind_eq_ok h
  obtain ⟨tm, htm, h⟩ := bind_eq_ok h
  dsimp only at h
  obtain ⟨-, -, h⟩ := bind_eq_ok h
  cases h
  exact ⟨tm, deref_eq_ok htm, rfl, OrderedSet.first?_all_lt_iff fun _ _ => TimerNode.when_mono⟩

/-- What an addition asks of the timerfd: to be set for a timer that is before all others, and
nothing for one that is not. -/
def AsksFor (q : TimerQueue) (when : Timestamp) (r : Option Timestamp) : Prop :=
  (r = some when ∧ ∀ m ∈ q.timers, when < m.when) ∨ (r = none ∧ ∃ m ∈ q.timers, m.when ≤ when)

lemma addTimerInLoop_ok {r : Option Timestamp} (h : q.addTimerInLoop p = .ok (q', r)) :
    ∃ tm, q.heap p = some tm ∧ q' = q.link p tm ∧ q.AsksFor tm.expireTime r := by
  unfold addTimerInLoop at h
  obtain ⟨⟨q₁, b⟩, hins, h⟩ := bind_eq_ok h
  obtain ⟨tm, htm, rfl, hb⟩ := insertTimer_ok hins
  dsimp only at h
  cases b with
  | true =>
    rw [if_pos rfl] at h
    obtain ⟨tm', htm', h⟩ := bind_eq_ok h
    cases h
    cases (deref_eq_ok htm').symm.trans htm
    exact ⟨tm, htm, rfl, Or.inl ⟨rfl, hb.mp rfl⟩⟩
  | false =>
    cases h
    refine ⟨tm, htm, rfl, Or.inr ⟨rfl, ?_⟩⟩
    by_contra hnone
    push Not at hnone
    exact absurd (hb.mpr hnone) (by simp)

lemma addTimer_ok {when : Timestamp} {interval : ℤ} {isRepeat : Bool} {r : Option Timestamp}
    {timerId : ActiveTimer} (h : q.addTimer p when interval isRepeat = .ok (q', r, timerId)) :
    q' = (q.newTimer p when interval isRepeat).link p
        ⟨interval, isRepeat, when, q.timerCreated + 1⟩ ∧
      timerId = .mk p (q.timerCreated + 1) ∧ q.AsksFor when r := by
  unfold addTimer at h
  obtain ⟨⟨q₁, r₁⟩, hadd, h⟩ := bind_eq_ok h
  obtain ⟨tm, htm, rfl, hr⟩ := addTimerInLoop_ok hadd
  have hself : (q.newTimer p when interval isRepeat).heap p =
      some ⟨interval, isRepeat, when, q.timerCreated + 1⟩ := Function.update_self ..
  cases htm.symm.trans hself
  dsimp only at h
  obtain ⟨tm', htm', h⟩ := bind_eq_ok h
  cases h
  cases (deref_eq_ok htm').symm.trans hself
  exact ⟨rfl, rfl, hr⟩

/-! ## Cancelling -/

lemma delete_ok (h : q.delete p = .ok q') :
    ∃ tm, q.heap p = some tm ∧
      q' = { q with
        heap := Function.update q.heap p none, deleted := q.deleted ++ [tm.sequence] } := by
  unfold delete at h
  obtain ⟨tm, htm, h⟩ := bind_eq_ok h
  cases h
  exact ⟨tm, deref_eq_ok htm, rfl⟩

/-- A timer of the queue is deleted; any other id is kept while callbacks are run. -/
lemma cancelInLoop_ok {timerId : ActiveTimer} (h : q.cancelInLoop timerId = .ok q') :
    (timerId ∈ q.activeTimers ∧ ∃ tm, q.heap timerId.ptr = some tm ∧
      q' = { q with
        heap := Function.update q.heap timerId.ptr none
        deleted := q.deleted ++ [tm.sequence]
        timers := q.timers.erase (.mk tm.expireTime timerId.ptr)
        activeTimers := q.activeTimers.erase timerId }) ∨
    (timerId ∉ q.activeTimers ∧
      q' = { q with
        cancelingTimers :=
          if q.callingExpiredTimers then q.cancelingTimers.insert timerId
          else q.cancelingTimers }) := by
  unfold cancelInLoop at h
  obtain ⟨-, -, h⟩ := bind_eq_ok h
  dsimp only at h
  split at h
  · next hmem =>
    obtain ⟨tm, htm, h⟩ := bind_eq_ok h
    obtain ⟨q₁, hdel, h⟩ := bind_eq_ok h
    obtain ⟨tm', htm', rfl⟩ := delete_ok hdel
    cases (deref_eq_ok htm).symm.trans htm'
    simp only [ok_bind] at h
    obtain ⟨-, -, h⟩ := bind_eq_ok h
    cases h
    exact Or.inl ⟨hmem, tm, htm', rfl⟩
  · next hmem =>
    refine Or.inr ⟨hmem, ?_⟩
    split at h
    · next hcalling =>
      simp only [ok_bind] at h
      obtain ⟨-, -, h⟩ := bind_eq_ok h
      cases h
      rw [if_pos hcalling]
    · next hcalling =>
      simp only [ok_bind] at h
      obtain ⟨-, -, h⟩ := bind_eq_ok h
      cases h
      rw [if_neg hcalling]

/-! ## Expiry -/

lemma eraseActive_ok {ns : List TimerNode} (h : q.eraseActive ns = .ok q') :
    q' = { q with activeTimers := q'.activeTimers } := by
  induction ns generalizing q with
  | nil =>
    cases h
    rfl
  | cons n ns ih =>
    rw [eraseActive] at h
    obtain ⟨tm, -, h⟩ := bind_eq_ok h
    have hrest := ih h
    exact hrest

lemma getExpiredTimer_ok {expired : List TimerNode}
    (h : q.getExpiredTimer now = .ok (q', expired)) :
    expired = q.timers.before (.mk now UINTPTR_MAX) ∧
      (∀ n ∈ q'.timers, n ∈ q.timers ∧ now < n.when) ∧
      q' = { q with timers := q'.timers, activeTimers := q'.activeTimers } := by
  unfold getExpiredTimer at h
  obtain ⟨-, -, h⟩ := bind_eq_ok h
  dsimp only at h
  obtain ⟨_, hbound, h⟩ := bind_eq_ok h
  obtain ⟨q₁, herase, h⟩ := bind_eq_ok h
  obtain ⟨-, -, h⟩ := bind_eq_ok h
  cases h
  have heq := eraseActive_ok herase
  rw [heq]
  refine ⟨rfl, fun n hn => ⟨(OrderedSet.mem_eraseBefore.mp hn).1, ?_⟩, rfl⟩
  exact (OrderedSet.first?_all_lt_iff fun _ _ => TimerNode.when_mono).mp (check_eq_ok hbound) n hn

/-- What is left when the timers at `ps` were put back or deleted at `now`. -/
structure PutBack (q q' : TimerQueue) (now : Timestamp) (ps : List TimerPtr) : Prop where
  heap : ∀ p tm, q'.heap p = some tm → ∃ tm', q.heap p = some tm' ∧
    tm.sequence = tm'.sequence ∧ tm.interval = tm'.interval ∧
    (tm.expireTime = tm'.expireTime ∨ tm.expireTime = now + tm'.interval) ∧
    (p ∈ ps → ActiveTimer.mk p tm.sequence ∉ q.cancelingTimers)
  frame : ∀ p, p ∉ ps → q'.heap p = q.heap p
  timers : ∀ n ∈ q'.timers, n ∈ q.timers ∨ ∃ p tm, q.heap p = some tm ∧ n.when = now + tm.interval
  kept : ∀ n ∈ q.timers, n ∈ q'.timers
  canceling : q'.cancelingTimers = q.cancelingTimers
  calling : q'.callingExpiredTimers = q.callingExpiredTimers
  timerCreated : q'.timerCreated = q.timerCreated

lemma PutBack.refl (q : TimerQueue) (now : Timestamp) : PutBack q q now [] where
  heap := fun _ tm htm => ⟨tm, htm, rfl, rfl, Or.inl rfl, fun h => nomatch h⟩
  frame := fun _ _ => rfl
  timers := fun _ hn => Or.inl hn
  kept := fun _ hn => hn
  canceling := rfl
  calling := rfl
  timerCreated := rfl

lemma PutBack.trans {q'' : TimerQueue} {ps ps' : List TimerPtr} (h : PutBack q q' now ps)
    (h' : PutBack q' q'' now ps') : PutBack q q'' now (ps ++ ps') where
  heap := by
    intro p tm htm
    obtain ⟨tm₁, htm₁, hseq, hint, hexp, hps'⟩ := h'.heap p tm htm
    obtain ⟨tm₂, htm₂, hseq', hint', hexp', hps⟩ := h.heap p tm₁ htm₁
    refine ⟨tm₂, htm₂, hseq.trans hseq', hint.trans hint', ?_, fun hmem => ?_⟩
    · rcases hexp with hexp | hexp
      · rw [hexp]
        exact hexp'
      · exact Or.inr (hexp.trans (by rw [hint']))
    · rcases List.mem_append.mp hmem with hmem | hmem
      · rw [hseq]
        exact hps hmem
      · rw [← h.canceling]
        exact hps' hmem
  frame := by
    intro p hp
    obtain ⟨hps, hps'⟩ := not_or.mp (fun hmem => hp (List.mem_append.mpr hmem))
    exact (h'.frame p hps').trans (h.frame p hps)
  timers := by
    intro n hn
    rcases h'.timers n hn with hold | ⟨p, tm, htm, hwhen⟩
    · exact h.timers n hold
    · obtain ⟨tm', htm', -, hint, -⟩ := h.heap p tm htm
      exact Or.inr ⟨p, tm', htm', hwhen.trans (by rw [hint])⟩
  kept := fun n hn => h'.kept n (h.kept n hn)
  canceling := h'.canceling.trans h.canceling
  calling := h'.calling.trans h.calling
  timerCreated := h'.timerCreated.trans h.timerCreated

/-- What is put back repeats and has not been cancelled. -/
def PutsBack (q : TimerQueue) (p : TimerPtr) (tm : Timer) : Prop :=
  tm.isRepeat = true ∧ ActiveTimer.mk p tm.sequence ∉ q.cancelingTimers

/-- The queue with the timer restarted and in both sets again. -/
def relink (q : TimerQueue) (p : TimerPtr) (tm : Timer) (now : Timestamp) : TimerQueue :=
  link { q with heap := Function.update q.heap p (some (tm.restart now)) } p (tm.restart now)

/-- One timer of the batch is put back or deleted. -/
lemma resetTimer_ok {n : TimerNode} (h : q.resetTimer now n = .ok q') :
    ∃ tm, q.heap n.ptr = some tm ∧
      (q.PutsBack n.ptr tm ∧ q' = q.relink n.ptr tm now ∨
        ¬ q.PutsBack n.ptr tm ∧ q' = { q with
          heap := Function.update q.heap n.ptr none, deleted := q.deleted ++ [tm.sequence] }) := by
  unfold resetTimer at h
  obtain ⟨tm, htm, h⟩ := bind_eq_ok h
  have htm := deref_eq_ok htm
  refine ⟨tm, htm, ?_⟩
  split at h
  · next hback =>
    obtain ⟨⟨q₁, b⟩, hins, h⟩ := bind_eq_ok h
    cases h
    obtain ⟨tm', htm', rfl, -⟩ := insertTimer_ok hins
    cases htm'.symm.trans (Function.update_self ..)
    exact Or.inl ⟨hback, rfl⟩
  · next hback =>
    obtain ⟨tm', htm', rfl⟩ := delete_ok h
    cases htm'.symm.trans htm
    exact Or.inr ⟨hback, rfl⟩

lemma restart_eq {tm : Timer} (hrep : tm.isRepeat = true) :
    tm.restart now = { tm with expireTime := now + tm.interval } := by
  unfold Timer.restart
  rw [if_neg (by simp [hrep])]

lemma resetTimer_putBack {n : TimerNode} (h : q.resetTimer now n = .ok q') :
    PutBack q q' now [n.ptr] := by
  obtain ⟨t, ht, ⟨hback, rfl⟩ | ⟨-, rfl⟩⟩ := resetTimer_ok h
  · unfold relink link
    rw [restart_eq hback.1]
    refine ⟨fun p tm' htm' => ?_, fun p hp => Function.update_of_ne (by simpa using hp) _ _,
      fun m hm => ?_, fun m hm => ?_, rfl, rfl, rfl⟩
    · dsimp only at htm'
      by_cases hp : p = n.ptr
      · subst hp
        rw [Function.update_self] at htm'
        cases htm'
        exact ⟨t, ht, rfl, rfl, Or.inr rfl, fun _ => hback.2⟩
      · rw [Function.update_of_ne hp] at htm'
        refine ⟨tm', htm', rfl, rfl, Or.inl rfl, fun hmem => ?_⟩
        exact absurd (List.mem_singleton.mp hmem) hp
    · rcases OrderedSet.mem_insert.mp hm with rfl | hold
      · exact Or.inr ⟨n.ptr, t, ht, rfl⟩
      · exact Or.inl hold
    · exact OrderedSet.mem_insert.mpr (Or.inr hm)
  · refine ⟨fun p tm' htm' => ?_, fun p hp => Function.update_of_ne (by simpa using hp) _ _,
      fun m hm => Or.inl hm, fun m hm => hm, rfl, rfl, rfl⟩
    dsimp only at htm'
    by_cases hp : p = n.ptr
    · rw [hp, Function.update_self] at htm'
      cases htm'
    · rw [Function.update_of_ne hp] at htm'
      refine ⟨tm', htm', rfl, rfl, Or.inl rfl, fun hmem => ?_⟩
      exact absurd (List.mem_singleton.mp hmem) hp

lemma resetAll_putBack {ns : List TimerNode} (h : q.resetAll now ns = .ok q') :
    PutBack q q' now (ns.map TimerNode.ptr) := by
  induction ns generalizing q with
  | nil =>
    cases h
    exact .refl _ now
  | cons n ns ih =>
    rw [resetAll] at h
    obtain ⟨q₁, hone, h⟩ := bind_eq_ok h
    exact (resetTimer_putBack hone).trans (ih h)

lemma resetTimer_keeps {n : TimerNode} (h : q.resetTimer now n = .ok q') {tm : Timer}
    (htm : q.heap p = some tm) (hback : p = n.ptr → q.PutsBack p tm) :
    ∃ tm', q'.heap p = some tm' ∧ tm'.sequence = tm.sequence ∧ tm'.isRepeat = tm.isRepeat := by
  by_cases hp : p = n.ptr
  · subst hp
    obtain ⟨t, ht, ⟨-, rfl⟩ | ⟨hnot, -⟩⟩ := resetTimer_ok h
    · cases ht.symm.trans htm
      refine ⟨tm.restart now, Function.update_self .., ?_⟩
      rw [restart_eq (hback rfl).1]
      exact ⟨rfl, rfl⟩
    · cases ht.symm.trans htm
      exact absurd (hback rfl) hnot
  · refine ⟨tm, ?_, rfl, rfl⟩
    rw [(resetTimer_putBack h).frame p (by simpa using hp), htm]

/-- Of the batch, the timers that repeat and have not been cancelled are kept. -/
lemma resetAll_keeps {ns : List TimerNode} (h : q.resetAll now ns = .ok q') {tm : Timer}
    (htm : q.heap p = some tm) (hback : p ∈ ns.map TimerNode.ptr → q.PutsBack p tm) :
    ∃ tm', q'.heap p = some tm' ∧ tm'.sequence = tm.sequence ∧ tm'.isRepeat = tm.isRepeat := by
  induction ns generalizing q tm with
  | nil =>
    cases h
    exact ⟨tm, htm, rfl, rfl⟩
  | cons n ns ih =>
    rw [resetAll] at h
    obtain ⟨q₁, hone, h⟩ := bind_eq_ok h
    obtain ⟨tm₁, htm₁, hseq, hrep⟩ :=
      resetTimer_keeps hone htm fun hp => hback (hp ▸ List.mem_cons_self)
    obtain ⟨tm₂, htm₂, hseq', hrep'⟩ := ih h htm₁ fun hmem => by
      unfold PutsBack
      rw [hseq, hrep, (resetTimer_putBack hone).canceling]
      exact hback (List.mem_cons_of_mem _ hmem)
    exact ⟨tm₂, htm₂, hseq'.trans hseq, hrep'.trans hrep⟩

/-- Each of them is restarted, and the others are deleted. -/
lemma resetAll_heap {ns : List TimerNode} (h : q.resetAll now ns = .ok q')
    (hnodup : (ns.map TimerNode.ptr).Nodup) (hp : p ∈ ns.map TimerNode.ptr) {tm : Timer}
    (htm : q.heap p = some tm) :
    (q.PutsBack p tm → q'.heap p = some (tm.restart now)) ∧
      (¬ q.PutsBack p tm → q'.heap p = none) := by
  induction ns generalizing q with
  | nil => cases hp
  | cons n ns ih =>
    rw [resetAll] at h
    obtain ⟨q₁, hone, h⟩ := bind_eq_ok h
    obtain ⟨hn, hnodup⟩ := List.nodup_cons.mp hnodup
    rcases List.mem_cons.mp hp with rfl | hp
    · rw [(resetAll_putBack h).frame _ hn]
      obtain ⟨t, ht, hdone⟩ := resetTimer_ok hone
      cases ht.symm.trans htm
      rcases hdone with ⟨hputs, rfl⟩ | ⟨hputs, rfl⟩
      · exact ⟨fun _ => Function.update_self .., fun hback => absurd hputs hback⟩
      · exact ⟨fun hback => absurd hback hputs, fun _ => Function.update_self ..⟩
    · have hne : p ≠ n.ptr := by
        rintro rfl
        exact hn hp
      have hframe := resetTimer_putBack hone
      have hsame : q₁.PutsBack p tm ↔ q.PutsBack p tm := by
        unfold PutsBack
        rw [hframe.canceling]
      rw [← hsame]
      refine ih h hnodup hp ?_
      rw [hframe.frame p (by simpa using hne), htm]

/-- `reset` sets the timerfd for the earliest timer, unless there is none or its time is not
valid. -/
lemma reset_ok {expired : List TimerNode} {r : Option Timestamp}
    (h : q.reset expired now = .ok (q', r)) :
    PutBack q q' now (expired.map TimerNode.ptr) ∧
      ((∃ n ∈ q'.timers, r = some n.when ∧ ∀ m ∈ q'.timers, n.when ≤ m.when) ∨
        r = none ∧ ∀ m ∈ q'.timers, ∃ n ∈ q'.timers, n.when = 0 ∧ n.when ≤ m.when) := by
  unfold reset at h
  obtain ⟨q₁, hall, h⟩ := bind_eq_ok h
  cases h
  refine ⟨resetAll_putBack hall, ?_⟩
  cases hfirst : q'.timers.first? with
  | none =>
    refine Or.inr ⟨rfl, fun m hm => ?_⟩
    exact absurd hm (OrderedSet.first?_eq_none.mp hfirst m)
  | some n =>
    obtain ⟨hmem, hle⟩ := OrderedSet.first?_eq_some hfirst
    have hle' : ∀ m ∈ q'.timers, n.when ≤ m.when := fun m hm => TimerNode.when_mono (hle m hm)
    simp only [Option.map_some, Option.getD_some]
    by_cases hz : n.when = 0
    · exact Or.inr ⟨if_neg (not_not.mpr hz), fun m hm => ⟨n, hmem, hz, hle' m hm⟩⟩
    · exact Or.inl ⟨n, hmem, if_pos hz, hle'⟩

end TimerQueue

end Firey
