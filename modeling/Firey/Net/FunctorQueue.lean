import Mathlib.Logic.Function.Basic
import Firey.Fault
import Firey.Framework.Machine
import Firey.Framework.Mailbox

/-!
# The functor queue of `EventLoopff` and its wakeups

Any number of threads call `queueInLoop`, `runInLoop` and `quit` on a loop that runs.  The loop
thread goes through the phases of `loop()`; in the event handlers and in the functors it calls
the same functions itself.  A call of `queueInLoop` is two steps, the push under the mutex and
the write to the eventfd, and any step of another thread may fall between them.

`pendingFunctors_` and the vector it is swapped into are a `Mailbox`.  `Inv` adds to what the
mailbox keeps where the loop thread can be, and `Woken`: as long as the loop is not on its way
to the swap, a functor in the queue has its wakeup in the eventfd, or still to be written.
-/

set_option autoImplicit false

namespace Firey

/-- A thread other than the loop's. -/
abbrev ThreadId := ℕ

/-- Who runs a functor. -/
inductive Runner
  | loopThread
  | thread (t : ThreadId)
  deriving DecidableEq, Repr

/-- An entry of `activeChannels_`: the channel of the eventfd, or one with other handlers. -/
inductive ActiveChannel
  | wakeup
  | other
  deriving DecidableEq, Repr

/-- Where `loop()` stands. -/
inductive LoopPhase
  /-- Before the test of `quit_`. -/
  | checkQuit
  /-- In `epoll_wait`, or about to call it. -/
  | poll
  | handleEvents (rest : List ActiveChannel)
  /-- `doPendingFunctors`, before the swap. -/
  | swap
  /-- `doPendingFunctors`, with the rest of the batch. -/
  | runBatch
  | returned
  deriving DecidableEq, Repr

/-- Where another thread stands: in no call, or before the write of `wakeup()`. -/
inductive Caller
  | idle
  | pushed
  | quitting
  deriving DecidableEq, Repr

structure FunctorLoop (α : Type) where
  quit : Bool
  phase : LoopPhase
  callingPendingFunctors : Bool
  functors : Mailbox α Runner
  /-- The counter of the eventfd. -/
  eventfd : ℕ
  /-- How many functions of the user the loop thread is in. -/
  depth : ℕ
  /-- The loop thread is before the write of `wakeup()`. -/
  waking : Bool
  callers : ThreadId → Caller

/-- What a thread calls on the loop. -/
inductive LoopCall (α : Type)
  | queueInLoop (f : α)
  | runInLoop (f : α)
  | quit
  deriving DecidableEq, Repr

inductive FunctorInput (α : Type)
  /-- The loop thread does what is next. -/
  | next
  /-- `epoll_wait` returns. -/
  | pollReturns (activeChannels : List ActiveChannel)
  /-- User code in the loop thread calls the loop. -/
  | call (c : LoopCall α)
  /-- User code in the loop thread returns. -/
  | ret
  /-- Another thread calls the loop. -/
  | remote (t : ThreadId) (c : LoopCall α)
  /-- The write of a `wakeup()` of another thread. -/
  | remoteWakeup (t : ThreadId)
  deriving DecidableEq, Repr

namespace FunctorLoop

variable {α : Type}

/-- `loop()` has been called. -/
def start : FunctorLoop α where
  quit := false
  phase := .checkQuit
  callingPendingFunctors := false
  functors := .empty
  eventfd := 0
  depth := 0
  waking := false
  callers := fun _ => .idle

/-! ## Steps -/

/-- `wakeup`: the write fails, and leaves the counter, when it would pass its largest value. -/
def wakeup (s : FunctorLoop α) : FunctorLoop α :=
  { s with eventfd := min (s.eventfd + 1) (2 ^ 64 - 2) }

/-- `handleWakeupRead` takes the counter to zero; the read of a counter at zero fails. -/
def handleWakeupRead (s : FunctorLoop α) : FunctorLoop α := { s with eventfd := 0 }

/-- The loop thread goes on, where it is not in user code. -/
def advance (s : FunctorLoop α) : FunctorLoop α :=
  match s.phase with
  | .checkQuit => if s.quit then { s with phase := .returned } else { s with phase := .poll }
  | .poll => s
  | .handleEvents [] => { s with callingPendingFunctors := true, phase := .swap }
  | .handleEvents (.wakeup :: rest) => { s with phase := .handleEvents rest }.handleWakeupRead
  | .handleEvents (.other :: rest) => { s with phase := .handleEvents rest, depth := 1 }
  | .swap => { s with functors := s.functors.collect, phase := .runBatch }
  | .runBatch =>
      match s.functors.batch with
      | [] => { s with callingPendingFunctors := false, phase := .checkQuit }
      | _ :: _ => { s with functors := s.functors.take .loopThread, depth := 1 }
  | .returned => s

def next (s : FunctorLoop α) : FunctorLoop α :=
  if s.waking then { s with waking := false }.wakeup
  else if 0 < s.depth then s
  else s.advance

/-- The loop thread calls: `queueInLoop` wakes up only while the functors are run, `runInLoop`
calls the functor at once, and `quit` wakes nobody. -/
def call (s : FunctorLoop α) : LoopCall α → Except Fault (FunctorLoop α)
  | .queueInLoop f =>
      .ok { s with functors := s.functors.post f, waking := s.callingPendingFunctors }
  | .runInLoop _ => .ok { s with depth := s.depth + 1 }
  | .quit => do
      check .quit (s.quit = false)
      .ok { s with quit := true }

/-- Another thread calls: `runInLoop` is `queueInLoop`, and every call ends in a wakeup. -/
def remote (s : FunctorLoop α) (t : ThreadId) : LoopCall α → Except Fault (FunctorLoop α)
  | .queueInLoop f | .runInLoop f =>
      .ok { s with
        functors := s.functors.post f, callers := Function.update s.callers t .pushed }
  | .quit => do
      check .quit (s.quit = false)
      .ok { s with quit := true, callers := Function.update s.callers t .quitting }

/-- User code of the loop thread has the control. -/
def inUser (s : FunctorLoop α) : Bool := decide (0 < s.depth) && !s.waking

def step (s : FunctorLoop α) : FunctorInput α → Except Fault (FunctorLoop α)
  | .next => .ok s.next
  | .pollReturns activeChannels =>
      if s.phase = .poll then .ok { s with phase := .handleEvents activeChannels } else .ok s
  | .call c => if s.inUser then s.call c else .ok s
  | .ret => if s.inUser then .ok { s with depth := s.depth - 1 } else .ok s
  | .remote t c => if s.callers t = .idle then s.remote t c else .ok s
  | .remoteWakeup t =>
      if s.callers t = .idle then .ok s
      else .ok { s with callers := Function.update s.callers t .idle }.wakeup

def machine : Machine (FunctorLoop α) (FunctorInput α) Fault := ⟨step⟩

/-! ## The invariant -/

/-- The loop thread will come to the swap before it blocks again. -/
def SwapAhead (s : FunctorLoop α) : Prop :=
  s.phase = .swap ∨ ∃ rest, s.phase = .handleEvents rest

/-- A functor in the queue will be noticed: by the swap, by a wakeup in the eventfd, or by one
that is still to be written. -/
def Woken (s : FunctorLoop α) : Prop :=
  s.functors.queue ≠ [] →
    s.SwapAhead ∨ s.eventfd ≠ 0 ∨ s.waking = true ∨ ∃ t, s.callers t = .pushed

structure Inv (s : FunctorLoop α) : Prop where
  kept : s.functors.Kept
  loop_only : ∀ t ∈ s.functors.taken, t.taker = .loopThread
  batch : s.phase ≠ .runBatch → s.functors.batch = []
  calling : s.callingPendingFunctors = true ↔ s.phase = .swap ∨ s.phase = .runBatch
  user : 0 < s.depth → s.phase = .runBatch ∨ ∃ rest, s.phase = .handleEvents rest
  waking : s.waking = true → s.phase = .runBatch
  woken : s.Woken

lemma start_inv : (start : FunctorLoop α).Inv where
  kept := Mailbox.empty_kept
  loop_only := fun _ h => nomatch h
  batch := fun _ => rfl
  calling := by simp [start]
  user := by simp [start]
  waking := by simp [start]
  woken := by
    intro h
    exact absurd rfl h

/-! ### One lemma a step -/

namespace Inv

variable {s : FunctorLoop α}

/-- A functor is pushed, and a wakeup announced or not needed. -/
lemma post (h : s.Inv) (f : α) (waking : Bool) (callers : ThreadId → Caller)
    (hw : waking = true → s.phase = .runBatch)
    (hnoticed : s.SwapAhead ∨ waking = true ∨ ∃ t, callers t = .pushed) :
    Inv { s with functors := s.functors.post f, waking := waking, callers := callers } := by
  refine ⟨h.kept.post f, h.loop_only, h.batch, h.calling, h.user, hw, fun _ => ?_⟩
  rcases hnoticed with hs | hw | ht
  · exact Or.inl hs
  · exact Or.inr (Or.inr (Or.inl hw))
  · exact Or.inr (Or.inr (Or.inr ht))

/-- Where the swap is not next, a functor in the queue has been noticed, or will be by a wakeup. -/
lemma noticed (h : s.Inv) (hphase : s.phase = .checkQuit ∨ s.phase = .runBatch)
    (hq : s.functors.queue ≠ []) :
    s.eventfd ≠ 0 ∨ s.waking = true ∨ ∃ t, s.callers t = .pushed := by
  rcases h.woken hq with (hs | ⟨rest, hs⟩) | hn
  · simp [hs] at hphase
  · simp [hs] at hphase
  · exact hn

/-- Only the swap asks for nothing more: whatever is in the queue is collected by it. -/
lemma advance (h : s.Inv) (hw : s.waking = false) (hd : s.depth = 0) : s.advance.Inv := by
  have hcalling := h.calling
  unfold FunctorLoop.advance
  cases hphase : s.phase with
  | checkQuit =>
    have hbatch := h.batch (by simp [hphase])
    have hnoticed := h.noticed (Or.inl hphase)
    simp only [hphase, reduceCtorEq, or_self, iff_false] at hcalling
    dsimp only
    split
    · exact ⟨h.kept, h.loop_only, fun _ => hbatch, by simpa using hcalling, by simp [hd],
        by simp [hw], fun hq => Or.inr (hnoticed hq)⟩
    · exact ⟨h.kept, h.loop_only, fun _ => hbatch, by simpa using hcalling, by simp [hd],
        by simp [hw], fun hq => Or.inr (hnoticed hq)⟩
  | poll => exact h
  | handleEvents rest =>
    have hbatch := h.batch (by simp [hphase])
    simp only [hphase, reduceCtorEq, or_self, iff_false] at hcalling
    cases rest with
    | nil =>
      exact ⟨h.kept, h.loop_only, fun _ => hbatch, by simp, by simp [hd], by simp [hw],
        fun _ => Or.inl (Or.inl rfl)⟩
    | cons ch rest =>
      cases ch with
      | wakeup =>
        exact ⟨h.kept, h.loop_only, fun _ => hbatch, by simpa [handleWakeupRead] using hcalling,
          by simp [handleWakeupRead], by simp [handleWakeupRead, hw],
          fun _ => Or.inl (Or.inr ⟨rest, rfl⟩)⟩
      | other =>
        exact ⟨h.kept, h.loop_only, fun _ => hbatch, by simpa using hcalling, by simp,
          by simp [hw], fun _ => Or.inl (Or.inr ⟨rest, rfl⟩)⟩
  | swap =>
    have hbatch := h.batch (by simp [hphase])
    simp only [hphase, reduceCtorEq, or_false, iff_true] at hcalling
    exact ⟨h.kept.collect hbatch, h.loop_only, fun hne => absurd rfl hne, by simp [hcalling],
      by simp, by simp, fun hq => absurd rfl hq⟩
  | runBatch =>
    simp only [hphase, reduceCtorEq, or_true, iff_true] at hcalling
    have hnoticed := h.noticed (Or.inr hphase)
    dsimp only
    split
    · next hb =>
      exact ⟨h.kept, h.loop_only, fun _ => hb, by simp, by simp [hd], by simp [hw],
        fun hq => Or.inr (hnoticed hq)⟩
    · next p ps hb =>
      refine ⟨h.kept.take _, ?_, fun hne => absurd rfl hne, by simp [hcalling],
        fun _ => Or.inl rfl, fun _ => rfl, fun hq => ?_⟩
      · intro t ht
        simp only [Mailbox.take, hb, List.mem_append, List.mem_singleton] at ht
        rcases ht with ht | rfl
        · exact h.loop_only t ht
        · rfl
      · rw [Mailbox.take_queue] at hq
        exact Or.inr (hnoticed hq)
  | returned => exact h

lemma next (h : s.Inv) : s.next.Inv := by
  unfold FunctorLoop.next
  by_cases hw : s.waking = true
  · rw [if_pos hw]
    refine ⟨h.kept, h.loop_only, h.batch, h.calling, h.user, by simp [FunctorLoop.wakeup],
      fun _ => ?_⟩
    exact Or.inr (Or.inl (by simp [FunctorLoop.wakeup]))
  · rw [if_neg hw]
    by_cases hd : 0 < s.depth
    · rw [if_pos hd]
      exact h
    · rw [if_neg hd]
      exact h.advance (by simpa using hw) (by omega)

/-- A call of the loop thread fails only where `quit` is called twice. -/
lemma call (h : s.Inv) (hu : s.inUser = true) (c : LoopCall α) {t : FunctorLoop α}
    (hcall : s.call c = .ok t) : t.Inv := by
  obtain ⟨hd, hw⟩ : 0 < s.depth ∧ s.waking = false := by
    simpa [inUser] using hu
  cases c with
  | queueInLoop f =>
    cases hcall
    refine h.post f _ s.callers (fun hc => ?_) ?_
    · rcases h.user hd with hb | ⟨rest, hev⟩
      · exact hb
      · have := h.calling.mp hc
        simp [hev] at this
    · rcases h.user hd with hb | hev
      · exact Or.inr (Or.inl (h.calling.mpr (Or.inr hb)))
      · exact Or.inl (Or.inr hev)
  | runInLoop f =>
    cases hcall
    exact ⟨h.kept, h.loop_only, h.batch, h.calling, fun _ => h.user hd, h.waking, h.woken⟩
  | quit =>
    simp only [FunctorLoop.call] at hcall
    obtain ⟨-, -, hcall⟩ := bind_eq_ok hcall
    cases hcall
    exact ⟨h.kept, h.loop_only, h.batch, h.calling, h.user, h.waking, h.woken⟩

lemma remote (h : s.Inv) {t : ThreadId} (hidle : s.callers t = .idle) (c : LoopCall α)
    {u : FunctorLoop α} (hcall : s.remote t c = .ok u) : u.Inv := by
  have hpush (f : α) : Inv { s with
      functors := s.functors.post f, callers := Function.update s.callers t .pushed } :=
    h.post f s.waking _ h.waking (Or.inr (Or.inr ⟨t, Function.update_self ..⟩))
  cases c with
  | queueInLoop f =>
    cases hcall
    exact hpush f
  | runInLoop f =>
    cases hcall
    exact hpush f
  | quit =>
    simp only [FunctorLoop.remote] at hcall
    obtain ⟨-, -, hcall⟩ := bind_eq_ok hcall
    cases hcall
    refine ⟨h.kept, h.loop_only, h.batch, h.calling, h.user, h.waking, fun hq => ?_⟩
    rcases h.woken hq with hs | he | hw | ⟨t', ht'⟩
    · exact Or.inl hs
    · exact Or.inr (Or.inl he)
    · exact Or.inr (Or.inr (Or.inl hw))
    · have hne : t' ≠ t := by
        rintro rfl
        rw [hidle] at ht'
        cases ht'
      exact Or.inr (Or.inr (Or.inr ⟨t', (Function.update_of_ne hne _ _).trans ht'⟩))

lemma remoteWakeup (h : s.Inv) (t : ThreadId) :
    ({ s with callers := Function.update s.callers t .idle } : FunctorLoop α).wakeup.Inv :=
  ⟨h.kept, h.loop_only, h.batch, h.calling, h.user, h.waking, fun _ =>
    Or.inr (Or.inl (by simp [FunctorLoop.wakeup]))⟩

end Inv

/-! ## Every run -/

lemma step_inv {s t : FunctorLoop α} (h : s.Inv) (i : FunctorInput α) (hi : s.step i = .ok t) :
    t.Inv := by
  cases i with
  | next =>
    cases hi
    exact h.next
  | pollReturns chs =>
    simp only [step] at hi
    split at hi
    · next hphase =>
      cases hi
      have hcalling := h.calling
      simp only [hphase, reduceCtorEq, or_self, iff_false] at hcalling
      refine ⟨h.kept, h.loop_only, fun _ => h.batch (by simp [hphase]), by simpa using hcalling,
        fun _ => Or.inr ⟨chs, rfl⟩, fun hw => ?_, fun _ => Or.inl (Or.inr ⟨chs, rfl⟩)⟩
      exact absurd (hphase.symm.trans (h.waking hw)) (by simp)
    · cases hi
      exact h
  | call c =>
    simp only [step] at hi
    split at hi
    · next hu => exact h.call hu c hi
    · cases hi
      exact h
  | ret =>
    simp only [step] at hi
    split at hi
    · cases hi
      exact ⟨h.kept, h.loop_only, h.batch, h.calling, fun hd => h.user (by simp at hd; omega),
        h.waking, h.woken⟩
    · cases hi
      exact h
  | remote t c =>
    simp only [step] at hi
    split at hi
    · next hidle => exact h.remote hidle c hi
    · cases hi
      exact h
  | remoteWakeup t =>
    simp only [step] at hi
    split at hi
    · cases hi
      exact h
    · cases hi
      exact h.remoteWakeup t

/-- What a step does to the functors. -/
inductive Handles (m : Mailbox α Runner) : Mailbox α Runner → Prop
  | same : Handles m m
  | post (f : α) : Handles m (m.post f)
  | collect : Handles m m.collect
  | take : Handles m (m.take .loopThread)

lemma advance_handles (s : FunctorLoop α) : Handles s.functors s.advance.functors := by
  unfold advance
  split
  · split <;> exact .same
  · exact .same
  · exact .same
  · exact .same
  · exact .same
  · exact .collect
  · split
    · exact .same
    · exact .take
  · exact .same

lemma step_handles {s t : FunctorLoop α} (i : FunctorInput α) (hi : s.step i = .ok t) :
    Handles s.functors t.functors := by
  cases i with
  | next =>
    cases hi
    unfold next
    split_ifs
    · exact .same
    · exact .same
    · exact s.advance_handles
  | pollReturns chs =>
    simp only [step] at hi
    split at hi <;> cases hi <;> exact .same
  | call c =>
    simp only [step] at hi
    split at hi
    · cases c with
      | queueInLoop f =>
        cases hi
        exact .post f
      | runInLoop f =>
        cases hi
        exact .same
      | quit =>
        obtain ⟨-, -, hi⟩ := bind_eq_ok hi
        cases hi
        exact .same
    · cases hi
      exact .same
  | ret =>
    simp only [step] at hi
    split at hi <;> cases hi <;> exact .same
  | remote t c =>
    simp only [step] at hi
    split at hi
    · cases c with
      | queueInLoop f =>
        cases hi
        exact .post f
      | runInLoop f =>
        cases hi
        exact .post f
      | quit =>
        obtain ⟨-, -, hi⟩ := bind_eq_ok hi
        cases hi
        exact .same
    · cases hi
      exact .same
  | remoteWakeup t =>
    simp only [step] at hi
    split at hi <;> cases hi <;> exact .same

/-- What is pushed and what is run is only ever added to. -/
lemma Handles.history {m m' : Mailbox α Runner} (h : Handles m m') :
    m.posted <+: m'.posted ∧ m.taken <+: m'.taken := by
  cases h with
  | same => exact ⟨List.prefix_rfl, List.prefix_rfl⟩
  | post f => exact ⟨m.posted_prefix_post f, List.prefix_rfl⟩
  | collect => exact ⟨List.prefix_rfl, List.prefix_rfl⟩
  | take =>
    refine ⟨?_, m.taken_prefix_take _⟩
    rw [Mailbox.take_posted]

/-- Only `quit` has an assertion. -/
lemma step_error {s : FunctorLoop α} {i : FunctorInput α} {e : Fault}
    (hi : s.step i = .error e) : e = .assertion .quit := by
  have hquit {u : FunctorLoop α} (hq : (do
      check .quit (s.quit = false)
      .ok u : Except Fault (FunctorLoop α)) = .error e) : e = .assertion .quit := by
    by_cases h : s.quit = false
    · rw [check_true h] at hq
      cases hq
    · rw [check_false h] at hq
      cases hq
      rfl
  cases i with
  | next => cases hi
  | pollReturns chs =>
    simp only [step] at hi
    split at hi <;> cases hi
  | call c =>
    simp only [step] at hi
    split at hi
    · cases c with
      | queueInLoop f => cases hi
      | runInLoop f => cases hi
      | quit => exact hquit hi
    · cases hi
  | ret =>
    simp only [step] at hi
    split at hi <;> cases hi
  | remote t c =>
    simp only [step] at hi
    split at hi
    · cases c with
      | queueInLoop f => cases hi
      | runInLoop f => cases hi
      | quit => exact hquit hi
    · cases hi
  | remoteWakeup t =>
    simp only [step] at hi
    split at hi <;> cases hi

/-- A loop that is about to block has a wakeup for whatever is in the queue. -/
def NoLostWakeup (s : FunctorLoop α) : Prop :=
  s.phase = .poll → s.functors.queue ≠ [] → s.eventfd ≠ 0 ∨ ∃ t, s.callers t = .pushed

lemma Inv.noLostWakeup {s : FunctorLoop α} (h : s.Inv) : s.NoLostWakeup := by
  intro hphase hq
  rcases h.woken hq with (hs | ⟨rest, hs⟩) | he | hw | ht
  · exact absurd (hphase.symm.trans hs) (by simp)
  · exact absurd (hphase.symm.trans hs) (by simp)
  · exact Or.inl he
  · exact absurd (hphase.symm.trans (h.waking hw)) (by simp)
  · exact Or.inr ht

/-- What the queue promises.  What was pushed is what the loop thread has run, the rest of its
batch and the queue, in this order; a functor runs in a later turn than it was pushed in; no
wakeup is lost.  Nothing is taken back, and only a second `quit` fails. -/
def InOrder : RunSpec (FunctorLoop α) Fault where
  good := fun s =>
    s.functors.posted = s.functors.taken.map Taken.post ++ s.functors.batch ++
      s.functors.queue ∧
    (∀ t ∈ s.functors.taken, t.taker = .loopThread ∧ t.post.turn < t.turn) ∧ s.NoLostWakeup
  move := fun s t =>
    s.functors.posted <+: t.functors.posted ∧ s.functors.taken <+: t.functors.taken
  stop := fun e => e = .assertion .quit

/-- **The functor queue** runs what is pushed, once and in order, and is never left asleep, in
every interleaving of the threads. -/
theorem functor_queue_in_order (is : List (FunctorInput α)) :
    machine.Meets InOrder start is := by
  refine Machine.meets_of_along machine (P := fun _ _ => True) (I := Inv) ?_ ?_ ?_ start_inv
    (Machine.along_of_forall machine (fun _ _ => trivial) _ _)
  · intro s h
    exact ⟨h.kept.conserved, fun t ht => ⟨h.loop_only t ht, h.kept.taken_later t ht⟩,
      h.noLostWakeup⟩
  · intro s i t h _ hi
    exact ⟨step_inv h i hi, (step_handles i hi).history⟩
  · intro s i e _ _ hi
    exact step_error hi

end FunctorLoop

end Firey
