import Firey.Net.FunctorQueue

/-!
# The end of an `EventLoopThreadff`

The thread of an `EventLoopThreadff` makes an `EventLoopff` on its stack, publishes it as `loop_`,
runs it, takes the pointer back and destroys the loop.  The destructor tests `loop_` and reads it
again for `loop_->quit()`, without the mutex; callbacks of the loop and other threads call `quit`
too.  A call of `quit` is three steps, the assertion, the assignment and the wakeup, and any steps
of others fall between them.

`Safe` asks that a destructor that has found a loop calls `quit` on it while it is there, and that
no `quit` meets the assertion.  It holds exactly as long as no `quit` but the last one sets `quit_`
before a destructor that finds the loop has made its own assertion (`shutdown_safe_iff`), and so
always if nobody else calls `quit` (`shutdown_safe_alone`).

What a `quit` does to the loop after its assertion may come too late, when the loop has left and is
gone; `late` is history and says that this has happened.
-/

set_option autoImplicit false

namespace Firey

/-- Where `threadFunc` stands. -/
inductive ThreadFuncPhase
  | notStarted
  /-- The loop is made, and the init callback is run. -/
  | initCallback
  /-- Before `loop_=&loop`. -/
  | publish
  /-- In `loop()`, before the test of `quit_`. -/
  | checkQuit
  /-- In `loop()`, with the events and the functors. -/
  | looping
  /-- `loop()` has returned. -/
  | left
  /-- `loop_` is null again, and the loop is still there. -/
  | cleared
  | ended
  deriving DecidableEq, Repr

/-- `loop_` is set. -/
def ThreadFuncPhase.published : ThreadFuncPhase → Bool
  | .checkQuit | .looping | .left => true
  | _ => false

/-- `loop()` has returned. -/
def ThreadFuncPhase.isOver : ThreadFuncPhase → Bool
  | .left | .cleared | .ended => true
  | _ => false

/-- Where a thread stands in `quit()`. -/
inductive QuitPhase
  | idle
  /-- After the assertion. -/
  | checked
  /-- Before `wakeup()`. -/
  | waking
  deriving DecidableEq, Repr

/-- Where the owner of the `EventLoopThreadff` stands. -/
inductive OwnerPhase
  | constructed
  /-- In `startLoop`. -/
  | starting
  | started
  /-- In the destructor, which has found `loop_` not null. -/
  | found
  /-- It has read `loop_` for the call. -/
  | loaded
  /-- In `quit()`, after the assertion. -/
  | checked
  | waking
  | joining
  | destroyed
  deriving DecidableEq, Repr

/-- `loop` is whether `loop_` is not null, and `quit` is the `quit_` of the loop. -/
structure EventLoopThread where
  thread : ThreadFuncPhase
  loop : Bool
  quit : Bool
  /-- The call of `quit` by a callback of the loop. -/
  callback : QuitPhase
  callers : ThreadId → QuitPhase
  owner : OwnerPhase
  late : Bool

inductive ShutdownInput
  /-- The owner calls `startLoop`. -/
  | startLoop
  | startLoopReturns
  /-- `threadFunc` goes on. -/
  | threadFunc
  /-- A callback of the loop calls `quit`, up to the assertion. -/
  | callbackQuit
  | callbackSet
  /-- Another thread calls `quit`, up to the assertion. -/
  | quit (t : ThreadId)
  | set (t : ThreadId)
  | wakeup (t : ThreadId)
  /-- The destructor is called, or goes on. -/
  | destructor
  deriving DecidableEq, Repr

namespace EventLoopThread

/-- The constructor. -/
def start : EventLoopThread where
  thread := .notStarted
  loop := false
  quit := false
  callback := .idle
  callers := fun _ => .idle
  owner := .constructed
  late := false

/-- There is an `EventLoopff`. -/
def loopExists (s : EventLoopThread) : Bool := s.thread ≠ .notStarted ∧ s.thread ≠ .ended

/-- User code is running in the thread of the loop. -/
def inCallback (s : EventLoopThread) : Bool :=
  (s.thread = .initCallback ∨ s.thread = .looping) ∧ s.callback = .idle

/-- Another thread can call the loop: it is not in a call, and the loop is there. -/
def mayCall (s : EventLoopThread) (t : ThreadId) : Bool :=
  s.callers t = .idle ∧ s.loopExists = true

/-- Something of the loop is used, if it is still there. -/
def use (s : EventLoopThread) : EventLoopThread := { s with late := s.late || !s.loopExists }

/-- `quit_=true`. -/
def setQuit (s : EventLoopThread) : EventLoopThread := { s.use with quit := true }

def threadFunc (s : EventLoopThread) : EventLoopThread :=
  match s.thread with
  | .notStarted => s
  | .initCallback => if s.callback = .idle then { s with thread := .publish } else s
  | .publish => { s with loop := true, thread := .checkQuit }
  | .checkQuit => { s with thread := if s.quit then .left else .looping }
  | .looping => if s.callback = .idle then { s with thread := .checkQuit } else s
  | .left => { s with loop := false, thread := .cleared }
  | .cleared => { s with thread := .ended }
  | .ended => s

/-- `EventLoopThreadff::~EventLoopThreadff`, a step at a time. -/
def destructor (s : EventLoopThread) : Except Fault EventLoopThread :=
  match s.owner with
  | .constructed | .started =>
      .ok { s with owner := if s.loop then .found else .destroyed }
  | .starting => .ok s
  | .found => if s.loop then .ok { s with owner := .loaded } else .error .nullPointer
  | .loaded =>
      if s.loopExists then do
        check .quit (s.quit = false)
        .ok { s with owner := .checked }
      else .error .dangling
  | .checked => .ok { s.setQuit with owner := .waking }
  | .waking => .ok { s.use with owner := .joining }
  | .joining => .ok { s with owner := if s.thread = .ended then .destroyed else .joining }
  | .destroyed => .ok s

def step (s : EventLoopThread) : ShutdownInput → Except Fault EventLoopThread
  | .startLoop =>
      if s.owner = .constructed then .ok { s with owner := .starting, thread := .initCallback }
      else .ok s
  | .startLoopReturns =>
      if s.owner = .starting ∧ s.loop = true then .ok { s with owner := .started } else .ok s
  | .threadFunc => .ok s.threadFunc
  | .callbackQuit =>
      if s.inCallback then do
        check .quit (s.quit = false)
        .ok { s with callback := .checked }
      else .ok s
  | .callbackSet =>
      if s.callback = .checked then .ok { s.setQuit with callback := .idle } else .ok s
  | .quit t =>
      if s.mayCall t then do
        check .quit (s.quit = false)
        .ok { s with callers := Function.update s.callers t .checked }
      else .ok s
  | .set t =>
      if s.callers t = .checked then
        .ok { s.setQuit with callers := Function.update s.callers t .waking }
      else .ok s
  | .wakeup t =>
      if s.callers t = .waking then
        .ok { s.use with callers := Function.update s.callers t .idle }
      else .ok s
  | .destructor => s.destructor

def machine : Machine EventLoopThread ShutdownInput Fault := ⟨step⟩

/-! ## What is asked -/

/-- The destructor is going to call `quit`. -/
def committed (s : EventLoopThread) : Prop := s.owner = .found ∨ s.owner = .loaded

instance (s : EventLoopThread) : Decidable s.committed := inferInstanceAs (Decidable (_ ∨ _))

/-- A destructor that has found a loop finds it there for its call, which passes the assertion, and
no run fails. -/
def Safe : RunSpec EventLoopThread Fault where
  good s := s.committed → s.loop = true ∧ s.loopExists = true ∧ s.quit = false
  move _ _ := True
  stop _ := False

/-- No `quit` is called when one has set `quit_`.  The destructor does not find a loop of which
`quit_` is set, and nobody sets it after that before the destructor has made its assertion. -/
def OneQuit (s : EventLoopThread) : ShutdownInput → Prop
  | .callbackQuit => s.inCallback = true → s.quit = false
  | .quit t => s.mayCall t = true → s.quit = false
  | .callbackSet => s.callback = .checked → ¬ s.committed
  | .set t => s.callers t = .checked → ¬ s.committed
  | .destructor =>
      s.owner = .constructed ∨ s.owner = .started → s.loop = true → s.quit = false
  | _ => True

instance (s : EventLoopThread) (i : ShutdownInput) : Decidable (s.OneQuit i) := by
  cases i <;> unfold OneQuit <;> infer_instance

/-! ## The invariant -/

structure Inv (s : EventLoopThread) : Prop where
  loop_eq : s.loop = s.thread.published
  quits : s.thread.isOver = true → s.quit = true
  constructed : s.owner = .constructed → s.thread = .notStarted
  committed : s.committed → s.quit = false ∧ s.loop = true

lemma start_inv : start.Inv where
  loop_eq := rfl
  quits := nofun
  constructed := fun _ => rfl
  committed := by rintro (h | h) <;> cases h

/-- The invariant does not mention what the callers do. -/
lemma Inv.calls {s : EventLoopThread} (h : s.Inv) (callback : QuitPhase)
    (callers : ThreadId → QuitPhase) (late : Bool) :
    Inv { s with callback := callback, callers := callers, late := late } :=
  ⟨h.loop_eq, h.quits, h.constructed, h.committed⟩

lemma Inv.good {s : EventLoopThread} (h : s.Inv) : Safe.good s := by
  intro hc
  obtain ⟨hquit, hloop⟩ := h.committed hc
  refine ⟨hloop, ?_, hquit⟩
  rw [h.loop_eq] at hloop
  unfold loopExists
  cases hthread : s.thread <;> rw [hthread] at hloop <;> first | rfl | cases hloop

/-! ## What a step keeps -/

/-- The thread goes on to `p`. -/
lemma Inv.moves {s : EventLoopThread} (h : s.Inv) {p : ThreadFuncPhase} {l : Bool}
    (hstarted : s.thread ≠ .notStarted) (hl : l = p.published)
    (hover : p.isOver = true → s.quit = true) (hstays : s.committed → p.published = true) :
    Inv { s with thread := p, loop := l } where
  loop_eq := hl
  quits := hover
  constructed := fun howner => absurd (h.constructed howner) hstarted
  committed := fun hc => ⟨(h.committed hc).1, hl.trans (hstays hc)⟩

lemma Inv.threadFunc {s : EventLoopThread} (h : s.Inv) : s.threadFunc.Inv := by
  have hloop := h.loop_eq
  have hstays : s.committed → s.thread.published = true := fun hc =>
    hloop ▸ (h.committed hc).2
  unfold EventLoopThread.threadFunc
  split
  case h_1 => exact h
  case h_2 hthread =>
    rw [hthread] at hloop hstays
    split
    · exact h.moves (by rw [hthread]; nofun) hloop nofun hstays
    · exact h
  case h_3 hthread => exact h.moves (by rw [hthread]; nofun) rfl nofun (fun _ => rfl)
  case h_4 hthread =>
    rw [hthread] at hloop
    split
    case isTrue hquit =>
      exact h.moves (by rw [hthread]; nofun) hloop (fun _ => hquit) (fun _ => rfl)
    case isFalse => exact h.moves (by rw [hthread]; nofun) hloop nofun (fun _ => rfl)
  case h_5 hthread =>
    rw [hthread] at hloop
    split
    · exact h.moves (by rw [hthread]; nofun) hloop nofun (fun _ => rfl)
    · exact h
  case h_6 hthread =>
    have hquit := h.quits (by rw [hthread]; rfl)
    refine h.moves (by rw [hthread]; nofun) rfl (fun _ => hquit) fun hc => ?_
    rw [(h.committed hc).1] at hquit
    cases hquit
  case h_7 hthread =>
    rw [hthread] at hloop hstays
    exact h.moves (by rw [hthread]; nofun) hloop (fun _ => h.quits (by rw [hthread]; rfl)) hstays
  case h_8 => exact h

/-- `quit_` is set while no destructor is on its way to the assertion. -/
lemma Inv.setQuit {s : EventLoopThread} (h : s.Inv) (hc : ¬ s.committed) : s.setQuit.Inv where
  loop_eq := h.loop_eq
  quits := fun _ => rfl
  constructed := h.constructed
  committed := fun hc' => absurd hc' hc

/-- The owner goes on to `p`. -/
lemma Inv.owns {s : EventLoopThread} (h : s.Inv) {p : OwnerPhase} (hp : p ≠ .constructed)
    (hc : p = .found ∨ p = .loaded → s.quit = false ∧ s.loop = true) :
    Inv { s with owner := p } where
  loop_eq := h.loop_eq
  quits := h.quits
  constructed := fun h => absurd h hp
  committed := hc

/-- The destructor finds the loop at work, and its `quit` passes the assertion. -/
lemma destructor_ok {s : EventLoopThread} (h : s.Inv) (hi : s.OneQuit .destructor) :
    ∃ t, s.destructor = .ok t ∧ t.Inv := by
  have hgood := h.good
  unfold destructor
  have hfind : s.owner = .constructed ∨ s.owner = .started →
      Inv { s with owner := if s.loop then .found else .destroyed } := by
    intro howner
    split
    case isTrue hloop => exact h.owns nofun fun _ => ⟨hi howner hloop, hloop⟩
    case isFalse => exact h.owns nofun (by rintro (h | h) <;> cases h)
  have hlater : ∀ {t : EventLoopThread} {p : OwnerPhase}, t.Inv → p ≠ .constructed →
      ¬ (p = .found ∨ p = .loaded) → Inv { t with owner := p } :=
    fun ht hp hp' => ht.owns hp fun h => absurd h hp'
  split
  case h_1 howner => exact ⟨_, rfl, hfind (.inl howner)⟩
  case h_2 howner => exact ⟨_, rfl, hfind (.inr howner)⟩
  case h_3 => exact ⟨s, rfl, h⟩
  case h_4 howner =>
    have hc := h.committed (.inl howner)
    rw [if_pos hc.2]
    exact ⟨_, rfl, h.owns nofun fun _ => hc⟩
  case h_5 howner =>
    obtain ⟨-, hexists, hquit⟩ := hgood (.inr howner)
    rw [if_pos hexists, check_true hquit]
    exact ⟨_, rfl, hlater h nofun (by decide)⟩
  case h_6 howner =>
    exact ⟨_, rfl, hlater (h.setQuit (by simp [committed, howner])) nofun (by decide)⟩
  case h_7 => exact ⟨_, rfl, hlater (h.calls _ _ _) nofun (by decide)⟩
  case h_8 =>
    refine ⟨_, rfl, ?_⟩
    split
    · exact hlater h nofun (by decide)
    · exact hlater h nofun (by decide)
  case h_9 => exact ⟨s, rfl, h⟩

lemma Inv.startLoop {s : EventLoopThread} (h : s.Inv) (howner : s.owner = .constructed) :
    Inv { s with owner := .starting, thread := .initCallback } where
  loop_eq := by rw [h.loop_eq, h.constructed howner]; rfl
  quits := nofun
  constructed := nofun
  committed := by rintro (h | h) <;> cases h

lemma step_ok {s : EventLoopThread} {i : ShutdownInput} (h : s.Inv) (hi : s.OneQuit i) :
    ∃ t, step s i = .ok t ∧ t.Inv := by
  cases i with
  | startLoop =>
    rw [step]
    split
    case isTrue howner => exact ⟨_, rfl, h.startLoop howner⟩
    case isFalse => exact ⟨s, rfl, h⟩
  | startLoopReturns =>
    rw [step]
    split
    · exact ⟨_, rfl, h.owns nofun (by rintro (h | h) <;> cases h)⟩
    · exact ⟨s, rfl, h⟩
  | threadFunc => exact ⟨_, rfl, h.threadFunc⟩
  | callbackQuit =>
    rw [step]
    split
    case isTrue hcalls =>
      rw [check_true (hi hcalls)]
      exact ⟨_, rfl, h.calls _ _ _⟩
    case isFalse => exact ⟨s, rfl, h⟩
  | callbackSet =>
    rw [step]
    split
    case isTrue hchecked => exact ⟨_, rfl, (h.setQuit (hi hchecked)).calls _ _ _⟩
    case isFalse => exact ⟨s, rfl, h⟩
  | quit t =>
    rw [step]
    split
    case isTrue hcalls =>
      rw [check_true (hi hcalls)]
      exact ⟨_, rfl, h.calls _ _ _⟩
    case isFalse => exact ⟨s, rfl, h⟩
  | set t =>
    rw [step]
    split
    case isTrue hchecked => exact ⟨_, rfl, (h.setQuit (hi hchecked)).calls _ _ _⟩
    case isFalse => exact ⟨s, rfl, h⟩
  | wakeup t =>
    rw [step]
    split
    · exact ⟨_, rfl, h.calls _ _ _⟩
    · exact ⟨s, rfl, h⟩
  | destructor => exact destructor_ok h hi

lemma step_keeps {s t : EventLoopThread} {i : ShutdownInput} (h : s.Inv) (hi : s.OneQuit i)
    (hstep : step s i = .ok t) : t.Inv := by
  obtain ⟨u, hu, hI⟩ := step_ok h hi
  cases hu.symm.trans hstep
  exact hI

lemma step_no_error {s : EventLoopThread} {i : ShutdownInput} {e : Fault} (h : s.Inv)
    (hi : s.OneQuit i) : step s i ≠ .error e := by
  obtain ⟨u, hu, -⟩ := step_ok h hi
  rw [hu]
  nofun

/-! ## What a step that does not meet the condition does -/

/-- `quit_` set under a destructor that has found the loop. -/
lemma not_good_of_committed {s : EventLoopThread} (hc : s.committed) (hquit : s.quit = true) :
    ¬ Safe.good s := by
  intro hgood
  rw [(hgood hc).2.2] at hquit
  cases hquit

lemma step_seen {s t : EventLoopThread} {i : ShutdownInput} (hi : ¬ s.OneQuit i)
    (hstep : step s i = .ok t) : ¬ Safe.good t := by
  cases i with
  | startLoop => exact absurd trivial hi
  | startLoopReturns => exact absurd trivial hi
  | threadFunc => exact absurd trivial hi
  | wakeup t => exact absurd trivial hi
  | callbackQuit =>
    obtain ⟨hcalls, hquit⟩ := Classical.not_imp.mp hi
    rw [step, if_pos hcalls, check_false hquit] at hstep
    cases hstep
  | quit t =>
    obtain ⟨hcalls, hquit⟩ := Classical.not_imp.mp hi
    rw [step, if_pos hcalls, check_false hquit] at hstep
    cases hstep
  | callbackSet =>
    obtain ⟨hchecked, hc⟩ := Classical.not_imp.mp hi
    rw [step, if_pos hchecked] at hstep
    cases hstep
    exact not_good_of_committed (not_not.mp hc) rfl
  | set t =>
    obtain ⟨hchecked, hc⟩ := Classical.not_imp.mp hi
    rw [step, if_pos hchecked] at hstep
    cases hstep
    exact not_good_of_committed (not_not.mp hc) rfl
  | destructor =>
    obtain ⟨howner, hi⟩ := Classical.not_imp.mp hi
    obtain ⟨hloop, hquit⟩ := Classical.not_imp.mp hi
    have hfound : t = { s with owner := .found } := by
      rcases howner with howner | howner <;>
        · rw [step, destructor, howner] at hstep
          cases hstep
          rw [if_pos hloop]
    rw [hfound]
    exact not_good_of_committed (.inl rfl) (eq_true_of_ne_false hquit)

/-! ## Shutdowns -/

/-- **The destructor and `quit`.**  Whatever the thread of the loop, its callbacks, other threads
and the destructor do, and in any order, the destructor calls `quit` on a loop that is there and no
assertion fails, exactly when no `quit` is called once one has set `quit_`, and none but the
destructor's sets it under a destructor that has found the loop. -/
theorem shutdown_safe_iff (is : List ShutdownInput) :
    machine.Meets Safe start is ↔ machine.Along OneQuit start is := by
  refine machine.meets_iff_along (I := Inv) (fun s h => h.good) ?_ ?_ ?_ ?_ start_inv
  · exact fun s i t h hi hstep => ⟨step_keeps h hi hstep, trivial⟩
  · exact fun s i e h hi hstep => step_no_error h hi hstep
  · exact fun s i t _ hi hstep hgood => step_seen hi hstep hgood.2
  · exact fun s i e _ _ _ hstop => hstop

/-- A callback calls `quit`, and the thread goes as far as the end of `loop()`. -/
def callbackQuits : List ShutdownInput :=
  [.startLoop, .threadFunc, .threadFunc, .startLoopReturns, .threadFunc, .callbackQuit,
    .callbackSet, .threadFunc, .threadFunc]

/-- The loop has been told to stop when the destructor finds it.  The destructor meets the
assertion, or reads a null `loop_` between its test and its call, or calls a loop that is gone. -/
theorem stopped_loop_unsafe :
    machine.run start (callbackQuits ++ [.destructor, .destructor, .destructor]) =
        .error (.assertion .quit) ∧
      machine.run start (callbackQuits ++ [.destructor, .threadFunc, .destructor]) =
        .error .nullPointer ∧
      machine.run start
          (callbackQuits ++ [.destructor, .destructor, .threadFunc, .threadFunc, .destructor]) =
        .error .dangling := by
  decide +kernel

/-! ## Nobody but the destructor -/

/-- The destructor has set `quit_`, or is over without. -/
def hasQuit : OwnerPhase → Bool
  | .waking | .joining | .destroyed => true
  | _ => false

/-- Nobody but the destructor has called `quit`. -/
structure Alone (s : EventLoopThread) : Prop where
  callback : s.callback = .idle
  callers : ∀ t, s.callers t = .idle
  owner : s.quit = true → hasQuit s.owner = true

/-- The input is not a call of `quit` by others. -/
def NotOthers : ShutdownInput → Prop
  | .callbackQuit | .quit _ => False
  | _ => True

lemma Alone.oneQuit {s : EventLoopThread} {i : ShutdownInput} (h : s.Alone) (hi : NotOthers i) :
    s.OneQuit i := by
  cases i with
  | startLoop | startLoopReturns | threadFunc | wakeup t => trivial
  | callbackQuit | quit t => exact hi.elim
  | callbackSet =>
    intro hchecked
    rw [h.callback] at hchecked
    cases hchecked
  | set t =>
    intro hchecked
    rw [h.callers t] at hchecked
    cases hchecked
  | destructor =>
    intro howner _
    by_contra hquit
    have hlate := h.owner (by simpa using hquit)
    rcases howner with howner | howner <;> rw [howner] at hlate <;> cases hlate

/-- The owner goes on to `p`. -/
lemma Alone.owns {s : EventLoopThread} (h : s.Alone) {p : OwnerPhase}
    (hp : hasQuit s.owner = true → hasQuit p = true) : Alone { s with owner := p } :=
  ⟨h.callback, h.callers, fun hquit => hp (h.owner hquit)⟩

/-- The thread takes no part in it. -/
lemma Alone.threadFunc {s : EventLoopThread} (h : s.Alone) : s.threadFunc.Alone := by
  have hmoves : ∀ p l, Alone { s with thread := p, loop := l } := fun _ _ =>
    ⟨h.callback, h.callers, h.owner⟩
  unfold EventLoopThread.threadFunc
  split
  case h_2 | h_5 =>
    split
    · exact hmoves _ _
    · exact h
  all_goals exact hmoves _ _

lemma Alone.destructor {s t : EventLoopThread} (h : s.Alone) (hstep : s.destructor = .ok t) :
    t.Alone := by
  unfold EventLoopThread.destructor at hstep
  split at hstep
  case h_1 howner | h_2 howner =>
    cases hstep
    exact h.owns (by simp [howner, hasQuit])
  case h_3 | h_9 =>
    cases hstep
    exact h
  case h_4 howner =>
    split at hstep
    · cases hstep
      exact h.owns (by simp [howner, hasQuit])
    · cases hstep
  case h_5 howner =>
    split at hstep
    · obtain ⟨-, -, hstep⟩ := bind_eq_ok hstep
      cases hstep
      exact h.owns (by simp [howner, hasQuit])
    · cases hstep
  case h_6 | h_7 =>
    cases hstep
    exact ⟨h.callback, h.callers, fun _ => rfl⟩
  case h_8 howner =>
    cases hstep
    refine h.owns fun _ => ?_
    split <;> rfl

lemma Alone.step {s t : EventLoopThread} {i : ShutdownInput} (h : s.Alone) (hi : NotOthers i)
    (hstep : step s i = .ok t) : t.Alone := by
  cases i with
  | callbackQuit | quit t => exact hi.elim
  | threadFunc =>
    cases hstep
    exact h.threadFunc
  | destructor => exact h.destructor hstep
  | startLoop =>
    rw [EventLoopThread.step] at hstep
    split at hstep
    case isTrue howner =>
      cases hstep
      have howns := h.owns (p := .starting) (by rw [howner]; nofun)
      exact ⟨howns.callback, howns.callers, howns.owner⟩
    case isFalse =>
      cases hstep
      exact h
  | startLoopReturns =>
    rw [EventLoopThread.step] at hstep
    split at hstep
    case isTrue hready =>
      cases hstep
      exact h.owns (by rw [hready.1]; nofun)
    case isFalse =>
      cases hstep
      exact h
  | callbackSet =>
    rw [EventLoopThread.step, h.callback] at hstep
    cases hstep
    exact h
  | set t | wakeup t =>
    rw [EventLoopThread.step, h.callers t] at hstep
    cases hstep
    exact h

/-- If only the destructor calls `quit`, shutdown is safe. -/
theorem shutdown_safe_alone {is : List ShutdownInput} (his : ∀ i ∈ is, NotOthers i) :
    machine.Meets Safe start is := by
  have halong : machine.Along OneQuit start is :=
    machine.along_of_invariant (fun _ _ => Alone.oneQuit) (fun _ _ _ => Alone.step)
      ⟨rfl, fun _ => rfl, nofun⟩ his
  refine machine.meets_of_along (I := Inv) (fun s h => h.good) ?_ ?_ start_inv halong
  · exact fun s i t h hi hstep => ⟨step_keeps h hi hstep, trivial⟩
  · exact fun s i e h hi hstep => step_no_error h hi hstep

/-- What the destructor does after its assignment can be late all the same: the thread can leave
and destroy the loop before `wakeup`. -/
example : ∃ s, machine.run start [.startLoop, .threadFunc, .threadFunc, .startLoopReturns,
    .destructor, .destructor, .destructor, .destructor, .threadFunc, .threadFunc, .threadFunc,
    .destructor] = .ok s ∧ s.late = true := by
  decide +kernel

end EventLoopThread

end Firey
