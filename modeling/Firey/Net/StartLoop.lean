import Firey.Net.EventLoopThread
import Firey.Thread.Thread

/-!
# `EventLoopThreadff::startLoop`

The owner starts the thread and waits until the thread has published its loop as `loop_`.  What it
waits for is the pointer, and the thread takes the pointer back when the loop has been quit: an init
callback, or anything that the loop runs, may call `quit` before the owner has looked.  Then the
pointer is null again, nobody notifies any more, and `startLoop` never returns
(`Stuck.step`).

Otherwise it returns, with a loop that is there.  `start_loop_iff` says that apart from the
assertions the one condition is that the loop is not left before the owner has seen it.

The thread is a `Threadff`, and the steps of `Firey.Thread.Thread` are those of this machine.  A
call of `quit` is one step here; how it is cut, and what the destructor does, is in
`Firey.Net.EventLoopThread`.
-/

set_option autoImplicit false

namespace Firey

/-- Where the owner stands. -/
inductive StartPhase
  | before
  /-- In `thread_.start()`. -/
  | starting
  /-- In `cond_.wait()`. -/
  | waiting
  /-- `startLoop` has returned. -/
  | returned
  deriving DecidableEq, Repr

inductive StartLoopFault
  /-- `startLoop`: `!thread_.started()`. -/
  | started
  /-- `quit`: `!quit_`. -/
  | quit
  | thread (e : ThreadFault)
  deriving DecidableEq, Repr

/-- `func` is where `threadFunc` stands, and `quit` the `quit_` of its loop. -/
structure LoopStart where
  thread_ : Thread
  func : ThreadFuncPhase
  loop_ : Bool
  quit : Bool
  cond_ : Condition Unit
  owner : StartPhase
  deriving DecidableEq, Repr

inductive StartLoopInput
  /-- `startLoop`, up to the wait in `thread_.start()`. -/
  | startLoop (created : Bool)
  /-- The owner goes on. -/
  | ownerGoes
  /-- A wakeup of the owner for no reason. -/
  | wake
  | writeTid (gettid : ℕ)
  | countDown
  /-- `threadFunc` is called. -/
  | callFunc
  /-- `threadFunc` goes on. -/
  | threadFunc
  /-- Somebody calls `quit` on the loop. -/
  | quit
  deriving DecidableEq, Repr

namespace LoopStart

/-- The constructor. -/
def ctor (name : Bytes) (num : BitVec 32) : LoopStart where
  thread_ := .ctor name num
  func := .notStarted
  loop_ := false
  quit := false
  cond_ := .empty
  owner := .before

/-- A step of the thread, with what else it does. -/
def lift (x : Except ThreadFault Thread) (f : Thread → LoopStart) :
    Except StartLoopFault LoopStart :=
  match x with
  | .ok t => .ok (f t)
  | .error e => .error (.thread e)

/-- The test of `loop_`. -/
def test (s : LoopStart) : LoopStart :=
  if s.loop_ then { s with owner := .returned }
  else { s with cond_ := s.cond_.wait (), owner := .waiting }

def ownerGoes (s : LoopStart) : Except StartLoopFault LoopStart :=
  match s.owner with
  | .starting =>
      if s.thread_.starting then lift s.thread_.startGoes fun t => { s with thread_ := t }
      else .ok s.test
  | .waiting =>
      if s.cond_.Awake () then .ok { s with cond_ := s.cond_.leave () }.test else .ok s
  | _ => .ok s

def threadFunc (s : LoopStart) : Except StartLoopFault LoopStart :=
  match s.func with
  | .notStarted => .ok s
  | .initCallback => .ok { s with func := .publish }
  | .publish =>
      .ok { s with loop_ := true, cond_ := s.cond_.notify (), func := .checkQuit }
  | .checkQuit => .ok { s with func := if s.quit then .left else .looping }
  | .looping => .ok { s with func := .checkQuit }
  | .left => .ok { s with loop_ := false, func := .cleared }
  | .cleared => lift (s.thread_.funcEnds false) fun t => { s with thread_ := t, func := .ended }
  | .ended => lift (s.thread_.step .exit) fun t => { s with thread_ := t }

/-- There is an `EventLoopff`. -/
def hasLoop (s : LoopStart) : Bool := s.func ≠ .notStarted ∧ s.func ≠ .ended

def step (s : LoopStart) : StartLoopInput → Except StartLoopFault LoopStart
  | .startLoop created =>
      if s.thread_.started_ = false then
        lift (s.thread_.start created) fun t => { s with thread_ := t, owner := .starting }
      else .error .started
  | .ownerGoes => s.ownerGoes
  | .wake => lift (s.thread_.step .wake) fun t =>
      { s with thread_ := t, cond_ := s.cond_.wake () }
  | .writeTid gettid => lift (s.thread_.step (.writeTid gettid)) fun t => { s with thread_ := t }
  | .countDown => lift s.thread_.countDown fun t => { s with thread_ := t }
  | .callFunc =>
      .ok { s with
        thread_ := s.thread_.callFunc
        func := if s.thread_.thread = .released then .initCallback else s.func }
  | .threadFunc => s.threadFunc
  | .quit =>
      if s.hasLoop then
        if s.quit = false then .ok { s with quit := true } else .error .quit
      else .ok s

def machine : Machine LoopStart StartLoopInput StartLoopFault := ⟨step⟩

/-! ## What is asked -/

/-- The thread has taken the pointer back, and the owner has not had it. -/
structure Stuck (s : LoopStart) : Prop where
  func : s.func = .cleared ∨ s.func = .ended
  owner : s.owner = .starting ∨ s.owner = .waiting

/-- The owner is not asleep while the pointer is there; it returns only when the loop has been
there, and has returned when the loop is gone. -/
structure Starts (s : LoopStart) : Prop where
  thread : s.thread_.Orderly
  awake : s.loop_ = true → s.cond_.blocked = []
  returned : s.owner = .returned → s.func.published = true ∨ s.func.isOver = true
  going : s.func = .cleared ∨ s.func = .ended → s.owner = .returned

/-- The owner returns from a test that has found the pointer, and then the loop is there. -/
def Returns (s t : LoopStart) : Prop :=
  s.owner ≠ .returned → t.owner = .returned → t.loop_ = true ∧ t.func.published = true

/-- The thread is started once, with success; `quit` is called once; and the loop is not left before
the owner has returned. -/
def Proper (s : LoopStart) : StartLoopInput → Prop
  | .startLoop created => s.owner = .before ∧ created = true
  | .threadFunc => s.func = .left → s.owner = .returned
  | .quit => s.hasLoop = true → s.quit = false
  | _ => True

instance (s : LoopStart) (i : StartLoopInput) : Decidable (s.Proper i) := by
  cases i <;> unfold Proper <;> infer_instance

end LoopStart

/-! ## What the steps of the thread leave alone -/

namespace Thread

/-- What `p` has from `o`, when `o` is neither started nor destroyed in between. -/
structure Follows (o p : Thread) : Prop where
  started : p.started_ = o.started_
  there : p.destroyed = o.destroyed
  starting : p.starting = true → o.starting = true
  none : o.thread = .none → p.thread = .none
  called : o.thread.hasCalled = true → p.thread.hasCalled = true

variable {o p : Thread}

/-- **The thread goes on** from a phase before the call of `func_`. -/
lemma follows_of_phase (hnone : o.thread ≠ .none) (hcalled : o.thread.hasCalled = false)
    (hp : p.started_ = o.started_ ∧ p.destroyed = o.destroyed ∧ p.starting = o.starting) :
    o.Follows p ∧ (o.thread.hasCalled = true → p.thread = o.thread) := by
  obtain ⟨hstarted, hthere, hstarting⟩ := hp
  have hnot (h : o.thread.hasCalled = true) : False := Bool.false_ne_true (hcalled.symm.trans h)
  refine ⟨⟨hstarted, hthere, fun h => hstarting ▸ h, ?_, ?_⟩, ?_⟩
  · exact fun h => absurd h hnone
  · exact fun h => (hnot h).elim
  · exact fun h => (hnot h).elim

lemma follows_self : o.Follows o ∧ (o.thread.hasCalled = true → o.thread = o.thread) :=
  ⟨⟨rfl, rfl, id, id, id⟩, fun _ => rfl⟩

lemma startGoes_follows (h : o.startGoes = .ok p) :
    o.Follows p ∧ (o.thread.hasCalled = true → p.thread = o.thread) := by
  unfold startGoes at h
  dsimp only at h
  split at h
  next hstarting =>
    split at h
    · cases h
      exact ⟨⟨rfl, rfl, id, id, id⟩, fun _ => rfl⟩
    · split at h
      · cases h
        exact ⟨⟨rfl, rfl, fun _ => hstarting, id, id⟩, fun _ => rfl⟩
      · cases h
  · cases h
    exact follows_self

lemma wake_follows (h : o.step .wake = .ok p) :
    o.Follows p ∧ (o.thread.hasCalled = true → p.thread = o.thread) := by
  cases h
  exact ⟨⟨rfl, rfl, id, id, id⟩, fun _ => rfl⟩

lemma writeTid_follows {gettid : ℕ} (h : o.step (.writeTid gettid) = .ok p) :
    o.Follows p ∧ (o.thread.hasCalled = true → p.thread = o.thread) := by
  rw [step] at h
  split at h
  next hcreated =>
    cases h
    refine follows_of_phase ?_ ?_ ⟨rfl, rfl, rfl⟩
    · rw [hcreated.1]; decide
    · rw [hcreated.1]; rfl
  · cases h
    exact follows_self

lemma countDown_follows (h : o.countDown = .ok p) :
    o.Follows p ∧ (o.thread.hasCalled = true → p.thread = o.thread) := by
  unfold countDown at h
  split at h
  next hthread =>
    split at h
    · cases h
      refine follows_of_phase ?_ ?_ ⟨rfl, rfl, rfl⟩
      · rw [hthread]; decide
      · rw [hthread]; rfl
    · cases h
  · cases h
    exact follows_self

lemma callFunc_follows (o : Thread) :
    o.Follows o.callFunc ∧ (o.thread.hasCalled = true → o.callFunc.thread = o.thread) := by
  unfold callFunc
  split
  next hthread =>
    refine follows_of_phase ?_ ?_ ⟨rfl, rfl, rfl⟩
    · rw [hthread]; decide
    · rw [hthread]; rfl
  · exact follows_self

/-- **The thread goes on** from `func_`. -/
lemma follows_of_called {name : Bytes} {q : RunPhase} (hcalled : o.thread.hasCalled = true)
    (hq : q.hasCalled = true) : o.Follows { o with t_threadName := name, thread := q } := by
  refine ⟨rfl, rfl, id, fun h => ?_, fun _ => hq⟩
  rw [h] at hcalled
  cases hcalled

lemma funcEnds_follows (h : o.funcEnds false = .ok p) : o.Follows p := by
  unfold funcEnds at h
  split at h
  next hthread =>
    rw [if_neg Bool.false_ne_true] at h
    cases h
    exact follows_of_called (by rw [hthread]; rfl) rfl
  · cases h
    exact follows_self.1

lemma exit_follows (h : o.step .exit = .ok p) : o.Follows p := by
  rw [step] at h
  split at h
  next hthread =>
    cases h
    exact @follows_of_called o o.t_threadName _ (by rw [hthread]; rfl) rfl
  · cases h
    exact follows_self.1

end Thread

namespace LoopStart

variable {s t : LoopStart}

/-! ## Nobody is woken once the pointer is gone -/

/-- What is so in every run, whatever it calls: the thread is in `threadFunc` only when it was
made, and the pointer is there from `publish` on until the loop has been left. -/
structure Called (s : LoopStart) : Prop where
  func : s.func ≠ .notStarted → s.thread_.thread.hasCalled = true
  started : s.thread_.thread ≠ .none → s.thread_.started_ = true
  loop : s.loop_ = s.func.published

lemma lift_ok {x : Except ThreadFault Thread} {f : Thread → LoopStart} (h : lift x f = .ok t) :
    ∃ p, x = .ok p ∧ t = f p := by
  cases x with
  | ok p => exact ⟨p, rfl, (Except.ok.inj h).symm⟩
  | error e => cases h

/-- The thread goes on, and the rest of the state stays. -/
lemma Called.follows (h : s.Called) {p : Thread} (hp : s.thread_.Follows p) (c : Condition Unit)
    (q : StartPhase) : Called { s with thread_ := p, cond_ := c, owner := q } where
  func hf := hp.called (h.func hf)
  started hthread := hp.started ▸ h.started fun hnone => hthread (hp.none hnone)
  loop := h.loop

/-- `threadFunc` goes on. -/
lemma Called.moves (h : s.Called) (hnot : s.func ≠ .notStarted) {q : ThreadFuncPhase} {l : Bool}
    (c : Condition Unit) (hl : l = q.published) :
    Called { s with func := q, loop_ := l, cond_ := c } where
  func _ := h.func hnot
  started := h.started
  loop := hl

lemma test_eq (s : LoopStart) :
    ∃ c q, s.test = { s with cond_ := c, owner := q } ∧ (s.loop_ = false → q = .waiting) ∧
      (s.loop_ = true → q = .returned ∧ c = s.cond_) := by
  unfold test
  split
  next hloop =>
    exact ⟨_, _, rfl, fun h => absurd (hloop.symm.trans h) (by decide), fun _ => ⟨rfl, rfl⟩⟩
  next hloop => exact ⟨_, _, rfl, fun _ => rfl, fun h => absurd h hloop⟩

lemma Called.threadFunc (h : s.Called) (hi : s.threadFunc = .ok t) :
    t.Called ∧ (s.Stuck → t.Stuck) := by
  have hnot {p : ThreadFuncPhase} (hp : p ≠ .cleared ∧ p ≠ .ended) (hf : s.func = p)
      (hs : s.Stuck) : t.Stuck := by
    rcases hs.func with hover | hover
    · exact absurd (hf.symm.trans hover) hp.1
    · exact absurd (hf.symm.trans hover) hp.2
  unfold LoopStart.threadFunc at hi
  split at hi
  next hf =>
    cases hi
    exact ⟨h, id⟩
  next hf =>
    cases hi
    exact ⟨h.moves (by rw [hf]; decide) _ (h.loop.trans (by rw [hf]; rfl)), hnot (by decide) hf⟩
  next hf =>
    cases hi
    exact ⟨h.moves (by rw [hf]; decide) _ rfl, hnot (by decide) hf⟩
  next hf =>
    cases hi
    refine ⟨h.moves (by rw [hf]; decide) _ (h.loop.trans ?_), hnot (by decide) hf⟩
    rw [hf]
    split <;> rfl
  next hf =>
    cases hi
    exact ⟨h.moves (by rw [hf]; decide) _ (h.loop.trans (by rw [hf]; rfl)), hnot (by decide) hf⟩
  next hf =>
    cases hi
    exact ⟨h.moves (by rw [hf]; decide) _ rfl, hnot (by decide) hf⟩
  next hf =>
    obtain ⟨p, hp, rfl⟩ := lift_ok hi
    have hfollows := h.follows (Thread.funcEnds_follows hp) s.cond_ s.owner
    refine ⟨hfollows.moves (by rw [hf]; decide) s.cond_ (h.loop.trans (by rw [hf]; rfl)), ?_⟩
    exact fun hs => ⟨Or.inr rfl, hs.owner⟩
  next hf =>
    obtain ⟨p, hp, rfl⟩ := lift_ok hi
    exact ⟨h.follows (Thread.exit_follows hp) _ _, fun hs => ⟨hs.func, hs.owner⟩⟩

/-- **What is so in every run** stays so; and an owner that is stuck stays stuck. -/
lemma Called.step (h : s.Called) {i : StartLoopInput} (hi : s.step i = .ok t) :
    t.Called ∧ (s.Stuck → t.Stuck) := by
  cases i with
  | startLoop created =>
    rw [LoopStart.step] at hi
    split at hi
    next hstarted =>
      have hnone : s.thread_.thread = .none := by
        by_contra hthread
        rw [h.started hthread] at hstarted
        cases hstarted
      have hfunc : s.func = .notStarted := by
        by_contra hfunc
        have hcalled := h.func hfunc
        rw [hnone] at hcalled
        cases hcalled
      obtain ⟨p, hp, rfl⟩ := lift_ok hi
      refine ⟨⟨fun hf => absurd hfunc hf, fun hthread => ?_, h.loop⟩, fun hs => ?_⟩
      · unfold Thread.start at hp
        rw [if_pos hstarted] at hp
        split at hp
        · cases hp
          exact absurd hnone hthread
        · split at hp
          · cases hp
            rfl
          · cases hp
      · rcases hs.func with hf | hf
        · rw [hfunc] at hf
          cases hf
        · rw [hfunc] at hf
          cases hf
    · cases hi
  | ownerGoes =>
    rw [LoopStart.step, ownerGoes] at hi
    have hstuck {c : Condition Unit} {q : StartPhase} (hq : s.loop_ = false → q = .waiting)
        (hs : s.Stuck) : Stuck { s with cond_ := c, owner := q } := by
      refine ⟨hs.func, Or.inr (hq ?_)⟩
      rw [h.loop]
      rcases hs.func with hf | hf
      · rw [hf]; rfl
      · rw [hf]; rfl
    split at hi
    next howner =>
      split at hi
      · obtain ⟨p, hp, rfl⟩ := lift_ok hi
        exact ⟨h.follows (Thread.startGoes_follows hp).1 _ _, fun hs => ⟨hs.func, hs.owner⟩⟩
      · obtain ⟨c, q, htest, hnull, -⟩ := test_eq s
        cases hi
        rw [htest]
        exact ⟨h.follows Thread.follows_self.1 _ _, hstuck hnull⟩
    · split at hi
      · obtain ⟨c, q, htest, hnull, -⟩ := test_eq { s with cond_ := s.cond_.leave () }
        cases hi
        rw [htest]
        exact ⟨h.follows Thread.follows_self.1 _ _, hstuck hnull⟩
      · cases hi
        exact ⟨h, id⟩
    · cases hi
      exact ⟨h, id⟩
  | wake =>
    rw [LoopStart.step] at hi
    obtain ⟨p, hp, rfl⟩ := lift_ok hi
    exact ⟨h.follows (Thread.wake_follows hp).1 _ _, fun hs => ⟨hs.func, hs.owner⟩⟩
  | writeTid gettid =>
    rw [LoopStart.step] at hi
    obtain ⟨p, hp, rfl⟩ := lift_ok hi
    exact ⟨h.follows (Thread.writeTid_follows hp).1 _ _, fun hs => ⟨hs.func, hs.owner⟩⟩
  | countDown =>
    rw [LoopStart.step] at hi
    obtain ⟨p, hp, rfl⟩ := lift_ok hi
    exact ⟨h.follows (Thread.countDown_follows hp).1 _ _, fun hs => ⟨hs.func, hs.owner⟩⟩
  | callFunc =>
    cases hi
    have hfollows := (Thread.callFunc_follows s.thread_).1
    split
    next hreleased =>
      have hfunc : s.func = .notStarted := by
        by_contra hfunc
        have hcalled := h.func hfunc
        rw [hreleased] at hcalled
        cases hcalled
      refine ⟨⟨fun _ => ?_, (h.follows hfollows s.cond_ s.owner).started, ?_⟩, fun hs => ?_⟩
      · rw [Thread.callFunc, if_pos hreleased]
        rfl
      · rw [h.loop, hfunc]
        rfl
      · rcases hs.func with hf | hf
        · rw [hfunc] at hf
          cases hf
        · rw [hfunc] at hf
          cases hf
    · exact ⟨h.follows hfollows _ _, fun hs => ⟨hs.func, hs.owner⟩⟩
  | threadFunc => exact h.threadFunc hi
  | quit =>
    rw [LoopStart.step] at hi
    split at hi
    · split at hi
      · cases hi
        exact ⟨⟨h.func, h.started, h.loop⟩, fun hs => ⟨hs.func, hs.owner⟩⟩
      · cases hi
    · cases hi
      exact ⟨h, id⟩

/-! ## The invariant -/

/-- Where the owner stands, against the thread and the condition. -/
structure Inv (s : LoopStart) : Prop where
  thread : s.thread_.Inv
  there : s.thread_.destroyed = false
  before : s.owner = .before ↔ s.thread_.started_ = false
  starting : s.thread_.starting = true → s.owner = .starting
  inFunc : s.func ≠ .notStarted → s.func ≠ .ended → s.thread_.thread = .inFunc
  waiting : s.owner ≠ .waiting → s.cond_.waiters = []
  waiters : s.cond_.waiters.Nodup
  blocked : s.loop_ = true → s.cond_.blocked = []
  returned : s.owner = .returned → s.func.published = true ∨ s.func.isOver = true
  going : s.func = .cleared ∨ s.func = .ended → s.owner = .returned

lemma ctor_inv (name : Bytes) (num : BitVec 32) : (ctor name num).Inv where
  thread := Thread.ctor_inv name num
  there := rfl
  before := iff_of_true rfl rfl
  starting h := absurd h Bool.false_ne_true
  inFunc h := absurd rfl h
  waiting _ := rfl
  waiters := List.nodup_nil
  blocked h := absurd h Bool.false_ne_true
  returned h := StartPhase.noConfusion h
  going h := by rcases h with h | h <;> cases h

lemma ctor_called (name : Bytes) (num : BitVec 32) : (ctor name num).Called where
  func h := absurd rfl h
  started h := absurd rfl h
  loop := rfl

lemma Inv.starts (h : s.Inv) : s.Starts := ⟨h.thread.orderly, h.blocked, h.returned, h.going⟩

/-- The thread goes on, and is in `func_` if it was. -/
lemma Inv.follows (h : s.Inv) (hcalled : s.Called) {p : Thread} (hp : p.Inv)
    (hfollows : s.thread_.Follows p)
    (hsame : s.thread_.thread.hasCalled = true → p.thread = s.thread_.thread) :
    Inv { s with thread_ := p } := by
  refine { h with
    thread := hp
    there := hfollows.there.trans h.there
    before := h.before.trans (by rw [hfollows.started])
    starting := fun hstarting => h.starting (hfollows.starting hstarting)
    inFunc := fun hbegun hended => ?_ }
  rw [← h.inFunc hbegun hended]
  exact hsame (hcalled.func hbegun)

/-- A wakeup for no reason does not make anybody sleep. -/
lemma Inv.wake (h : s.Inv) : Inv { s with cond_ := s.cond_.wake () } := by
  have hperm := s.cond_.wake_waiters ()
  refine { h with
    waiting := fun hq => ?_
    waiters := hperm.nodup_iff.mpr h.waiters
    blocked := fun hloop => ?_ }
  · exact List.perm_nil.mp ((h.waiting hq) ▸ hperm)
  · have hsub := Condition.blocked_wake_subset (c := s.cond_) (t := ())
    rw [h.blocked hloop] at hsub
    exact List.subset_nil.mp hsub

/-- **The owner tests the pointer**, when it is out of `thread_.start()` and not asleep. -/
lemma Inv.test (h : s.Inv) (hcalled : s.Called) (howner : s.owner = .starting ∨ s.owner = .waiting)
    (hstarting : s.thread_.starting = false) {c : Condition Unit} (hc : c.waiters = []) :
    Inv ({ s with cond_ := c } : LoopStart).test ∧
      s.Returns ({ s with cond_ := c } : LoopStart).test := by
  have hstarted : ¬ s.thread_.started_ = false := by
    rw [← h.before]
    rcases howner with hq | hq <;> rw [hq] <;> decide
  have hgone : ¬ s.owner = .returned := by
    rcases howner with hq | hq <;> rw [hq] <;> decide
  unfold LoopStart.test
  dsimp only
  split
  next hloop =>
    have hthere : s.func.published = true := hcalled.loop.symm.trans hloop
    have hblocked : c.blocked = [] := by
      unfold Condition.waiters at hc
      exact (List.append_eq_nil_iff.mp (List.append_eq_nil_iff.mp hc).1).1
    constructor
    · exact {
        h with
        before := iff_of_false (fun hf => StartPhase.noConfusion hf) hstarted
        starting := fun hf => absurd (hstarting.symm.trans hf) (by decide)
        waiting := fun _ => hc
        waiters := hc ▸ List.nodup_nil
        blocked := fun _ => hblocked
        returned := fun _ => Or.inl hthere
        going := fun _ => rfl }
    · exact fun _ _ => ⟨hloop, hthere⟩
  next hloop =>
    constructor
    · exact {
        h with
        before := iff_of_false (fun hf => StartPhase.noConfusion hf) hstarted
        starting := fun hf => absurd (hstarting.symm.trans hf) (by decide)
        waiting := fun hf => absurd rfl hf
        waiters := Condition.wait_waiters.nodup_iff.mpr (hc ▸ List.nodup_singleton ())
        blocked := fun hf => absurd hf hloop
        returned := fun hf => StartPhase.noConfusion hf
        going := fun hf => absurd (h.going hf) hgone }
    · exact fun _ hf => StartPhase.noConfusion hf

/-- The loop is started, its owner gets it, and nothing fails. -/
def Starting : RunSpec LoopStart StartLoopFault where
  good := Starts
  move := Returns
  stop _ := False

/-- A step of the thread, in a state where it may make it. -/
lemma Inv.lift (h : s.Inv) (hcalled : s.Called) {i : ThreadStep} (hi : s.thread_.Proper i)
    (hfollows : ∀ p, s.thread_.step i = .ok p →
      s.thread_.Follows p ∧ (s.thread_.thread.hasCalled = true → p.thread = s.thread_.thread)) :
    ∃ p, s.thread_.step i = .ok p ∧ Inv { s with thread_ := p } := by
  obtain ⟨p, hp, hinv, -⟩ := Thread.step_comes h.thread hi
  exact ⟨p, hp, h.follows hcalled hinv (hfollows p hp).1 (hfollows p hp).2⟩

/-- A step in which the owner does not go on. -/
lemma sound_of_owner {u : LoopStart} (hu : u.Inv)
    (howner : u.owner = s.owner ∨ u.owner ≠ .returned) : Starting.Sound Inv s (.ok u) := by
  refine ⟨hu, fun hnot hreturned => ?_⟩
  rcases howner with hq | hq
  · exact absurd (hq ▸ hreturned) hnot
  · exact absurd hreturned hq

lemma Inv.startLoop (h : s.Inv) {created : Bool} (hi : s.Proper (.startLoop created)) :
    Starting.Sound Inv s (s.step (.startLoop created)) := by
  obtain ⟨howner, rfl⟩ := hi
  have hstarted := h.before.mp howner
  obtain ⟨p, hp, hinv, -⟩ := h.thread.start ⟨h.there, hstarted, rfl⟩
  rw [LoopStart.step, if_pos hstarted, hp]
  have hstart := hp
  rw [Thread.start, h.there, if_neg Bool.false_ne_true, if_pos hstarted, if_pos rfl] at hstart
  cases hstart
  have hnone := h.thread.orderly.unstarted hstarted
  refine sound_of_owner ?_ (Or.inr (fun hf => StartPhase.noConfusion hf))
  exact {
    h with
    thread := hinv
    there := rfl
    before := iff_of_false (fun hf => StartPhase.noConfusion hf) (fun hf => Bool.noConfusion hf)
    starting := fun _ => rfl
    inFunc := fun hbegun hended => absurd (hnone.symm.trans (h.inFunc hbegun hended)) (by decide)
    waiting := fun _ => h.waiting (by rw [howner]; decide)
    returned := fun hf => StartPhase.noConfusion hf
    going := fun hf => absurd (howner.symm.trans (h.going hf)) (by decide) }

lemma Inv.ownerGoes (h : s.Inv) (hcalled : s.Called) : Starting.Sound Inv s s.ownerGoes := by
  unfold LoopStart.ownerGoes
  split
  next howner =>
    split
    · obtain ⟨p, hp, hinv⟩ := h.lift hcalled (i := .startGoes) trivial
        fun p hp => Thread.startGoes_follows hp
      change s.thread_.startGoes = .ok p at hp
      rw [hp]
      exact sound_of_owner hinv (Or.inl rfl)
    next hstarting =>
      exact h.test hcalled (Or.inl howner) (Bool.eq_false_iff.mpr hstarting)
        (h.waiting (by rw [howner]; decide))
  next howner =>
    split
    next hawake =>
      -- Nobody but the owner waits at this condition.
      have hleft := (Condition.leave_waiters hawake).nodup_iff.mp h.waiters
      have hnil : (s.cond_.leave ()).waiters = [] :=
        List.eq_nil_iff_forall_not_mem.mpr fun _ hu => (List.nodup_cons.mp hleft).1 hu
      refine h.test hcalled (Or.inr howner) (Bool.eq_false_iff.mpr fun hstarting => ?_) hnil
      have hq := h.starting hstarting
      rw [howner] at hq
      cases hq
    · exact sound_of_owner h (Or.inl rfl)
  · exact sound_of_owner h (Or.inl rfl)

/-- The thread is in `threadFunc` and goes to `q`, with `l` for the pointer. -/
lemma Inv.moves (h : s.Inv) {q : ThreadFuncPhase} {l : Bool} {c : Condition Unit}
    (hthread : s.thread_.thread = .inFunc) (hperm : c.waiters.Perm s.cond_.waiters)
    (hblocked : l = true → c.blocked = [])
    (hreturned : s.owner = .returned → q.published = true ∨ q.isOver = true)
    (hgoing : q = .cleared ∨ q = .ended → s.owner = .returned) :
    Inv { s with func := q, loop_ := l, cond_ := c } :=
  { h with
    inFunc := fun _ _ => hthread
    waiting := fun hq => List.perm_nil.mp ((h.waiting hq) ▸ hperm)
    waiters := hperm.nodup_iff.mpr h.waiters
    blocked := hblocked
    returned := hreturned
    going := hgoing }

/-- **The thread publishes the pointer**, and the owner does not stay asleep. -/
lemma Inv.notified (h : s.Inv) : (s.cond_.notify ()).blocked = [] := by
  rcases s.cond_.notify_cases () with ⟨hnil, heq⟩ | ⟨u, hu, heq⟩
  · rw [heq, hnil]
  · rw [heq]
    have hnodup : s.cond_.blocked.Nodup :=
      (List.nodup_append.mp (List.nodup_append.mp h.waiters).1).1
    exact List.eq_nil_iff_forall_not_mem.mpr fun v hv => (hnodup.mem_erase_iff.mp hv).1 rfl

lemma Inv.threadFunc (h : s.Inv) (hi : s.Proper .threadFunc) :
    Starting.Sound Inv s s.threadFunc := by
  have hearly (hpublished : s.func.published = false) (hover : s.func.isOver = false) :
      s.owner ≠ .returned := by
    intro hq
    rcases h.returned hq with hf | hf
    · exact absurd (hpublished.symm.trans hf) (by decide)
    · exact absurd (hover.symm.trans hf) (by decide)
  unfold LoopStart.threadFunc
  split
  next hf => exact sound_of_owner h (Or.inl rfl)
  next hf =>
    have hnot := hearly (by rw [hf]; rfl) (by rw [hf]; rfl)
    refine sound_of_owner ?_ (Or.inl rfl)
    exact h.moves (h.inFunc (by rw [hf]; decide) (by rw [hf]; decide)) (.refl _) h.blocked
      (fun hq => absurd hq hnot) (by rintro (hq | hq) <;> cases hq)
  next hf =>
    refine sound_of_owner ?_ (Or.inl rfl)
    exact h.moves (h.inFunc (by rw [hf]; decide) (by rw [hf]; decide)) (s.cond_.notify_waiters ())
      (fun _ => h.notified) (fun _ => Or.inl rfl) (by rintro (hq | hq) <;> cases hq)
  next hf =>
    refine sound_of_owner ?_ (Or.inl rfl)
    refine h.moves (h.inFunc (by rw [hf]; decide) (by rw [hf]; decide)) (.refl _) h.blocked
      (fun _ => Or.inl ?_) ?_
    · split <;> rfl
    · split <;> rintro (hq | hq) <;> cases hq
  next hf =>
    refine sound_of_owner ?_ (Or.inl rfl)
    exact h.moves (h.inFunc (by rw [hf]; decide) (by rw [hf]; decide)) (.refl _) h.blocked
      (fun _ => Or.inl rfl) (by rintro (hq | hq) <;> cases hq)
  next hf =>
    refine sound_of_owner ?_ (Or.inl rfl)
    exact h.moves (h.inFunc (by rw [hf]; decide) (by rw [hf]; decide)) (.refl _)
      (fun hl => Bool.noConfusion hl) (fun _ => Or.inr rfl) (fun _ => hi hf)
  next hf =>
    have hin := h.inFunc (by rw [hf]; decide) (by rw [hf]; decide)
    obtain ⟨p, hp, hinv, -⟩ : s.thread_.Comes (s.thread_.funcEnds false) :=
      h.thread.funcEnds fun _ => rfl
    have hfollows := Thread.funcEnds_follows hp
    rw [hp]
    refine sound_of_owner ?_ (Or.inl rfl)
    exact {
      h with
      thread := hinv
      there := hfollows.there.trans h.there
      before := h.before.trans (by rw [hfollows.started])
      starting := fun hstarting => h.starting (hfollows.starting hstarting)
      inFunc := fun _ hended => absurd rfl hended
      returned := fun _ => Or.inr rfl
      going := fun _ => h.going (Or.inl hf) }
  next hf =>
    obtain ⟨p, hp, hinv, -⟩ := h.thread.exit
    have hfollows := Thread.exit_follows hp
    rw [hp]
    refine sound_of_owner ?_ (Or.inl rfl)
    exact {
      h with
      thread := hinv
      there := hfollows.there.trans h.there
      before := h.before.trans (by rw [hfollows.started])
      starting := fun hstarting => h.starting (hfollows.starting hstarting)
      inFunc := fun _ hended => absurd hf hended }

lemma Inv.callFunc (h : s.Inv) (hcalled : s.Called) :
    Starting.Sound Inv s (s.step .callFunc) := by
  obtain ⟨p, hp, hinv⟩ := h.lift hcalled (i := .callFunc) trivial fun p hp =>
    Except.ok.inj hp ▸ Thread.callFunc_follows s.thread_
  cases hp
  rw [LoopStart.step]
  refine sound_of_owner ?_ (Or.inl rfl)
  split
  next hreleased =>
    have hfunc : s.func = .notStarted := by
      by_contra hfunc
      have hbegun := hcalled.func hfunc
      rw [hreleased] at hbegun
      cases hbegun
    have hearly : s.owner ≠ .returned := by
      intro hq
      rcases h.returned hq with hf | hf
      · rw [hfunc] at hf
        cases hf
      · rw [hfunc] at hf
        cases hf
    refine { hinv with
      inFunc := fun _ _ => ?_
      returned := fun hq => absurd hq hearly
      going := by rintro (hq | hq) <;> cases hq }
    rw [Thread.callFunc, if_pos hreleased]
  · exact hinv

/-- **One step** that is proper. -/
lemma Inv.step (h : s.Inv) (hcalled : s.Called) {i : StartLoopInput} (hi : s.Proper i) :
    Starting.Sound Inv s (s.step i) := by
  cases i with
  | startLoop created => exact h.startLoop hi
  | ownerGoes => exact h.ownerGoes hcalled
  | wake =>
    obtain ⟨p, hp, hinv⟩ := h.lift hcalled (i := .wake) trivial fun p hp => Thread.wake_follows hp
    rw [LoopStart.step, hp]
    exact sound_of_owner hinv.wake (Or.inl rfl)
  | writeTid gettid =>
    obtain ⟨p, hp, hinv⟩ := h.lift hcalled (i := .writeTid gettid) trivial
      fun p hp => Thread.writeTid_follows hp
    rw [LoopStart.step, hp]
    exact sound_of_owner hinv (Or.inl rfl)
  | countDown =>
    obtain ⟨p, hp, hinv⟩ := h.lift hcalled (i := .countDown) trivial
      fun p hp => Thread.countDown_follows hp
    change s.thread_.countDown = .ok p at hp
    rw [LoopStart.step, hp]
    exact sound_of_owner hinv (Or.inl rfl)
  | callFunc => exact h.callFunc hcalled
  | threadFunc => exact h.threadFunc hi
  | quit =>
    rw [LoopStart.step]
    split
    next hloop =>
      rw [if_pos (hi hloop)]
      exact sound_of_owner { h with } (Or.inl rfl)
    · exact sound_of_owner h (Or.inl rfl)

/-- **A step that is not proper** ends the process or leaves the owner without the loop. -/
lemma Inv.seen (h : s.Inv) {i : StartLoopInput} (hi : ¬ s.Proper i) :
    Starting.Seen s (s.step i) := by
  cases i with
  | startLoop created =>
    rw [LoopStart.step]
    split
    next hstarted =>
      have hcreated : ¬ created = true := fun hf => hi ⟨h.before.mpr hstarted, hf⟩
      rw [Thread.start, h.there, if_neg Bool.false_ne_true, if_pos hstarted, if_neg hcreated]
      exact not_false
    · exact not_false
  | threadFunc =>
    obtain ⟨hleft, howner⟩ := Classical.not_imp.mp hi
    rw [LoopStart.step, LoopStart.threadFunc, hleft]
    exact fun hseen => howner (hseen.2.going (Or.inl rfl))
  | quit =>
    obtain ⟨hloop, hquit⟩ := Classical.not_imp.mp hi
    rw [LoopStart.step, if_pos hloop, if_neg hquit]
    exact not_false
  | ownerGoes => exact absurd trivial hi
  | wake => exact absurd trivial hi
  | writeTid gettid => exact absurd trivial hi
  | countDown => exact absurd trivial hi
  | callFunc => exact absurd trivial hi

/-! ## Every run -/

/-- **`startLoop`**, over every interleaving of the owner, the thread, wakeups for no reason and the
calls of `quit`: the owner gets the loop while it is there.  This is so exactly as long as the
thread is started once, with success, `quit` is called once, and the loop is not left before the
owner has returned.  In a run where it is left before that, the owner never returns. -/
theorem start_loop_iff (name : Bytes) (num : BitVec 32) (is : List StartLoopInput) :
    (machine.Meets Starting (ctor name num) is ↔ machine.Along Proper (ctor name num) is) ∧
      ∀ s, machine.run (ctor name num) is = .ok s → s.Stuck →
        ∀ js t, machine.run s js = .ok t → t.Stuck := by
  constructor
  · refine machine.meets_iff_of_sound (I := fun s => s.Called ∧ s.Inv) (fun _ h => h.2.starts) ?_ ?_
      ⟨ctor_called name num, ctor_inv name num⟩
    · rintro s i ⟨hcalled, h⟩ hi
      have hsound := h.step hcalled hi
      change Starting.Sound _ s (s.step i)
      cases hstep : s.step i with
      | ok t =>
        rw [hstep] at hsound
        exact ⟨⟨(hcalled.step hstep).1, hsound.1⟩, hsound.2⟩
      | error e =>
        rw [hstep] at hsound
        exact hsound
    · rintro s i ⟨-, h⟩ hi
      exact h.seen hi
  · intro s hs hstuck js t ht
    have hcalled : s.Called := machine.run_invariant (I := Called)
      (fun _ _ _ h hi => (h.step hi).1) (ctor_called name num) hs
    have hboth : t.Called ∧ t.Stuck := machine.run_invariant (I := fun s => s.Called ∧ s.Stuck)
      (fun _ _ _ h hi => ⟨(h.1.step hi).1, (h.1.step hi).2 h.2⟩) ⟨hcalled, hstuck⟩ ht
    exact hboth.2

end LoopStart

end Firey
