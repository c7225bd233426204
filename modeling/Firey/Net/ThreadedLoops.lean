import Firey.Framework.Machine

/-!
# One loop in each thread

An `EventLoopff` is of the thread that made it.  The constructor finds a second loop in a thread by
the pointer `t_loopInThisThread`, which is a variable of the thread; all the other functions go by
`threadId_`, which is a number of the kernel.  The kernel gives the number of a thread that has come
to its end to another one, and the pointer of that thread is null again.  So the two agree only as
long as no thread leaves a loop behind.

A thread is known by its place in `threads`, a loop by its place in `loops`.  `frames` are the calls
of `loop()` in a thread that have not returned, and what a thread does between two tests of `quit_`
are its steps from the one to the other.  `maker` and `ran` are history.  Nobody forks.
-/

set_option autoImplicit false

namespace Firey

inductive ThreadedLoopFault
  /-- `LOG_FATAL` in the constructor. -/
  | anotherLoop
  /-- `abortNotInLoopThread()`, or `assert(isInLoopThread())`. -/
  | notInLoopThread
  /-- `assert(!looping_)`, in `loop()` and in the destructor. -/
  | looping
  /-- `assert(!quit_)`. -/
  | quit
  /-- A loop that has been destroyed is used. -/
  | destroyed
  deriving DecidableEq, Repr

/-- An `EventLoopff`, and the thread that made it. -/
structure LoopObject where
  looping_ : Bool
  quit_ : Bool
  threadId_ : ℕ
  destroyed : Bool
  maker : ℕ
  deriving DecidableEq, Repr

structure LoopingThread where
  tid : ℕ
  t_loopInThisThread : Option ℕ
  frames : List ℕ
  alive : Bool
  deriving DecidableEq, Repr

/-- `ran` has the loop and the thread of each functor that was called at once, and of each round of
`loop()`. -/
structure ThreadedLoops where
  threads : List LoopingThread
  loops : List LoopObject
  ran : List (ℕ × ℕ)
  deriving DecidableEq, Repr

/-- `t` is the thread that makes the call. -/
inductive ThreadedLoopInput
  /-- A thread begins, and the kernel gives it this number. -/
  | create (number : ℕ)
  /-- A thread that is in no `loop()` comes to its end. -/
  | exit (t : ℕ)
  /-- `EventLoopff::EventLoopff`. -/
  | newLoop (t : ℕ)
  | loop (t l : ℕ)
  /-- `loop()` comes to the head of its `while`. -/
  | test (t : ℕ)
  | quit (t l : ℕ)
  /-- `updateChannel`, `removeChannel`, and whatever else begins with `assertInLoopThread`. -/
  | assertInLoopThread (t l : ℕ)
  | runInLoop (t l : ℕ)
  /-- `EventLoopff::~EventLoopff`. -/
  | destroy (t l : ℕ)
  deriving DecidableEq, Repr

namespace ThreadedLoops

/-- The main thread, which the kernel calls `number`. -/
def start (number : ℕ) : ThreadedLoops := ⟨[⟨number, none, [], true⟩], [], []⟩

/-- The thread, if it is there and has not come to its end. -/
def living (s : ThreadedLoops) (t : ℕ) : Option LoopingThread :=
  s.threads[t]?.filter fun x => x.alive

/-- The kernel can give this number. -/
def Free (s : ThreadedLoops) (number : ℕ) : Prop :=
  ∀ x ∈ s.threads, x.alive = true → x.tid ≠ number

instance (s : ThreadedLoops) (number : ℕ) : Decidable (s.Free number) :=
  inferInstanceAs (Decidable (∀ x ∈ s.threads, _))

def create (s : ThreadedLoops) (number : ℕ) : ThreadedLoops :=
  if s.Free number then { s with threads := s.threads ++ [⟨number, none, [], true⟩] } else s

def exit (s : ThreadedLoops) (t : ℕ) (x : LoopingThread) : ThreadedLoops :=
  if x.frames = [] then { s with threads := s.threads.set t { x with alive := false } } else s

/-- The constructor. -/
def newLoop (s : ThreadedLoops) (t : ℕ) (x : LoopingThread) :
    Except ThreadedLoopFault ThreadedLoops :=
  if x.t_loopInThisThread.isSome then .error .anotherLoop
  else
    .ok { s with
      threads := s.threads.set t { x with t_loopInThisThread := some s.loops.length }
      loops := s.loops ++ [⟨false, false, x.tid, false, t⟩] }

/-- `isInLoopThread()`, in the thread `x`. -/
def isInLoopThread (x : LoopingThread) (o : LoopObject) : Bool := o.threadId_ = x.tid

/-- `loop()`, up to its `while`. -/
def loop (s : ThreadedLoops) (t l : ℕ) (x : LoopingThread) (o : LoopObject) :
    Except ThreadedLoopFault ThreadedLoops :=
  if o.looping_ then .error .looping
  else if isInLoopThread x o then
    .ok { s with
      threads := s.threads.set t { x with frames := l :: x.frames }
      loops := s.loops.set l { o with looping_ := true } }
  else .error .notInLoopThread

/-- The test of `quit_`, and the end of `loop()` where it is set.  A round of the loop begins with
`handleEventWithGuard` or with `doPendingFunctors`, which both assert the thread. -/
def test (s : ThreadedLoops) (t : ℕ) (x : LoopingThread) :
    Except ThreadedLoopFault ThreadedLoops :=
  match x.frames with
  | [] => .ok s
  | l :: frames =>
      match s.loops[l]? with
      | none => .ok s
      | some o =>
          if o.destroyed then .error .destroyed
          else if o.quit_ then
            .ok { s with
              threads := s.threads.set t { x with frames := frames }
              loops := s.loops.set l { o with looping_ := false } }
          else if isInLoopThread x o then .ok { s with ran := s.ran ++ [(l, t)] }
          else .error .notInLoopThread

/-- `quit()`, which any thread may call. -/
def quit (s : ThreadedLoops) (l : ℕ) (o : LoopObject) : Except ThreadedLoopFault ThreadedLoops :=
  if o.quit_ then .error .quit
  else .ok { s with loops := s.loops.set l { o with quit_ := true } }

/-- `runInLoop` calls the functor, or it leaves it to the thread of the loop. -/
def runInLoop (s : ThreadedLoops) (t l : ℕ) (x : LoopingThread) (o : LoopObject) : ThreadedLoops :=
  if isInLoopThread x o then { s with ran := s.ran ++ [(l, t)] } else s

/-- The destructor: `disableAll` of the wakeup channel asserts the thread. -/
def destroy (s : ThreadedLoops) (t l : ℕ) (x : LoopingThread) (o : LoopObject) :
    Except ThreadedLoopFault ThreadedLoops :=
  if o.looping_ then .error .looping
  else if isInLoopThread x o then
    .ok { s with
      threads := s.threads.set t { x with t_loopInThisThread := none }
      loops := s.loops.set l { o with destroyed := true } }
  else .error .notInLoopThread

/-- A function of the loop `l` is called in the thread `t`. -/
def call (s : ThreadedLoops) (t l : ℕ)
    (f : LoopingThread → LoopObject → Except ThreadedLoopFault ThreadedLoops) :
    Except ThreadedLoopFault ThreadedLoops :=
  match s.living t, s.loops[l]? with
  | some x, some o => if o.destroyed then .error .destroyed else f x o
  | _, _ => .ok s

def step (s : ThreadedLoops) : ThreadedLoopInput → Except ThreadedLoopFault ThreadedLoops
  | .create number => .ok (s.create number)
  | .exit t => .ok ((s.living t).elim s (s.exit t))
  | .newLoop t => (s.living t).elim (.ok s) (s.newLoop t)
  | .loop t l => s.call t l (s.loop t l)
  | .test t => (s.living t).elim (.ok s) (s.test t)
  | .quit t l => s.call t l fun _ o => s.quit l o
  | .assertInLoopThread t l =>
      s.call t l fun x o => if isInLoopThread x o then .ok s else .error .notInLoopThread
  | .runInLoop t l => s.call t l fun x o => .ok (s.runInLoop t l x o)
  | .destroy t l => s.call t l (s.destroy t l)

def machine : Machine ThreadedLoops ThreadedLoopInput ThreadedLoopFault := ⟨step⟩

/-! ## The invariant -/

/-- How the thread `x`, which is `t`, stands to the loop `o`, which is `l`. -/
structure Fits (t : ℕ) (x : LoopingThread) (l : ℕ) (o : LoopObject) : Prop where
  pointer : x.t_loopInThisThread = some l ↔ o.destroyed = false ∧ o.maker = t
  frame : l ∈ x.frames ↔ o.looping_ = true ∧ o.maker = t
  number : o.destroyed = false → (o.threadId_ = x.tid ↔ o.maker = t)

/-- `maker` is that no thread leaves a loop behind. -/
structure Inv (s : ThreadedLoops) : Prop where
  numbers : ∀ t u x y, s.living t = some x → s.living u = some y → x.tid = y.tid → t = u
  fits : ∀ t x l o, s.living t = some x → s.loops[l]? = some o → Fits t x l o
  maker : ∀ (l : ℕ) (o : LoopObject), s.loops[l]? = some o → o.destroyed = false →
    ∃ x, s.living o.maker = some x
  ended : ∀ (l : ℕ) (o : LoopObject), s.loops[l]? = some o → o.destroyed = true →
    o.looping_ = false
  known : ∀ t x, s.living t = some x →
    (∀ l, x.t_loopInThisThread = some l → l < s.loops.length) ∧ ∀ l ∈ x.frames, l < s.loops.length
  single : ∀ t x, s.living t = some x → x.frames.length ≤ 1
  ran : ∀ p ∈ s.ran, ∃ o, s.loops[p.1]? = some o ∧ o.maker = p.2

lemma start_living {number t : ℕ} {x : LoopingThread} (h : (start number).living t = some x) :
    t = 0 ∧ x = ⟨number, none, [], true⟩ := by
  obtain ⟨hget, -⟩ := Option.filter_eq_some_iff.mp h
  cases t with
  | zero => exact ⟨rfl, (Option.some.inj hget).symm⟩
  | succ t => cases hget

lemma start_inv (number : ℕ) : (start number).Inv where
  numbers t u x y hx hy _ := (start_living hx).1.trans (start_living hy).1.symm
  fits _ _ _ _ _ ho := absurd ho (by simp [start])
  maker _ _ ho := absurd ho (by simp [start])
  ended _ _ ho := absurd ho (by simp [start])
  known t x hx := by
    rw [(start_living hx).2]
    exact ⟨fun l hl => absurd hl (by simp), fun l hl => absurd hl List.not_mem_nil⟩
  single t x hx := by
    rw [(start_living hx).2]
    exact Nat.zero_le 1
  ran p hp := absurd hp List.not_mem_nil

variable {s v : ThreadedLoops} {t l : ℕ} {x x' : LoopingThread} {o o' : LoopObject}

lemma mem_of_living (h : s.living t = some x) : s.threads[t]? = some x ∧ x.alive = true :=
  Option.filter_eq_some_iff.mp h

/-- The thread `t` goes on, or comes to its end, and the others stay. -/
lemma living_set (hv : v.threads = s.threads.set t x') (hx : s.living t = some x) (u : ℕ) :
    v.living u = if u = t then (some x').filter fun x => x.alive else s.living u := by
  have hlt := (List.getElem?_eq_some_iff.mp (mem_of_living hx).1).1
  unfold living
  rw [hv, List.getElem?_set]
  by_cases hu : u = t
  · rw [if_pos hu, if_pos hu.symm, if_pos hlt]
  · rw [if_neg hu, if_neg (Ne.symm hu)]

lemma living_goes (hv : v.threads = s.threads.set t x') (hx : s.living t = some x)
    (hx' : x'.alive = true) (u : ℕ) : v.living u = if u = t then some x' else s.living u := by
  have halive : (some x').filter (fun x => x.alive) = some x' :=
    Option.filter_eq_some_iff.mpr ⟨rfl, hx'⟩
  rw [living_set hv hx, halive]

/-- A new thread is in the last place. -/
lemma living_append (hv : v.threads = s.threads ++ [x]) (hx : x.alive = true) (u : ℕ) :
    v.living u = if u = s.threads.length then some x else s.living u := by
  unfold living
  rw [hv, List.getElem?_append]
  by_cases hu : u = s.threads.length
  · rw [if_pos hu, if_neg (by omega), hu, Nat.sub_self]
    exact Option.filter_eq_some_iff.mpr ⟨rfl, hx⟩
  · rw [if_neg hu]
    split
    · rfl
    next hge =>
      rw [List.getElem?_eq_none (l := [x]) (by rw [List.length_singleton]; omega),
        List.getElem?_eq_none (by omega)]

lemma Inv.lt_length (h : s.Inv) (hx : s.living t = some x) (hl : l = s.loops.length) :
    x.t_loopInThisThread ≠ some l ∧ l ∉ x.frames := by
  obtain ⟨hpointer, hframes⟩ := h.known t x hx
  refine ⟨fun heq => ?_, fun hmem => ?_⟩
  · have := hpointer l heq
    omega
  · have := hframes l hmem
    omega

/-- **A thread has at most one loop**, by the pointer. -/
lemma Inv.unique (h : s.Inv) {m : ℕ} {p : LoopObject} (ho : s.loops[l]? = some o)
    (hp : s.loops[m]? = some p) (hol : o.destroyed = false) (hpl : p.destroyed = false)
    (hmaker : o.maker = p.maker) : l = m := by
  obtain ⟨x, hx⟩ := h.maker l o ho hol
  have hl := (h.fits _ x l o hx ho).pointer.mpr ⟨hol, rfl⟩
  have hm := (h.fits _ x m p hx hp).pointer.mpr ⟨hpl, hmaker.symm⟩
  exact Option.some.inj (hl.symm.trans hm)

/-- The thread `t` works on its own loop `l`, and all the rest stays as it is. -/
structure Works (s v : ThreadedLoops) (t l : ℕ) (x x' : LoopingThread) (o o' : LoopObject) :
    Prop where
  thread : s.living t = some x
  object : s.loops[l]? = some o
  living : ∀ u, v.living u = if u = t then some x' else s.living u
  loops : v.loops = s.loops.set l o'
  ran : v.ran = s.ran
  tid : x'.tid = x.tid
  maker : o.maker = t
  maker' : o'.maker = t
  number : o'.destroyed = false → ∀ u y, s.living u = some y → (o'.threadId_ = y.tid ↔ t = u)
  ended : o'.destroyed = true → o'.looping_ = false
  pointer : x'.t_loopInThisThread = some l ↔ o'.destroyed = false
  frame : l ∈ x'.frames ↔ o'.looping_ = true
  others : ∀ m ≠ l, (x'.t_loopInThisThread = some m ↔ x.t_loopInThisThread = some m) ∧
    (m ∈ x'.frames ↔ m ∈ x.frames)
  single : x'.frames.length ≤ 1

namespace Works

variable {u m : ℕ} {y : LoopingThread} {p : LoopObject}

/-- A thread is the one that works, or one that was there. -/
lemma thread_cases (w : Works s v t l x x' o o') (hy : v.living u = some y) :
    (u = t ∧ y = x') ∨ (u ≠ t ∧ s.living u = some y) := by
  rw [w.living] at hy
  split at hy
  next hu => exact .inl ⟨hu, (Option.some.inj hy).symm⟩
  next hu => exact .inr ⟨hu, hy⟩

lemma loop_cases (w : Works s v t l x x' o o') (hp : v.loops[m]? = some p) :
    (m = l ∧ p = o') ∨ (m ≠ l ∧ s.loops[m]? = some p) := by
  rw [w.loops, List.getElem?_set] at hp
  split at hp
  next hm =>
    split at hp
    · exact .inl ⟨hm.symm, (Option.some.inj hp).symm⟩
    · cases hp
  next hm => exact .inr ⟨Ne.symm hm, hp⟩

lemma length (w : Works s v t l x x' o o') : v.loops.length = s.loops.length := by
  rw [w.loops, List.length_set]

lemma same_number (w : Works s v t l x x' o o') (hy : v.living u = some y) :
    ∃ z, s.living u = some z ∧ z.tid = y.tid := by
  rcases w.thread_cases hy with ⟨rfl, rfl⟩ | ⟨-, hy⟩
  · exact ⟨x, w.thread, w.tid.symm⟩
  · exact ⟨y, hy, rfl⟩

/-- The thread and its loop. -/
lemma fits_self (w : Works s v t l x x' o o') : Fits t x' l o' where
  pointer := w.pointer.trans ⟨fun hl => ⟨hl, w.maker'⟩, And.left⟩
  frame := w.frame.trans ⟨fun hl => ⟨hl, w.maker'⟩, And.left⟩
  number hl := by
    rw [w.tid, w.maker']
    exact w.number hl t x w.thread

/-- Another thread, and the loop. -/
lemma fits_other (w : Works s v t l x x' o o') (h : s.Inv) (hu : u ≠ t)
    (hy : s.living u = some y) : Fits u y l o' := by
  have hfit := h.fits u y l o hy w.object
  have hne : o.maker ≠ u := fun heq => hu (heq.symm.trans w.maker)
  have hne' : o'.maker ≠ u := fun heq => hu (heq.symm.trans w.maker')
  refine ⟨iff_of_false (fun hl => hne (hfit.pointer.mp hl).2) fun hl => hne' hl.2,
    iff_of_false (fun hl => hne (hfit.frame.mp hl).2) fun hl => hne' hl.2, fun hl => ?_⟩
  rw [w.maker']
  exact w.number hl u y hy

lemma fits (w : Works s v t l x x' o o') (h : s.Inv) (hy : v.living u = some y)
    (hp : v.loops[m]? = some p) : Fits u y m p := by
  rcases w.loop_cases hp with ⟨rfl, rfl⟩ | ⟨hm, hp⟩
  · rcases w.thread_cases hy with ⟨rfl, rfl⟩ | ⟨hu, hy⟩
    · exact w.fits_self
    · exact w.fits_other h hu hy
  · rcases w.thread_cases hy with ⟨rfl, rfl⟩ | ⟨-, hy⟩
    · have hfit := h.fits u x m p w.thread hp
      refine ⟨(w.others m hm).1.trans hfit.pointer, (w.others m hm).2.trans hfit.frame, ?_⟩
      rw [w.tid]
      exact hfit.number
    · exact h.fits u y m p hy hp

lemma known (w : Works s v t l x x' o o') (h : s.Inv) (hy : v.living u = some y) :
    (∀ m, y.t_loopInThisThread = some m → m < s.loops.length) ∧
      ∀ m ∈ y.frames, m < s.loops.length := by
  have hlt := (List.getElem?_eq_some_iff.mp w.object).1
  rcases w.thread_cases hy with ⟨rfl, rfl⟩ | ⟨-, hy⟩
  · obtain ⟨hknown, hframes⟩ := h.known u x w.thread
    refine ⟨fun m hm => ?_, fun m hm => ?_⟩
    · by_cases hml : m = l
      · rwa [hml]
      · exact hknown m ((w.others m hml).1.mp hm)
    · by_cases hml : m = l
      · rwa [hml]
      · exact hframes m ((w.others m hml).2.mp hm)
  · exact h.known u y hy

lemma maker_living (w : Works s v t l x x' o o') (h : s.Inv) (hp : v.loops[m]? = some p)
    (hpl : p.destroyed = false) : ∃ y, v.living p.maker = some y := by
  have hthere : ∃ y, s.living p.maker = some y := by
    rcases w.loop_cases hp with ⟨-, rfl⟩ | ⟨-, hp⟩
    · exact ⟨x, w.maker'.symm ▸ w.thread⟩
    · exact h.maker m p hp hpl
  obtain ⟨y, hy⟩ := hthere
  rw [w.living]
  split
  · exact ⟨x', rfl⟩
  · exact ⟨y, hy⟩

lemma inv (w : Works s v t l x x' o o') (h : s.Inv) : v.Inv where
  numbers u i y z hy hz heq := by
    obtain ⟨y', hy', hey⟩ := w.same_number hy
    obtain ⟨z', hz', hez⟩ := w.same_number hz
    exact h.numbers u i y' z' hy' hz' (hey.trans (heq.trans hez.symm))
  fits _ _ _ _ hy hp := w.fits h hy hp
  maker _ _ hp hpl := w.maker_living h hp hpl
  ended m p hp hpd := by
    rcases w.loop_cases hp with ⟨-, rfl⟩ | ⟨-, hp⟩
    · exact w.ended hpd
    · exact h.ended m p hp hpd
  known _ _ hy := by
    rw [w.length]
    exact w.known h hy
  single u y hy := by
    rcases w.thread_cases hy with ⟨-, rfl⟩ | ⟨-, hy⟩
    · exact w.single
    · exact h.single u y hy
  ran q hq := by
    rw [w.ran] at hq
    obtain ⟨p, hp, hpm⟩ := h.ran q hq
    by_cases hm : q.1 = l
    · rw [hm] at hp ⊢
      have hlt := (List.getElem?_eq_some_iff.mp w.object).1
      cases w.object.symm.trans hp
      exact ⟨o', w.loops ▸ List.getElem?_set_self hlt, w.maker'.trans (w.maker.symm.trans hpm)⟩
    · exact ⟨p, w.loops ▸ (List.getElem?_set_ne (Ne.symm hm)).trans hp, hpm⟩

end Works

/-! ## The steps -/

/-- What stays as it is of each loop, through every step. -/
structure Keeps (s v : ThreadedLoops) : Prop where
  loops : ∀ (l : ℕ) (o : LoopObject), s.loops[l]? = some o → ∃ p, v.loops[l]? = some p ∧
    p.maker = o.maker ∧ p.threadId_ = o.threadId_ ∧ (o.quit_ = true → p.quit_ = true) ∧
    (o.destroyed = true → p.destroyed = true)
  ran : s.ran <+: v.ran

lemma Keeps.of_eq (hloops : v.loops = s.loops) (hran : s.ran <+: v.ran) : s.Keeps v :=
  ⟨fun _ o ho => ⟨o, hloops ▸ ho, rfl, rfl, id, id⟩, hran⟩

lemma Keeps.refl (s : ThreadedLoops) : s.Keeps s := .of_eq rfl List.prefix_rfl

lemma Keeps.of_set (ho : s.loops[l]? = some o) (hloops : v.loops = s.loops.set l o')
    (hran : v.ran = s.ran) (hmaker : o'.maker = o.maker) (hid : o'.threadId_ = o.threadId_)
    (hquit : o.quit_ = true → o'.quit_ = true)
    (hdestroyed : o.destroyed = true → o'.destroyed = true) : s.Keeps v := by
  refine ⟨fun m p hp => ?_, hran ▸ List.prefix_rfl⟩
  rw [hloops]
  by_cases hm : m = l
  · subst hm
    cases ho.symm.trans hp
    exact ⟨o', List.getElem?_set_self (List.getElem?_eq_some_iff.mp ho).1, hmaker, hid, hquit,
      hdestroyed⟩
  · exact ⟨p, (List.getElem?_set_ne (Ne.symm hm)).trans hp, rfl, rfl, id, id⟩

/-- A step that goes through. -/
def Comes (s : ThreadedLoops) (r : Except ThreadedLoopFault ThreadedLoops) : Prop :=
  ∃ v, r = .ok v ∧ v.Inv ∧ s.Keeps v

lemma Inv.comes_self (h : s.Inv) : s.Comes (.ok s) := ⟨s, rfl, h, .refl s⟩

/-- A loop is entered in `ran` under its own thread. -/
lemma Inv.comes_ran (h : s.Inv) (ho : s.loops[l]? = some o) (hmaker : o.maker = t) :
    s.Comes (.ok { s with ran := s.ran ++ [(l, t)] }) := by
  refine ⟨_, rfl, ⟨h.numbers, h.fits, h.maker, h.ended, h.known, h.single, fun q hq => ?_⟩,
    .of_eq rfl (List.prefix_append _ _)⟩
  rcases List.mem_append.mp hq with hq | hq
  · exact h.ran q hq
  · rw [List.mem_singleton.mp hq]
    exact ⟨o, ho, hmaker⟩

lemma Inv.create (h : s.Inv) (number : ℕ) : s.Comes (.ok (s.create number)) := by
  unfold ThreadedLoops.create
  split
  next hfree =>
    have hliving := living_append (v := { s with threads := s.threads ++
      [⟨number, none, [], true⟩] }) rfl rfl
    have hlt (u : ℕ) (y : LoopingThread) (hy : s.living u = some y) : u ≠ s.threads.length := by
      have := (List.getElem?_eq_some_iff.mp (mem_of_living hy).1).1
      omega
    have hmem (u : ℕ) (y : LoopingThread) (hy : s.living u = some y) : y.tid ≠ number :=
      hfree y (List.mem_of_getElem? (mem_of_living hy).1) (mem_of_living hy).2
    refine ⟨_, rfl, ⟨fun u w y z hy hz heq => ?_, fun u y m p hy hp => ?_, fun m p hp hpl => ?_,
      h.ended, fun u y hy => ?_, fun u y hy => ?_, h.ran⟩, .of_eq rfl List.prefix_rfl⟩
    · rw [hliving] at hy hz
      split at hy <;> split at hz
      next hu hw => exact hu.trans hw.symm
      · cases hy
        exact absurd heq.symm (hmem w z hz)
      · cases hz
        exact absurd heq (hmem u y hy)
      · exact h.numbers u w y z hy hz heq
    · rw [hliving] at hy
      split at hy
      next hu =>
        cases hy
        have hne (hpl : p.destroyed = false) : p.maker ≠ u := by
          obtain ⟨z, hz⟩ := h.maker m p hp hpl
          exact fun heq => hlt _ z hz (heq.trans hu)
        refine ⟨iff_of_false (by simp) fun hpl => hne hpl.1 hpl.2, iff_of_false (by simp) ?_,
          fun hpl => iff_of_false ?_ (hne hpl)⟩
        · intro hpl
          refine hne (Bool.eq_false_iff.mpr fun hd => ?_) hpl.2
          exact Bool.false_ne_true ((h.ended m p hp hd).symm.trans hpl.1)
        · obtain ⟨z, hz⟩ := h.maker m p hp hpl
          rw [((h.fits _ z m p hz hp).number hpl).mpr rfl]
          exact hmem _ z hz
      · exact h.fits u y m p hy hp
    · obtain ⟨z, hz⟩ := h.maker m p hp hpl
      rw [hliving, if_neg (hlt _ z hz)]
      exact ⟨z, hz⟩
    · rw [hliving] at hy
      split at hy
      · cases hy
        exact ⟨fun l hl => absurd hl (by simp), fun l hl => absurd hl List.not_mem_nil⟩
      · exact h.known u y hy
    · rw [hliving] at hy
      split at hy
      · cases hy
        exact Nat.zero_le 1
      · exact h.single u y hy
  · exact h.comes_self

/-- A thread that has no loop left comes to its end. -/
lemma Inv.exit (h : s.Inv) (hx : s.living t = some x)
    (hnone : x.frames = [] → ∀ o ∈ s.loops, o.maker = t → o.destroyed = true) :
    s.Comes (.ok (s.exit t x)) := by
  unfold ThreadedLoops.exit
  split
  next hframes =>
    have hliving := living_set
      (v := { s with threads := s.threads.set t { x with alive := false } }) rfl hx
    have hback (u : ℕ) (y : LoopingThread)
        (hy : ({ s with threads := s.threads.set t { x with alive := false } } :
          ThreadedLoops).living u = some y) : s.living u = some y := by
      rw [hliving] at hy
      split at hy
      · cases hy
      · exact hy
    refine ⟨_, rfl, ⟨fun u w y z hy hz => h.numbers u w y z (hback u y hy) (hback w z hz),
      fun u y m p hy => h.fits u y m p (hback u y hy), fun m p hp hpl => ?_, h.ended,
      fun u y hy => h.known u y (hback u y hy), fun u y hy => h.single u y (hback u y hy), h.ran⟩,
      .of_eq rfl List.prefix_rfl⟩
    obtain ⟨z, hz⟩ := h.maker m p hp hpl
    have hne : p.maker ≠ t := fun heq =>
      Bool.false_ne_true (hpl.symm.trans (hnone hframes p (List.mem_of_getElem? hp) heq))
    rw [hliving, if_neg hne]
    exact ⟨z, hz⟩
  · exact h.comes_self

/-- A place for a loop that is not there yet. -/
lemma Inv.append_ended (h : s.Inv) (hdestroyed : o.destroyed = true) (hidle : o.looping_ = false) :
    ({ s with loops := s.loops ++ [o] } : ThreadedLoops).Inv := by
  have hcases (m : ℕ) (p : LoopObject) (hp : (s.loops ++ [o])[m]? = some p) :
      (m = s.loops.length ∧ p = o) ∨ s.loops[m]? = some p := by
    rw [List.getElem?_append] at hp
    split at hp
    · exact .inr hp
    next hge =>
      have hlast := (List.getElem?_eq_some_iff.mp hp).1
      rw [List.length_singleton] at hlast
      have hm : m = s.loops.length := by omega
      rw [hm, Nat.sub_self] at hp
      exact .inl ⟨hm, (Option.some.inj hp).symm⟩
  refine ⟨h.numbers, fun u y m p hy hp => ?_, fun m p hp hpl => ?_, fun m p hp hpd => ?_,
    fun u y hy => ?_, h.single, fun q hq => ?_⟩
  · rcases hcases m p hp with ⟨hm, rfl⟩ | hp
    · obtain ⟨hpointer, hframe⟩ := h.lt_length hy hm
      exact ⟨iff_of_false hpointer fun hl => Bool.false_ne_true (hl.1.symm.trans hdestroyed),
        iff_of_false hframe fun hl => Bool.false_ne_true (hidle.symm.trans hl.1),
        fun hl => absurd (hl.symm.trans hdestroyed) Bool.false_ne_true⟩
    · exact h.fits u y m p hy hp
  · rcases hcases m p hp with ⟨-, rfl⟩ | hp
    · exact absurd (hpl.symm.trans hdestroyed) Bool.false_ne_true
    · exact h.maker m p hp hpl
  · rcases hcases m p hp with ⟨-, rfl⟩ | hp
    · exact hidle
    · exact h.ended m p hp hpd
  · obtain ⟨hpointer, hframe⟩ := h.known u y hy
    rw [List.length_append]
    exact ⟨fun m hm => Nat.lt_add_right _ (hpointer m hm),
      fun m hm => Nat.lt_add_right _ (hframe m hm)⟩
  · obtain ⟨p, hp, hpm⟩ := h.ran q hq
    have hlt := (List.getElem?_eq_some_iff.mp hp).1
    exact ⟨p, (List.getElem?_append_left hlt).trans hp, hpm⟩

/-- A thread that has no loop makes one. -/
lemma Inv.newLoop (h : s.Inv) (hx : s.living t = some x) (hnone : x.t_loopInThisThread = none) :
    s.Comes (s.newLoop t x) := by
  have hnew := h.lt_length hx rfl
  have hinv := h.append_ended (o := ⟨false, false, x.tid, true, t⟩) rfl rfl
  have hworks : Works { s with loops := s.loops ++ [⟨false, false, x.tid, true, t⟩] }
      { s with
        threads := s.threads.set t { x with t_loopInThisThread := some s.loops.length }
        loops := s.loops ++ [⟨false, false, x.tid, false, t⟩] }
      t s.loops.length x { x with t_loopInThisThread := some s.loops.length }
      ⟨false, false, x.tid, true, t⟩ ⟨false, false, x.tid, false, t⟩ := by
    refine ⟨hx, List.getElem?_concat_length, living_goes rfl hx (mem_of_living hx).2, ?_, rfl,
      rfl, rfl, rfl,
      fun _ u y hy => ⟨fun heq => h.numbers t u x y hx hy heq, fun heq => ?_⟩,
      fun hd => absurd hd Bool.false_ne_true, iff_of_true rfl rfl,
      iff_of_false hnew.2 Bool.false_ne_true, fun m hm => ?_, h.single t x hx⟩
    · rw [List.set_append_right _ _ (Nat.le_refl _), Nat.sub_self]
      rfl
    · subst heq
      exact congrArg LoopingThread.tid (Option.some.inj (hx.symm.trans hy))
    · simp [hnone, Ne.symm hm]
  refine ⟨_, if_neg (by simp [hnone]), hworks.inv hinv, ⟨fun m p hp => ?_, List.prefix_rfl⟩⟩
  have hlt := (List.getElem?_eq_some_iff.mp hp).1
  exact ⟨p, (List.getElem?_append_left hlt).trans hp, rfl, rfl, id, id⟩

/-- **`isInLoopThread()` says the truth** about every loop that is there. -/
lemma Inv.isInLoopThread_iff (h : s.Inv) (hx : s.living t = some x) (ho : s.loops[l]? = some o)
    (hl : o.destroyed = false) : isInLoopThread x o = true ↔ o.maker = t := by
  unfold isInLoopThread
  rw [decide_eq_true_iff]
  exact (h.fits t x l o hx ho).number hl

lemma Inv.number (h : s.Inv) (ho : s.loops[l]? = some o) (hl : o.destroyed = false)
    (hmaker : o.maker = t) (u : ℕ) (y : LoopingThread) (hy : s.living u = some y) :
    o.threadId_ = y.tid ↔ t = u :=
  hmaker ▸ (h.fits u y l o hy ho).number hl

/-- What runs in a thread is its loop. -/
lemma Inv.frame_cases (h : s.Inv) (hx : s.living t = some x) {m : ℕ} (hm : m ∈ x.frames) :
    ∃ p, s.loops[m]? = some p ∧ p.destroyed = false ∧ p.looping_ = true ∧ p.maker = t := by
  have hp := List.getElem?_eq_getElem ((h.known t x hx).2 m hm)
  obtain ⟨hlooping, hmaker⟩ := (h.fits t x m _ hx hp).frame.mp hm
  refine ⟨_, hp, Bool.eq_false_iff.mpr fun hd => ?_, hlooping, hmaker⟩
  exact Bool.false_ne_true ((h.ended m _ hp hd).symm.trans hlooping)

lemma Inv.loop (h : s.Inv) (hx : s.living t = some x) (ho : s.loops[l]? = some o)
    (hl : o.destroyed = false) (hidle : o.looping_ = false) (hmaker : o.maker = t) :
    s.Comes (s.loop t l x o) := by
  have hframes : x.frames = [] := by
    refine List.eq_nil_iff_forall_not_mem.mpr fun m hm => ?_
    obtain ⟨p, hp, hpl, hlooping, hpm⟩ := h.frame_cases hx hm
    have heq := h.unique ho hp hl hpl (hmaker.trans hpm.symm)
    subst heq
    cases ho.symm.trans hp
    exact Bool.false_ne_true (hidle.symm.trans hlooping)
  have hnumber := h.number ho hl hmaker
  have hworks : Works s
      { s with
        threads := s.threads.set t { x with frames := l :: x.frames }
        loops := s.loops.set l { o with looping_ := true } }
      t l x { x with frames := l :: x.frames } o { o with looping_ := true } := by
    refine ⟨hx, ho, living_goes rfl hx (mem_of_living hx).2, rfl, rfl, rfl, hmaker, hmaker,
      fun _ => hnumber, fun hd => absurd (hl.symm.trans hd) Bool.false_ne_true,
      (h.fits t x l o hx ho).pointer.trans ⟨And.left, fun hl => ⟨hl, hmaker⟩⟩,
      iff_of_true List.mem_cons_self rfl, fun m hm => ⟨Iff.rfl, ?_⟩, ?_⟩
    · rw [List.mem_cons]
      exact ⟨fun hmem => hmem.resolve_left hm, Or.inr⟩
    · rw [hframes]
      exact Nat.le_refl 1
  have hthread := (h.isInLoopThread_iff hx ho hl).mpr hmaker
  refine ⟨_, ?_, hworks.inv h, .of_set ho rfl rfl rfl rfl id id⟩
  rw [ThreadedLoops.loop, hidle, if_neg Bool.false_ne_true, if_pos hthread]

/-- The test of `quit_` never fails. -/
lemma Inv.test (h : s.Inv) (hx : s.living t = some x) : s.Comes (s.test t x) := by
  unfold ThreadedLoops.test
  cases hframes : x.frames with
  | nil => exact h.comes_self
  | cons l frames =>
    obtain ⟨o, ho, hl, hlooping, hmaker⟩ := h.frame_cases hx (hframes ▸ List.mem_cons_self)
    have hsingle := h.single t x hx
    have hnil : frames = [] := by
      rw [hframes, List.length_cons] at hsingle
      exact List.eq_nil_of_length_eq_zero (by omega)
    dsimp only
    rw [ho]
    dsimp only
    rw [if_neg (Bool.eq_false_iff.mp hl)]
    have hnumber := h.number ho hl hmaker
    split
    · have hworks : Works s
          { s with
            threads := s.threads.set t { x with frames := frames }
            loops := s.loops.set l { o with looping_ := false } }
          t l x { x with frames := frames } o { o with looping_ := false } := by
        refine ⟨hx, ho, living_goes rfl hx (mem_of_living hx).2, rfl, rfl, rfl, hmaker, hmaker,
          fun _ => hnumber, fun _ => rfl,
          (h.fits t x l o hx ho).pointer.trans ⟨And.left, fun hl => ⟨hl, hmaker⟩⟩, ?_,
          fun m hm => ⟨Iff.rfl, ?_⟩, ?_⟩
        · rw [hnil]
          exact iff_of_false List.not_mem_nil Bool.false_ne_true
        · rw [hnil, hframes, hnil, List.mem_singleton]
          exact iff_of_false List.not_mem_nil hm
        · rw [hnil]
          exact Nat.zero_le 1
      exact ⟨_, rfl, hworks.inv h, .of_set ho rfl rfl rfl rfl id id⟩
    · rw [if_pos ((h.isInLoopThread_iff hx ho hl).mpr hmaker)]
      exact h.comes_ran ho hmaker

lemma Inv.destroy (h : s.Inv) (hx : s.living t = some x) (ho : s.loops[l]? = some o)
    (hl : o.destroyed = false) (hidle : o.looping_ = false) (hmaker : o.maker = t) :
    s.Comes (s.destroy t l x o) := by
  have hfit := h.fits t x l o hx ho
  have hpointer := hfit.pointer.mpr ⟨hl, hmaker⟩
  have hworks : Works s
      { s with
        threads := s.threads.set t { x with t_loopInThisThread := none }
        loops := s.loops.set l { o with destroyed := true } }
      t l x { x with t_loopInThisThread := none } o { o with destroyed := true } := by
    refine ⟨hx, ho, living_goes rfl hx (mem_of_living hx).2, rfl, rfl, rfl, hmaker, hmaker,
      fun hd => absurd hd.symm Bool.false_ne_true, fun _ => hidle,
      iff_of_false (by simp) fun hd => Bool.false_ne_true hd.symm,
      hfit.frame.trans ⟨And.left, fun hlooping => ⟨hlooping, hmaker⟩⟩, fun m hm => ⟨?_, Iff.rfl⟩,
      h.single t x hx⟩
    rw [hpointer]
    simp [Ne.symm hm]
  have hthread := (h.isInLoopThread_iff hx ho hl).mpr hmaker
  refine ⟨_, ?_, hworks.inv h, .of_set ho rfl rfl rfl rfl id fun _ => rfl⟩
  rw [ThreadedLoops.destroy, hidle, if_neg Bool.false_ne_true, if_pos hthread]

/-- `quit()` is called in any thread, and only the flag changes. -/
lemma Inv.quit (h : s.Inv) (ho : s.loops[l]? = some o) (hquit : o.quit_ = false) :
    s.Comes (s.quit l o) := by
  have hcases (m : ℕ) (p : LoopObject)
      (hp : (s.loops.set l { o with quit_ := true })[m]? = some p) :
      ∃ q, s.loops[m]? = some q ∧ p.maker = q.maker ∧ p.threadId_ = q.threadId_ ∧
        p.destroyed = q.destroyed ∧ p.looping_ = q.looping_ := by
    rw [List.getElem?_set] at hp
    split at hp
    next hm =>
      split at hp
      · cases hp
        exact ⟨o, hm ▸ ho, rfl, rfl, rfl, rfl⟩
      · cases hp
    · exact ⟨p, hp, rfl, rfl, rfl, rfl⟩
  have hkeeps : s.Keeps { s with loops := s.loops.set l { o with quit_ := true } } :=
    .of_set ho rfl rfl rfl rfl (fun _ => rfl) id
  refine ⟨_, if_neg (by simp [hquit]), ⟨h.numbers, fun u y m p hy hp => ?_, fun m p hp hpl => ?_,
    fun m p hp hpd => ?_, fun u y hy => ?_, h.single, fun q hq => ?_⟩, hkeeps⟩
  · obtain ⟨q, hq, hmaker, hid, hdestroyed, hlooping⟩ := hcases m p hp
    obtain ⟨hpointer, hframe, hnumber⟩ := h.fits u y m q hy hq
    rw [← hmaker, ← hdestroyed] at hpointer
    rw [← hmaker, ← hlooping] at hframe
    rw [← hmaker, ← hdestroyed, ← hid] at hnumber
    exact ⟨hpointer, hframe, hnumber⟩
  · obtain ⟨q, hq, hmaker, -, hdestroyed, -⟩ := hcases m p hp
    rw [hmaker]
    exact h.maker m q hq (hdestroyed ▸ hpl)
  · obtain ⟨q, hq, -, -, hdestroyed, hlooping⟩ := hcases m p hp
    rw [hlooping]
    exact h.ended m q hq (hdestroyed ▸ hpd)
  · rw [List.length_set]
    exact h.known u y hy
  · obtain ⟨p, hp, hpm⟩ := h.ran q hq
    obtain ⟨p', hp', hmaker, -⟩ := hkeeps.loops _ p hp
    exact ⟨p', hp', hmaker.trans hpm⟩

/-! ## Every run -/

/-- A loop that is there is that of the one living thread that made it: `t_loopInThisThread` points
to it in that thread and in no other, `isInLoopThread()` is true in that thread and in no other, and
it is the only loop there is of that thread.  Nothing of it ever ran in another thread. -/
structure OneLoop (s : ThreadedLoops) : Prop where
  thread : ∀ (l : ℕ) (o : LoopObject), s.loops[l]? = some o → o.destroyed = false →
    ∃ x, s.living o.maker = some x ∧ x.t_loopInThisThread = some l ∧ isInLoopThread x o = true
  others : ∀ (l : ℕ) (o : LoopObject), s.loops[l]? = some o → o.destroyed = false →
    ∀ t x, s.living t = some x → t ≠ o.maker →
      x.t_loopInThisThread ≠ some l ∧ isInLoopThread x o = false
  unique : ∀ (l m : ℕ) (o p : LoopObject), s.loops[l]? = some o → s.loops[m]? = some p →
    o.destroyed = false → p.destroyed = false → o.maker = p.maker → l = m
  frames : ∀ t x, s.living t = some x → x.frames.length ≤ 1 ∧
    ∀ l ∈ x.frames, ∃ o, s.loops[l]? = some o ∧ o.destroyed = false ∧ o.maker = t
  ran : ∀ p ∈ s.ran, ∃ o, s.loops[p.1]? = some o ∧ o.maker = p.2

lemma Inv.oneLoop (h : s.Inv) : s.OneLoop where
  thread l o ho hl := by
    obtain ⟨x, hx⟩ := h.maker l o ho hl
    exact ⟨x, hx, (h.fits _ x l o hx ho).pointer.mpr ⟨hl, rfl⟩,
      (h.isInLoopThread_iff hx ho hl).mpr rfl⟩
  others l o ho hl t x hx hne := by
    refine ⟨fun hpointer => hne ((h.fits t x l o hx ho).pointer.mp hpointer).2.symm, ?_⟩
    exact Bool.eq_false_iff.mpr fun hin => hne ((h.isInLoopThread_iff hx ho hl).mp hin).symm
  unique _ _ _ _ := h.unique
  frames t x hx := by
    refine ⟨h.single t x hx, fun l hl => ?_⟩
    obtain ⟨o, ho, hlives, -, hmaker⟩ := h.frame_cases hx hl
    exact ⟨o, ho, hlives, hmaker⟩
  ran := h.ran

/-- The thread `t` has no loop. -/
def NoLoop (s : ThreadedLoops) (t : ℕ) : Prop :=
  ∀ o ∈ s.loops, o.maker = t → o.destroyed = true

instance (s : ThreadedLoops) (t : ℕ) : Decidable (s.NoLoop t) :=
  inferInstanceAs (Decidable (∀ o ∈ s.loops, _))

/-- What holds of the loop that is called, if a living thread calls one that was made. -/
def Called (s : ThreadedLoops) (t l : ℕ) (P : LoopObject → Prop) : Prop :=
  (s.living t).isSome → ∀ o ∈ s.loops[l]?, o.destroyed = false ∧ P o

instance (s : ThreadedLoops) (t l : ℕ) (P : LoopObject → Prop) [DecidablePred P] :
    Decidable (s.Called t l P) := inferInstanceAs (Decidable (_ → _))

/-- A thread makes a loop when it has none and destroys it before it ends; only the thread of a loop
runs it and works on it, it runs it once at a time and destroys it when it does not run; and a loop
is told to quit once. -/
def Proper (s : ThreadedLoops) : ThreadedLoopInput → Prop
  | .create _ => True
  | .exit t => ∀ x ∈ s.living t, x.frames = [] → s.NoLoop t
  | .newLoop t => (s.living t).isSome → s.NoLoop t
  | .loop t l => s.Called t l fun o => o.looping_ = false ∧ o.maker = t
  | .test _ => True
  | .quit t l => s.Called t l fun o => o.quit_ = false
  | .assertInLoopThread t l => s.Called t l fun o => o.maker = t
  | .runInLoop t l => s.Called t l fun _ => True
  | .destroy t l => s.Called t l fun o => o.looping_ = false ∧ o.maker = t

instance (s : ThreadedLoops) (i : ThreadedLoopInput) : Decidable (s.Proper i) := by
  cases i <;> unfold Proper <;> infer_instance

/-- A call that is as it should be goes through. -/
lemma Inv.call (h : s.Inv) {P : LoopObject → Prop}
    {f : LoopingThread → LoopObject → Except ThreadedLoopFault ThreadedLoops}
    (hcalled : s.Called t l P)
    (hf : ∀ x o, s.living t = some x → s.loops[l]? = some o → o.destroyed = false → P o →
      s.Comes (f x o)) : s.Comes (s.call t l f) := by
  unfold ThreadedLoops.call
  cases hx : s.living t with
  | none => exact h.comes_self
  | some x =>
    cases ho : s.loops[l]? with
    | none => exact h.comes_self
    | some o =>
      obtain ⟨hl, hP⟩ := hcalled (hx ▸ rfl) o ho
      dsimp only
      rw [if_neg (Bool.eq_false_iff.mp hl)]
      exact hf x o hx ho hl hP

/-- A call that is not fails. -/
lemma call_fails {P : LoopObject → Prop}
    {f : LoopingThread → LoopObject → Except ThreadedLoopFault ThreadedLoops}
    (hcalled : ¬ s.Called t l P)
    (hf : ∀ x o, s.living t = some x → s.loops[l]? = some o → o.destroyed = false → ¬ P o →
      ∃ e, f x o = .error e) : ∃ e, s.call t l f = .error e := by
  unfold Called at hcalled
  simp only [Classical.not_imp, not_forall] at hcalled
  obtain ⟨hx, o, ho, hP⟩ := hcalled
  obtain ⟨x, hx⟩ := Option.isSome_iff_exists.mp hx
  have hget : s.loops[l]? = some o := ho
  unfold ThreadedLoops.call
  rw [hx, hget]
  dsimp only
  by_cases hl : o.destroyed = true
  · exact ⟨_, if_pos hl⟩
  · rw [if_neg hl]
    have hl := Bool.eq_false_iff.mpr hl
    exact hf x o hx hget hl fun hp => hP ⟨hl, hp⟩

/-- The state is that of threads with one loop each, and no step ends the process. -/
def OneLoopEach : RunSpec ThreadedLoops ThreadedLoopFault where
  good := OneLoop
  move := Keeps
  stop _ := False

lemma Comes.sound {r : Except ThreadedLoopFault ThreadedLoops} (h : s.Comes r) :
    OneLoopEach.Sound Inv s r := by
  obtain ⟨v, rfl, hinv, hkeeps⟩ := h
  exact ⟨hinv, hkeeps⟩

lemma Inv.step (h : s.Inv) {i : ThreadedLoopInput} (hi : s.Proper i) : s.Comes (s.step i) := by
  cases i with
  | create number => exact h.create number
  | exit t =>
    rw [ThreadedLoops.step]
    cases hx : s.living t with
    | none => exact h.comes_self
    | some x => exact h.exit hx (hi x hx)
  | newLoop t =>
    rw [ThreadedLoops.step]
    cases hx : s.living t with
    | none => exact h.comes_self
    | some x =>
      refine h.newLoop hx (Option.eq_none_iff_forall_ne_some.mpr fun l hl => ?_)
      have hlt := (h.known t x hx).1 l hl
      have ho := List.getElem?_eq_getElem hlt
      obtain ⟨hlives, hmaker⟩ := (h.fits t x l _ hx ho).pointer.mp hl
      have hnone := hi (hx ▸ rfl) _ (List.getElem_mem hlt) hmaker
      exact Bool.false_ne_true (hlives.symm.trans hnone)
  | loop t l => exact h.call hi fun x o hx ho hl hP => h.loop hx ho hl hP.1 hP.2
  | test t =>
    rw [ThreadedLoops.step]
    cases hx : s.living t with
    | none => exact h.comes_self
    | some x => exact h.test hx
  | quit t l => exact h.call hi fun x o _ ho _ hP => h.quit ho hP
  | assertInLoopThread t l =>
    refine h.call hi fun x o hx ho hl hP => ?_
    rw [if_pos ((h.isInLoopThread_iff hx ho hl).mpr hP)]
    exact h.comes_self
  | runInLoop t l =>
    refine h.call hi fun x o hx ho hl _ => ?_
    unfold ThreadedLoops.runInLoop
    split
    next hin => exact h.comes_ran ho ((h.isInLoopThread_iff hx ho hl).mp hin)
    · exact h.comes_self
  | destroy t l => exact h.call hi fun x o hx ho hl hP => h.destroy hx ho hl hP.1 hP.2

lemma Inv.call_seen (h : s.Inv) {P : LoopObject → Prop}
    {f : LoopingThread → LoopObject → Except ThreadedLoopFault ThreadedLoops}
    (hcalled : ¬ s.Called t l P)
    (hf : ∀ x o, (isInLoopThread x o = true ↔ o.maker = t) → ¬ P o → ∃ e, f x o = .error e) :
    OneLoopEach.Seen s (s.call t l f) := by
  obtain ⟨e, he⟩ := call_fails hcalled fun x o hx ho hl hP =>
    hf x o (h.isInLoopThread_iff hx ho hl) hP
  rw [he]
  exact not_false

/-- A loop that is left behind has no thread. -/
lemma not_oneLoop_of_exit (hx : s.living t = some x) (hframes : x.frames = [])
    (hloop : ¬ s.NoLoop t) : ¬ (s.exit t x).OneLoop := by
  intro hone
  unfold NoLoop at hloop
  simp only [not_forall] at hloop
  obtain ⟨o, ho, hmaker, hl⟩ := hloop
  obtain ⟨l, hget⟩ := List.mem_iff_getElem?.mp ho
  rw [exit, if_pos hframes] at hone
  obtain ⟨y, hy, -⟩ := hone.thread l o hget (Bool.eq_false_iff.mpr hl)
  rw [living_set rfl hx, if_pos hmaker] at hy
  cases hy

/-- What else is done ends the process, or it leaves a loop without its thread. -/
lemma Inv.step_seen (h : s.Inv) {i : ThreadedLoopInput} (hi : ¬ s.Proper i) :
    OneLoopEach.Seen s (s.step i) := by
  cases i with
  | create number => exact absurd trivial hi
  | exit t =>
    have hexit : ¬ ∀ x ∈ s.living t, x.frames = [] → s.NoLoop t := hi
    simp only [not_forall] at hexit
    obtain ⟨x, hx, hframes, hloop⟩ := hexit
    have hx : s.living t = some x := hx
    rw [ThreadedLoops.step, hx]
    exact fun hseen => not_oneLoop_of_exit hx hframes hloop hseen.2
  | newLoop t =>
    have hnew : ¬ ((s.living t).isSome → s.NoLoop t) := hi
    unfold NoLoop at hnew
    simp only [Classical.not_imp, not_forall] at hnew
    obtain ⟨hx, o, ho, hmaker, hl⟩ := hnew
    obtain ⟨x, hx⟩ := Option.isSome_iff_exists.mp hx
    obtain ⟨l, hget⟩ := List.mem_iff_getElem?.mp ho
    have hpointer := (h.fits t x l o hx hget).pointer.mpr ⟨Bool.eq_false_iff.mpr hl, hmaker⟩
    rw [ThreadedLoops.step, hx, Option.elim_some, ThreadedLoops.newLoop, hpointer]
    exact not_false
  | loop t l =>
    refine h.call_seen hi fun x o hin hP => ?_
    unfold ThreadedLoops.loop
    by_cases hlooping : o.looping_ = true
    · exact ⟨_, if_pos hlooping⟩
    · rw [if_neg hlooping, if_neg fun hthread =>
        hP ⟨Bool.eq_false_iff.mpr hlooping, hin.mp hthread⟩]
      exact ⟨_, rfl⟩
  | test t => exact absurd trivial hi
  | quit t l =>
    refine h.call_seen hi fun x o _ hP => ⟨_, if_pos ?_⟩
    exact eq_true_of_ne_false hP
  | assertInLoopThread t l =>
    refine h.call_seen hi fun x o hin hP => ⟨_, if_neg ?_⟩
    exact fun hthread => hP (hin.mp hthread)
  | runInLoop t l => exact h.call_seen hi fun x o _ hP => absurd trivial hP
  | destroy t l =>
    refine h.call_seen hi fun x o hin hP => ?_
    unfold ThreadedLoops.destroy
    by_cases hlooping : o.looping_ = true
    · exact ⟨_, if_pos hlooping⟩
    · rw [if_neg hlooping, if_neg fun hthread =>
        hP ⟨Bool.eq_false_iff.mpr hlooping, hin.mp hthread⟩]
      exact ⟨_, rfl⟩

/-- **One loop in each thread**, in every run of the calls of any threads, where numbers of threads
that have ended are given again: every loop there is has its one thread, `isInLoopThread()` knows it
from all the others, and what is run in the name of a loop is run there.  This is so exactly as long
as a thread makes a loop when it has none, destroys it before it ends and when it does not run, is
the only one to run it and work on it, and a loop is told to quit once. -/
theorem one_loop_iff (number : ℕ) (is : List ThreadedLoopInput) :
    machine.Meets OneLoopEach (start number) is ↔ machine.Along Proper (start number) is :=
  machine.meets_iff_of_sound (I := Inv) (fun _ h => h.oneLoop)
    (fun _ _ h hi => (h.step hi).sound) (fun _ _ h hi => h.step_seen hi) (start_inv number)

-- A loop is left behind, and a thread that is given the old number takes it for its own.
example : (machine.run (start 7) [.create 8, .newLoop 1, .exit 1, .create 8, .runInLoop 2 0]).map
    ran = .ok [(0, 2)] := by decide

end ThreadedLoops

end Firey
