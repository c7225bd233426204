import Firey.Fault
import Firey.Framework.Machine
import Firey.Framework.Numeral

/-!
# `CurrentThreadff`, and `fork`

`tid()` asks the kernel once in a thread and keeps the answer in a thread-local variable.  A new
thread starts without an answer, but `fork` copies the variables of the thread that calls it, and
the handler `afterFork` that runs in the child asks through the same cache.

A thread is known by its place in `threads`, and the kernel numbers it freely as long as no two
living threads have one number.  `calls` and `decisions` are history, and so is the `owner` of a
loop.  `assertInLoopThread` aborts exactly where `isInLoopThread` says no.
-/

set_option autoImplicit false

namespace Firey

/-- The thread-local variables. -/
structure ThreadLocals where
  cachedTid : ℤ
  threadName : Bytes
  tidString : Bytes
  tidStringLength : ℕ
  deriving DecidableEq, Repr

namespace ThreadLocals

/-- A thread begins with these. -/
def initial : ThreadLocals where
  cachedTid := 0
  threadName := octets "unkown".toList
  tidString := []
  tidStringLength := 6

/-- `cacheTid()`, in a thread that the kernel calls `gettid`. -/
def cacheTid (l : ThreadLocals) (gettid : ℕ) : ThreadLocals :=
  if l.cachedTid = 0 then
    let text := (decimalText gettid).leftpad 5 32 ++ [32]
    { l with cachedTid := gettid, tidString := snprintf 32 text, tidStringLength := text.length }
  else l

/-- The variables after a call of `tid()`. -/
def afterTid (l : ThreadLocals) (gettid : ℕ) : ThreadLocals :=
  if l.cachedTid = 0 then l.cacheTid gettid else l

/-- `tid()`. -/
def tid (l : ThreadLocals) (gettid : ℕ) : ℤ := (l.afterTid gettid).cachedTid

/-- `t_threadName="main"`, as the first statement of `afterFork` and of the constructor of
`ThreadNameInitializer`. -/
def nameMain (l : ThreadLocals) : ThreadLocals := { l with threadName := octets "main".toList }

end ThreadLocals

structure SystemThread where
  gettid : ℕ
  locals : ThreadLocals
  alive : Bool
  deriving DecidableEq, Repr

/-- A call of `tid()`, and by whom. -/
structure TidCall where
  gettid : ℕ
  returned : ℤ
  deriving DecidableEq, Repr

/-- `threadId_` of an `EventLoopff`, and the number of the thread that made the loop. -/
structure LoopOwner where
  threadId : ℤ
  owner : ℕ
  deriving DecidableEq, Repr

/-- What `isInLoopThread()` said, and what it should have said. -/
structure LoopDecision where
  answer : Bool
  right : Bool
  deriving DecidableEq, Repr

structure ThreadSystem where
  threads : List SystemThread
  loops : List LoopOwner
  calls : List TidCall
  decisions : List LoopDecision
  deriving DecidableEq, Repr

/-- `t` is the thread that makes the call, and `number` what the kernel calls the new one. -/
inductive ThreadEvent
  | create (t number : ℕ)
  | fork (t number : ℕ)
  | exit (t : ℕ)
  | tid (t : ℕ)
  /-- `EventLoopff::EventLoopff`. -/
  | newLoop (t : ℕ)
  | isInLoopThread (t loop : ℕ)
  deriving DecidableEq, Repr

namespace ThreadSystem

/-- The constructor of `ThreadNameInitializer` has run in the main thread. -/
def start (number : ℕ) : ThreadSystem where
  threads := [⟨number, ThreadLocals.initial.nameMain.afterTid number, true⟩]
  loops := []
  calls := [⟨number, ThreadLocals.initial.nameMain.tid number⟩]
  decisions := []

/-- The thread, if it is there and has not come to its end. -/
def living (s : ThreadSystem) (t : ℕ) : Option SystemThread :=
  s.threads[t]?.filter fun x => x.alive

/-- The kernel can give this number. -/
def Free (s : ThreadSystem) (number : ℕ) : Prop :=
  0 < number ∧ ∀ x ∈ s.threads, x.alive = true → x.gettid ≠ number

instance (s : ThreadSystem) (number : ℕ) : Decidable (s.Free number) :=
  inferInstanceAs (Decidable (_ ∧ _))

/-- The thread `x`, in the place `t`, calls `tid()`. -/
def callTid (s : ThreadSystem) (t : ℕ) (x : SystemThread) : ThreadSystem :=
  { s with
    threads := s.threads.set t { x with locals := x.locals.afterTid x.gettid }
    calls := s.calls ++ [⟨x.gettid, x.locals.tid x.gettid⟩] }

/-- `fork()`, and `afterFork()` in the child. -/
def fork (s : ThreadSystem) (x : SystemThread) (number : ℕ) : ThreadSystem :=
  { s with
    threads := s.threads ++ [⟨number, x.locals.nameMain.afterTid number, true⟩]
    calls := s.calls ++ [⟨number, x.locals.nameMain.tid number⟩] }

/-- `EventLoopff::EventLoopff`: `threadId_(CurrentThreadff::tid())`. -/
def newLoop (s : ThreadSystem) (t : ℕ) (x : SystemThread) : ThreadSystem :=
  { s.callTid t x with loops := s.loops ++ [⟨x.locals.tid x.gettid, x.gettid⟩] }

/-- `isInLoopThread()`. -/
def isInLoopThread (s : ThreadSystem) (t : ℕ) (x : SystemThread) (loop : LoopOwner) :
    ThreadSystem :=
  { s.callTid t x with
    decisions := s.decisions ++
      [⟨loop.threadId = x.locals.tid x.gettid, loop.owner = x.gettid⟩] }

def step (s : ThreadSystem) : ThreadEvent → Except Fault ThreadSystem
  | .create t number =>
      if (s.living t).isSome ∧ s.Free number then
        .ok { s with threads := s.threads ++ [⟨number, .initial, true⟩] }
      else .ok s
  | .fork t number =>
      match s.living t with
      | some x => if s.Free number then .ok (s.fork x number) else .ok s
      | none => .ok s
  | .exit t =>
      match s.living t with
      | some x => .ok { s with threads := s.threads.set t { x with alive := false } }
      | none => .ok s
  | .tid t =>
      match s.living t with
      | some x => .ok (s.callTid t x)
      | none => .ok s
  | .newLoop t =>
      match s.living t with
      | some x => .ok (s.newLoop t x)
      | none => .ok s
  | .isInLoopThread t loop =>
      match s.living t, s.loops[loop]? with
      | some x, some l => .ok (s.isInLoopThread t x l)
      | _, _ => .ok s

def machine : Machine ThreadSystem ThreadEvent Fault := ⟨step⟩

/-! ## Coherence of the cache -/

/-- What a thread has cached is its own number. -/
structure Coherent (s : ThreadSystem) : Prop where
  cached : ∀ x ∈ s.threads, x.locals.cachedTid = 0 ∨ x.locals.cachedTid = x.gettid
  loops : ∀ l ∈ s.loops, l.threadId = l.owner
  calls : ∀ c ∈ s.calls, c.returned = c.gettid
  decisions : ∀ d ∈ s.decisions, d.answer = d.right

/-- Each call of `tid()` returns the number of the thread that makes it, and `isInLoopThread()`
decides by who made the loop. -/
def Right : RunSpec ThreadSystem Fault where
  good s := (∀ c ∈ s.calls, c.returned = c.gettid) ∧ ∀ d ∈ s.decisions, d.answer = d.right
  move _ _ := True
  stop _ := False

/-- A thread that forks has not called `tid()` yet. -/
def ForksUncached (s : ThreadSystem) : ThreadEvent → Prop
  | .fork t number => ∀ x ∈ s.living t, s.Free number → x.locals.cachedTid = 0
  | _ => True

instance (s : ThreadSystem) : (i : ThreadEvent) → Decidable (s.ForksUncached i)
  | .fork t _ => inferInstanceAs (Decidable (∀ x ∈ s.living t, _))
  | .create _ _ | .exit _ | .tid _ | .newLoop _ | .isInLoopThread _ _ => .isTrue trivial

variable {s : ThreadSystem} {t number : ℕ} {x : SystemThread}

lemma mem_of_living (h : s.living t = some x) : x ∈ s.threads ∧ x.alive = true := by
  obtain ⟨hget, halive⟩ := Option.filter_eq_some_iff.mp h
  exact ⟨List.mem_of_getElem? hget, halive⟩

/-- An empty cache is filled with the number of the thread. -/
lemma tid_of_uncached {l : ThreadLocals} (h : l.cachedTid = 0) (gettid : ℕ) :
    l.tid gettid = gettid := by
  rw [ThreadLocals.tid, ThreadLocals.afterTid, if_pos h, ThreadLocals.cacheTid, if_pos h]

lemma tid_of_cached {l : ThreadLocals} (h : l.cachedTid ≠ 0) (gettid : ℕ) :
    l.tid gettid = l.cachedTid := by
  rw [ThreadLocals.tid, ThreadLocals.afterTid, if_neg h]

namespace Coherent

lemma tid (h : s.Coherent) (hx : x ∈ s.threads) : x.locals.tid x.gettid = x.gettid := by
  by_cases hzero : x.locals.cachedTid = 0
  · exact tid_of_uncached hzero _
  · rw [tid_of_cached hzero]
    exact (h.cached x hx).resolve_left hzero

/-- A thread that is added has its own number in its cache, or none. -/
lemma append (h : s.Coherent) (hx : x.locals.cachedTid = 0 ∨ x.locals.cachedTid = x.gettid) :
    ({ s with threads := s.threads ++ [x] } : ThreadSystem).Coherent := by
  refine ⟨fun y hy => ?_, h.loops, h.calls, h.decisions⟩
  rcases List.mem_append.mp hy with hy | hy
  · exact h.cached y hy
  · rw [List.mem_singleton.mp hy]
    exact hx

lemma set (h : s.Coherent) (hx : x.locals.cachedTid = 0 ∨ x.locals.cachedTid = x.gettid) :
    ({ s with threads := s.threads.set t x } : ThreadSystem).Coherent := by
  refine ⟨fun y hy => ?_, h.loops, h.calls, h.decisions⟩
  rcases List.mem_or_eq_of_mem_set hy with hy | rfl
  · exact h.cached y hy
  · exact hx

/-- A call that returns the right number is recorded. -/
lemma record (h : s.Coherent) {c : TidCall} (hc : c.returned = c.gettid) :
    ({ s with calls := s.calls ++ [c] } : ThreadSystem).Coherent := by
  refine ⟨h.cached, h.loops, fun c' hc' => ?_, h.decisions⟩
  rcases List.mem_append.mp hc' with hc' | hc'
  · exact h.calls c' hc'
  · rw [List.mem_singleton.mp hc']
    exact hc

lemma callTid (h : s.Coherent) (hx : x ∈ s.threads) : (s.callTid t x).Coherent :=
  (h.set (t := t) (x := { x with locals := x.locals.afterTid x.gettid })
    (Or.inr (h.tid hx))).record (h.tid hx)

lemma newLoop (h : s.Coherent) (hx : x ∈ s.threads) : (s.newLoop t x).Coherent := by
  have hcall := h.callTid (t := t) hx
  refine ⟨hcall.cached, fun l hl => ?_, hcall.calls, hcall.decisions⟩
  rcases List.mem_append.mp hl with hl | hl
  · exact h.loops l hl
  · rw [List.mem_singleton.mp hl]
    exact h.tid hx

lemma isInLoopThread (h : s.Coherent) (hx : x ∈ s.threads) {l : LoopOwner} (hl : l ∈ s.loops) :
    (s.isInLoopThread t x l).Coherent := by
  have hcall := h.callTid (t := t) hx
  refine ⟨hcall.cached, hcall.loops, hcall.calls, fun d hd => ?_⟩
  rcases List.mem_append.mp hd with hd | hd
  · exact h.decisions d hd
  · rw [List.mem_singleton.mp hd]
    dsimp only
    rw [h.loops l hl, h.tid hx, decide_eq_decide]
    exact Nat.cast_inj

/-- **`fork`** from a thread with an empty cache. -/
lemma fork (h : s.Coherent) (hx : x.locals.cachedTid = 0) : (s.fork x number).Coherent := by
  have hcache : x.locals.nameMain.tid number = number :=
    tid_of_uncached (l := x.locals.nameMain) hx number
  exact (h.append (x := ⟨number, x.locals.nameMain.afterTid number, true⟩)
    (Or.inr hcache)).record hcache

end Coherent

/-- **Every step** but a `fork` with a filled cache keeps the caches coherent. -/
lemma step_coherent (h : s.Coherent) {i : ThreadEvent} (hi : s.ForksUncached i) :
    ∃ u, s.step i = .ok u ∧ u.Coherent := by
  cases i with
  | create t number =>
    unfold step
    dsimp only
    split
    · exact ⟨_, rfl, h.append (Or.inl rfl)⟩
    · exact ⟨s, rfl, h⟩
  | fork t number =>
    unfold step
    dsimp only
    split
    next x hx =>
      split
      next hfree => exact ⟨_, rfl, h.fork (hi x hx hfree)⟩
      next => exact ⟨s, rfl, h⟩
    next => exact ⟨s, rfl, h⟩
  | exit t =>
    unfold step
    dsimp only
    split
    next x hx => exact ⟨_, rfl, h.set (h.cached x (mem_of_living hx).1)⟩
    next => exact ⟨s, rfl, h⟩
  | tid t =>
    unfold step
    dsimp only
    split
    next x hx => exact ⟨_, rfl, h.callTid (mem_of_living hx).1⟩
    next => exact ⟨s, rfl, h⟩
  | newLoop t =>
    unfold step
    dsimp only
    split
    next x hx => exact ⟨_, rfl, h.newLoop (mem_of_living hx).1⟩
    next => exact ⟨s, rfl, h⟩
  | isInLoopThread t loop =>
    unfold step
    dsimp only
    split
    next x l hx hl =>
      exact ⟨_, rfl, h.isInLoopThread (mem_of_living hx).1 (List.mem_of_getElem? hl)⟩
    next => exact ⟨s, rfl, h⟩

/-- **A `fork` with a filled cache** is noticed at once: the handler's own call returns the number
of the parent, which lives, and so has another one than the child. -/
lemma fork_seen (h : s.Coherent) {i : ThreadEvent} (hi : ¬ s.ForksUncached i) :
    Right.Seen s (s.step i) := by
  cases i with
  | fork t number =>
    rw [ForksUncached] at hi
    push Not at hi
    obtain ⟨x, hx, hfree, hcached⟩ := hi
    obtain ⟨hmem, halive⟩ := mem_of_living hx
    have hstep : s.step (.fork t number) = .ok (s.fork x number) := by
      unfold step
      dsimp only
      rw [hx]
      exact if_pos hfree
    rw [hstep]
    rintro ⟨-, hcalls, -⟩
    have hcall := hcalls _ (List.mem_append_right _ (List.mem_singleton_self _))
    rw [tid_of_cached (l := x.locals.nameMain) hcached] at hcall
    have hown := (h.cached x hmem).resolve_left hcached
    exact hfree.2 x hmem halive (Int.natCast_inj.mp (hown.symm.trans hcall))
  | create _ _ | exit _ | tid _ | newLoop _ | isInLoopThread _ _ => exact absurd trivial hi

lemma start_coherent (number : ℕ) : (start number).Coherent where
  cached x hx := by
    rw [List.mem_singleton.mp hx]
    exact Or.inr rfl
  loops _ h := nomatch h
  calls c hc := by
    rw [List.mem_singleton.mp hc]
    rfl
  decisions _ h := nomatch h

/-- **`tid()` is right** in every process and thread, exactly when no thread forks that has called
it: then the child takes the parent's number for its own. -/
theorem tid_right_iff (number : ℕ) (is : List ThreadEvent) :
    machine.Meets Right (start number) is ↔ machine.Along ForksUncached (start number) is := by
  refine machine.meets_iff_of_sound (I := Coherent) ?_ ?_ ?_ (start_coherent number)
  · exact fun s h => ⟨h.calls, h.decisions⟩
  · intro s i h hi
    change Right.Sound _ s (s.step i)
    obtain ⟨u, hu, hcoherent⟩ := step_coherent h hi
    rw [hu]
    exact ⟨hcoherent, trivial⟩
  · exact fun s i h hi => fork_seen h hi

/-- The main thread makes a loop and forks.  In the child `tid()` returns the number of the parent,
and `isInLoopThread()` says yes. -/
theorem tid_wrong_after_fork :
    (∃ s, machine.run (start 100) [.newLoop 0, .fork 0 101, .tid 1, .isInLoopThread 1 0] = .ok s ∧
      ⟨101, 100⟩ ∈ s.calls ∧ ⟨true, false⟩ ∈ s.decisions) ∧
      ¬ machine.Meets Right (start 100) [.newLoop 0, .fork 0 101, .tid 1, .isInLoopThread 1 0] := by
  have hrun : ∃ s, machine.run (start 100)
      [.newLoop 0, .fork 0 101, .tid 1, .isInLoopThread 1 0] = .ok s ∧
        ⟨101, 100⟩ ∈ s.calls ∧ ⟨true, false⟩ ∈ s.decisions := by decide
  refine ⟨hrun, fun hmeets => ?_⟩
  obtain ⟨s, hs, -, hdecision⟩ := hrun
  exact absurd ((hmeets.good_of_run machine hs).2 _ hdecision) nofun

end ThreadSystem

end Firey
