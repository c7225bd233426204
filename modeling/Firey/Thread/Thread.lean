import Firey.Framework.Numeral
import Firey.Thread.CountDownLatch

/-!
# `Threadff`: `start`, `join` and the destructor

`start` makes a thread and waits at a latch until the thread has written its number into `tid_`.
The thread works on a `ThreadData` of its own, but this points back into the `Threadff`, to `tid_`
and to the latch, and the destructor waits for nobody: it only detaches.

So the object must stay until `start` has returned, and then it may go at any time.  `start` calls
`func_` once, in a thread of the object's name; `join` comes back when the thread is over, unless it
is the thread itself that calls it.

The names that are made up are taken from a counter of 32 bits, for all objects of the process.
`started_=true` and the call of `pthread_create` are one step.
-/

set_option autoImplicit false

namespace Firey

/-- The ways for the process to end. -/
inductive ThreadFault
  /-- `start`: `!started_`. -/
  | start
  /-- `start`: `pthread_create` has failed, which is `LOG_SYSFATAL`. -/
  | create
  /-- `start`: `tid_>0`. -/
  | tid
  /-- `join`: `started_`. -/
  | joinStarted
  /-- `join`: `!joined_`. -/
  | joinTwice
  /-- `func_` throws, and `runInThread` aborts or throws on. -/
  | exception
  | latch (e : LatchFault)
  deriving DecidableEq, Repr

/-- Where the new thread stands in `runInThread`. -/
inductive RunPhase
  /-- There is no thread yet. -/
  | none
  | created
  /-- `*tid_` is written. -/
  | numbered
  /-- After `latch_->countDown()`. -/
  | released
  /-- In `func_`. -/
  | inFunc
  | finished
  /-- `startThread` has returned. -/
  | ended
  deriving DecidableEq, Repr

namespace RunPhase

def hasTid : RunPhase → Bool
  | .none | .created => false
  | _ => true

/-- The thread has done with the `Threadff`. -/
def hasReleased : RunPhase → Bool
  | .none | .created | .numbered => false
  | _ => true

def hasCalled : RunPhase → Bool
  | .inFunc | .finished | .ended => true
  | _ => false

end RunPhase

/-- What `pthread_join` has answered, and whether the thread was over. -/
structure JoinReturn where
  result : ℕ
  ended : Bool
  deriving DecidableEq, Repr

/-- `Threadff`, with its thread.  `starting` and `joining` are whether somebody is in `start` or in
`pthread_join`.  `given`, `calls`, `joins` and `dangling` are history: the name the constructor was
given, the calls of `func_`, the returns of `join`, and whether something of the object was used
when it was gone. -/
structure Thread where
  name_ : Bytes
  started_ : Bool
  joined_ : Bool
  tid_ : ℤ
  latch_ : CountDownLatch Unit
  starting : Bool
  joining : Bool
  thread : RunPhase
  t_threadName : Bytes
  detached : Bool
  destroyed : Bool
  given : Bytes
  calls : ℕ
  joins : List JoinReturn
  dangling : Bool
  deriving DecidableEq, Repr

inductive ThreadStep
  /-- `start`, up to `latch_.wait()`; `created` is whether `pthread_create` makes the thread. -/
  | start (created : Bool)
  /-- `start` goes on, as far as the latch lets it. -/
  | startGoes
  /-- A wakeup for no reason. -/
  | wake
  /-- The thread writes its number, which is positive. -/
  | writeTid (gettid : ℕ)
  | countDown
  | callFunc
  | funcEnds (threw : Bool)
  | exit
  /-- `join`, which the thread itself calls or another. -/
  | join (self : Bool)
  | joinReturns
  | destroy
  deriving DecidableEq, Repr

namespace Thread

def EDEADLK : ℕ := 35

/-- `setDefaultName()`, for the thread that is made as number `num`. -/
def setDefaultName (name : Bytes) (num : BitVec 32) : Bytes :=
  if name = [] then snprintf 32 (octets "Thread".toList ++ decimalText num.toInt) else name

/-- The constructor. -/
def ctor (name : Bytes) (num : BitVec 32) : Thread where
  name_ := setDefaultName name num
  started_ := false
  joined_ := false
  tid_ := 0
  latch_ := .ctor 1
  starting := false
  joining := false
  thread := .none
  t_threadName := octets "unkown".toList
  detached := false
  destroyed := false
  given := name
  calls := 0
  joins := []
  dangling := false

/-- Something of the object is used. -/
def use (s : Thread) : Thread := { s with dangling := s.dangling || s.destroyed }

def start (s : Thread) (created : Bool) : Except ThreadFault Thread :=
  if s.destroyed then .ok s.use
  else if s.started_ = false then
    if created then .ok { s with started_ := true, starting := true, thread := .created }
    else .error .create
  else .error .start

/-- `latch_.wait()` begins or goes on, and the assertion follows when it returns. -/
def startGoes (s : Thread) : Except ThreadFault Thread :=
  if s.starting then
    let latch := (s.latch_.wait ()).resume ()
    if latch.returned = [] then .ok { s.use with latch_ := latch }
    else if 0 < s.tid_ then .ok { s.use with latch_ := latch, starting := false }
    else .error .tid
  else .ok s

def countDown (s : Thread) : Except ThreadFault Thread :=
  if s.thread = .numbered then
    match s.latch_.countDown with
    | .ok latch => .ok { s.use with latch_ := latch, thread := .released }
    | .error e => .error (.latch e)
  else .ok s

def callFunc (s : Thread) : Thread :=
  if s.thread = .released then
    { s with
      t_threadName := if s.name_ = [] then octets "fireyThread".toList else s.name_
      thread := .inFunc
      calls := s.calls + 1 }
  else s

def funcEnds (s : Thread) (threw : Bool) : Except ThreadFault Thread :=
  if s.thread = .inFunc then
    if threw then .error .exception
    else .ok { s with t_threadName := octets "finish".toList, thread := .finished }
  else .ok s

/-- `join()`, up to the call of `pthread_join`; a thread cannot wait for itself. -/
def join (s : Thread) (self : Bool) : Except ThreadFault Thread :=
  if self = true ∧ s.thread ≠ .inFunc then .ok s
  else if s.destroyed then .ok s.use
  else if s.started_ then
    if s.joined_ = false then
      if self then .ok { s with joined_ := true, joins := s.joins ++ [⟨EDEADLK, false⟩] }
      else .ok { s with joined_ := true, joining := true }
    else .error .joinTwice
  else .error .joinStarted

/-- `~Threadff`. -/
def destroy (s : Thread) : Thread :=
  if s.destroyed then s.use
  else { s with destroyed := true, detached := s.started_ && !s.joined_ }

def step (s : Thread) : ThreadStep → Except ThreadFault Thread
  | .start created => s.start created
  | .startGoes => s.startGoes
  | .wake => .ok { s with latch_ := s.latch_.wake () }
  | .writeTid gettid =>
      .ok (if s.thread = .created ∧ 0 < gettid then
        { s.use with tid_ := gettid, thread := .numbered } else s)
  | .countDown => s.countDown
  | .callFunc => .ok s.callFunc
  | .funcEnds threw => s.funcEnds threw
  | .exit => .ok (if s.thread = .finished then { s with thread := .ended } else s)
  | .join self => s.join self
  | .joinReturns =>
      .ok (if s.joining = true ∧ s.thread = .ended then
        { s with joining := false, joins := s.joins ++ [⟨0, true⟩] } else s)
  | .destroy => .ok s.destroy

/-! ## The invariant -/

/-- Where the object and its thread are, each phase of the one as the other needs it. -/
structure Inv (s : Thread) : Prop where
  latch : s.latch_.Inv
  count : s.latch_.count_ = if s.thread.hasReleased then 0 else 1
  started : s.started_ = true ↔ s.thread ≠ .none
  starting : s.starting = true → s.started_ = true
  returned : s.started_ = true → s.starting = false → s.thread.hasReleased = true
  tid : if s.thread.hasTid then 0 < s.tid_ else s.tid_ = 0
  gone : s.destroyed = true → s.starting = false ∧ s.detached = (s.started_ && !s.joined_)
  calls : s.calls = if s.thread.hasCalled then 1 else 0
  name : s.thread = .inFunc → s.t_threadName = s.name_
  nonempty : s.name_ ≠ []
  joining : s.joining = true → s.joined_ = true ∧ s.joins = []
  joins : s.joins = [] ∨ s.joins = [⟨0, true⟩] ∧ s.thread = .ended
  unjoined : s.joined_ = false → s.joins = []
  safe : s.dangling = false

/-- `setDefaultName` has room for the number. -/
lemma setDefaultName_eq (num : BitVec 32) :
    setDefaultName [] num = octets "Thread".toList ++ decimalText num.toInt := by
  have hlow := BitVec.le_toInt num
  have hhigh := BitVec.toInt_lt (x := num)
  have hlen := length_decimalText_le (v := num.toInt) (k := 10) (by decide) (by omega)
  have hprefix : (octets "Thread".toList).length = 6 := by decide
  rw [setDefaultName, if_pos rfl]
  refine snprintf_of_lt ?_
  rw [List.length_append]
  split at hlen <;> omega

lemma setDefaultName_ne_nil (name : Bytes) (num : BitVec 32) : setDefaultName name num ≠ [] := by
  by_cases hname : name = []
  · rw [hname, setDefaultName_eq]
    exact List.append_ne_nil_of_left_ne_nil (by decide) _
  · rw [setDefaultName, if_neg hname]
    exact hname

lemma ctor_inv (name : Bytes) (num : BitVec 32) : (ctor name num).Inv where
  latch := CountDownLatch.ctor_inv 1
  count := rfl
  started := iff_of_false Bool.false_ne_true fun h => h rfl
  starting h := h
  returned h _ := h
  tid := rfl
  gone h := absurd h Bool.false_ne_true
  calls := rfl
  name h := RunPhase.noConfusion h
  nonempty := setDefaultName_ne_nil name num
  joining h := absurd h Bool.false_ne_true
  joins := Or.inl rfl
  unjoined _ := rfl
  safe := rfl

/-- An object that is used well: nothing touches it when it is gone.  `start` returns when the
thread has its number and has left the object alone for good, and it does not stay asleep then;
`func_` is called once, in a thread of this name; `join` returns once, when the thread is over; and
a thread that was started is joined or detached when the object goes, and never both. -/
structure Orderly (s : Thread) : Prop where
  safe : s.dangling = false
  gone : s.destroyed = true → s.starting = false ∧ s.detached = (s.started_ && !s.joined_)
  returned : s.started_ = true → s.starting = false → 0 < s.tid_ ∧ s.thread.hasReleased = true
  awake : s.thread.hasReleased = true → s.latch_.condition_.blocked = []
  calls : s.calls = if s.thread.hasCalled then 1 else 0
  unstarted : s.started_ = false → s.thread = .none
  name : s.thread = .inFunc → s.t_threadName = s.name_
  joins : s.joins = [] ∨ s.joins = [⟨0, true⟩] ∧ s.thread = .ended

/-- What a step leaves as it is. -/
structure Keeps (s t : Thread) : Prop where
  name : t.name_ = s.name_
  given : t.given = s.given
  tid : 0 < s.tid_ → t.tid_ = s.tid_
  calls : s.calls ≤ t.calls

lemma Keeps.refl (s : Thread) : s.Keeps s := ⟨rfl, rfl, fun _ => rfl, Nat.le_refl _⟩

variable {s : Thread}

lemma hasTid_of_hasReleased {p : RunPhase} (h : p.hasReleased = true) : p.hasTid = true := by
  cases p <;> first | rfl | cases h

lemma Inv.orderly (h : s.Inv) : s.Orderly where
  safe := h.safe
  gone := h.gone
  returned hstarted hstarting := by
    have hreleased := h.returned hstarted hstarting
    have htid := h.tid
    rw [if_pos (hasTid_of_hasReleased hreleased)] at htid
    exact ⟨htid, hreleased⟩
  awake hreleased := by
    have hcount := h.count
    rw [if_pos hreleased] at hcount
    by_contra hblocked
    have hpos := h.latch.blocked hblocked
    omega
  calls := h.calls
  unstarted hstarted := by
    by_contra hthread
    rw [h.started.mpr hthread] at hstarted
    cases hstarted
  name := h.name
  joins := h.joins

/-- What the assertions and the life of the object ask for. -/
def Proper (s : Thread) : ThreadStep → Prop
  | .start created => s.destroyed = false ∧ s.started_ = false ∧ created = true
  | .funcEnds threw => s.thread = .inFunc → threw = false
  | .join self => if self then s.thread ≠ .inFunc
      else s.destroyed = false ∧ s.started_ = true ∧ s.joined_ = false
  | .destroy => s.destroyed = false ∧ s.starting = false
  | _ => True

instance (s : Thread) (i : ThreadStep) : Decidable (s.Proper i) := by
  cases i <;> unfold Proper <;> infer_instance

/-! ## One lemma a step -/

/-- What a step from `s` may come to. -/
def Comes (s : Thread) (x : Except ThreadFault Thread) : Prop :=
  ∃ t, x = .ok t ∧ t.Inv ∧ s.Keeps t

lemma Inv.stays (h : s.Inv) : s.Comes (.ok s) := ⟨s, rfl, h, .refl s⟩

/-- The object is there. -/
lemma use_eq (hthere : s.destroyed = false) : s.use = s := by
  have hdangling : (s.dangling || s.destroyed) = s.dangling := by rw [hthere, Bool.or_false]
  rw [use, hdangling]

/-- **Somebody is in `start`**, so the object is there. -/
lemma Inv.there_of_starting (h : s.Inv) (hstarting : s.starting = true) : s.destroyed = false := by
  by_contra hdestroyed
  have hgone := (h.gone (Bool.not_eq_false _ ▸ hdestroyed)).1
  rw [hstarting] at hgone
  cases hgone

/-- **The thread has not done with the object**, so `start` has not returned. -/
lemma Inv.there (h : s.Inv) (hthread : s.thread ≠ .none) (hnot : s.thread.hasReleased = false) :
    s.destroyed = false := by
  refine h.there_of_starting ?_
  by_contra hstarting
  have hreleased := h.returned (h.started.mpr hthread) (Bool.eq_false_iff.mpr hstarting)
  rw [hnot] at hreleased
  cases hreleased

lemma Inv.start (h : s.Inv) {created : Bool} (hi : s.Proper (.start created)) :
    s.Comes (s.start created) := by
  obtain ⟨hdestroyed, hstarted, rfl⟩ := hi
  have hthread := h.orderly.unstarted hstarted
  have hcount := h.count
  have htid := h.tid
  have hcalls := h.calls
  rw [hthread] at hcount htid hcalls
  have hstep : s.start true =
      .ok { s with started_ := true, starting := true, thread := .created } := by
    rw [Thread.start, hdestroyed, if_neg Bool.false_ne_true, if_pos hstarted, if_pos rfl]
  refine ⟨_, hstep, ?_, ⟨rfl, rfl, fun _ => rfl, Nat.le_refl _⟩⟩
  exact {
    h with
    count := hcount
    started := iff_of_true rfl fun hf => RunPhase.noConfusion hf
    starting := fun _ => rfl
    returned := fun _ hf => Bool.noConfusion hf
    tid := htid
    gone := fun hg => absurd (hdestroyed.symm.trans hg) (by decide)
    calls := hcalls
    name := fun hf => RunPhase.noConfusion hf
    joins := h.joins.imp_right fun hj => absurd (hthread.symm.trans hj.2) (by decide) }

lemma Inv.startGoes (h : s.Inv) : s.Comes s.startGoes := by
  unfold Thread.startGoes
  split
  next hstarting =>
    have hdestroyed := h.there_of_starting hstarting
    have hlatch := (h.latch.wait ()).resume ()
    have hcount : ((s.latch_.wait ()).resume ()).count_ = s.latch_.count_ := by simp
    rw [use_eq hdestroyed]
    dsimp only
    split
    · exact ⟨_, rfl, { h with latch := hlatch, count := hcount.trans h.count },
        ⟨rfl, rfl, fun _ => rfl, Nat.le_refl _⟩⟩
    next hreturned =>
      -- The count has come to zero, and only the thread brings it there.
      have hzero := hlatch.returned hreturned
      have hreleased : s.thread.hasReleased = true := by
        by_contra hnot
        have hone := h.count
        rw [if_neg hnot] at hone
        omega
      have htid := h.tid
      rw [if_pos (hasTid_of_hasReleased hreleased)] at htid
      rw [if_pos htid]
      refine ⟨_, rfl, ?_, ⟨rfl, rfl, fun _ => rfl, Nat.le_refl _⟩⟩
      exact {
        h with
        latch := hlatch
        count := hcount.trans h.count
        starting := fun hf => Bool.noConfusion hf
        returned := fun _ _ => hreleased
        gone := fun hg => absurd (hdestroyed.symm.trans hg) (by decide) }
  · exact h.stays

lemma Inv.wake (h : s.Inv) : s.Comes (s.step .wake) :=
  ⟨_, rfl, { h with latch := h.latch.wake () }, ⟨rfl, rfl, fun _ => rfl, Nat.le_refl _⟩⟩

/-- **The thread goes from one phase to the next**, and the other parts of the state with it. -/
lemma Inv.advance (h : s.Inv) {p : RunPhase} (q : RunPhase) (hp : s.thread = p)
    (hnext : p ≠ .none ∧ p ≠ .ended ∧ q ≠ .none ∧ (p.hasReleased = true → q.hasReleased = true))
    {latch : CountDownLatch Unit} (hlatch : latch.Inv)
    (hcount : latch.count_ = if q.hasReleased then 0 else 1) {tid : ℤ}
    (htid : if q.hasTid then 0 < tid else tid = 0) {name : Bytes}
    (hname : q = .inFunc → name = s.name_) {calls : ℕ}
    (hcalls : calls = if q.hasCalled then 1 else 0) :
    ({ s with latch_ := latch, tid_ := tid, t_threadName := name, calls := calls, thread := q } :
      Thread).Inv := by
  obtain ⟨hnone, hended, hnone', hreleased⟩ := hnext
  exact {
    h with
    latch := hlatch
    count := hcount
    started := iff_of_true (h.started.mpr (hp ▸ hnone)) hnone'
    returned := fun hs hf => hreleased (hp ▸ h.returned hs hf)
    tid := htid
    calls := hcalls
    name := hname
    joins := h.joins.imp_right fun hj => absurd (hp.symm.trans hj.2) hended }

lemma Inv.writeTid (h : s.Inv) (gettid : ℕ) : s.Comes (s.step (.writeTid gettid)) := by
  rw [step]
  split
  next hcreated =>
    obtain ⟨hthread, hpos⟩ := hcreated
    have hdestroyed := h.there (by rw [hthread]; decide) (by rw [hthread]; rfl)
    have hcount := h.count
    have htid := h.tid
    have hcalls := h.calls
    rw [hthread] at hcount htid hcalls
    have hnone : s.tid_ = 0 := htid
    rw [use_eq hdestroyed]
    refine ⟨_, rfl, h.advance .numbered hthread (by decide) h.latch hcount ?_ ?_ hcalls,
      ⟨rfl, rfl, fun hold => ?_, Nat.le_refl _⟩⟩
    · exact Int.natCast_pos.mpr hpos
    · exact fun hf => RunPhase.noConfusion hf
    · omega
  · exact h.stays

lemma Inv.countDown (h : s.Inv) : s.Comes s.countDown := by
  unfold Thread.countDown
  split
  next hthread =>
    have hdestroyed := h.there (by rw [hthread]; decide) (by rw [hthread]; rfl)
    have hcount := h.count
    have htid := h.tid
    have hcalls := h.calls
    rw [hthread] at hcount htid hcalls
    have hone : s.latch_.count_ = 1 := hcount
    obtain ⟨latch, hlatch, hinv, hdown, -⟩ := h.latch.countDown (by rw [hone]; decide)
    rw [hlatch]
    dsimp only
    rw [use_eq hdestroyed]
    refine ⟨_, rfl, h.advance .released hthread (by decide) hinv ?_ htid ?_ hcalls,
      ⟨rfl, rfl, fun _ => rfl, Nat.le_refl _⟩⟩
    · rw [hdown, hone]
      rfl
    · exact fun hf => RunPhase.noConfusion hf
  · exact h.stays

lemma Inv.callFunc (h : s.Inv) : s.Comes (.ok s.callFunc) := by
  unfold Thread.callFunc
  split
  next hthread =>
    have hcount := h.count
    have htid := h.tid
    have hcalls := h.calls
    rw [hthread] at hcount htid hcalls
    have hzero : s.calls = 0 := hcalls
    rw [if_neg h.nonempty]
    refine ⟨_, rfl, h.advance .inFunc hthread (by decide) h.latch hcount htid (fun _ => rfl) ?_,
      ⟨rfl, rfl, fun _ => rfl, Nat.le_succ _⟩⟩
    rw [hzero]
    rfl
  · exact h.stays

lemma Inv.funcEnds (h : s.Inv) {threw : Bool} (hi : s.Proper (.funcEnds threw)) :
    s.Comes (s.funcEnds threw) := by
  unfold Thread.funcEnds
  split
  next hthread =>
    have hcount := h.count
    have htid := h.tid
    have hcalls := h.calls
    rw [hthread] at hcount htid hcalls
    rw [hi hthread, if_neg Bool.false_ne_true]
    refine ⟨_, rfl, h.advance .finished hthread (by decide) h.latch hcount htid ?_ hcalls,
      ⟨rfl, rfl, fun _ => rfl, Nat.le_refl _⟩⟩
    exact fun hf => RunPhase.noConfusion hf
  · exact h.stays

lemma Inv.exit (h : s.Inv) : s.Comes (s.step .exit) := by
  rw [step]
  split
  next hthread =>
    have hcount := h.count
    have htid := h.tid
    have hcalls := h.calls
    rw [hthread] at hcount htid hcalls
    refine ⟨_, rfl, h.advance .ended hthread (by decide) h.latch hcount htid ?_ hcalls,
      ⟨rfl, rfl, fun _ => rfl, Nat.le_refl _⟩⟩
    exact fun hf => RunPhase.noConfusion hf
  · exact h.stays

lemma Inv.join (h : s.Inv) {self : Bool} (hi : s.Proper (.join self)) :
    s.Comes (s.join self) := by
  cases self with
  | true =>
    have hthread : s.thread ≠ .inFunc := hi
    rw [Thread.join, if_pos ⟨rfl, hthread⟩]
    exact h.stays
  | false =>
    obtain ⟨hdestroyed, hstarted, hjoined⟩ : s.destroyed = false ∧ _ := hi
    have hjoins := h.unjoined hjoined
    have hstep : s.join false = .ok { s with joined_ := true, joining := true } := by
      rw [Thread.join, if_neg (fun hf => Bool.false_ne_true hf.1), hdestroyed,
        if_neg Bool.false_ne_true, if_pos hstarted, if_pos hjoined, if_neg Bool.false_ne_true]
    refine ⟨_, hstep, ?_, ⟨rfl, rfl, fun _ => rfl, Nat.le_refl _⟩⟩
    exact {
      h with
      gone := fun hg => absurd (hdestroyed.symm.trans hg) (by decide)
      joining := fun _ => ⟨rfl, hjoins⟩
      unjoined := fun hf => Bool.noConfusion hf }

lemma Inv.joinReturns (h : s.Inv) : s.Comes (s.step .joinReturns) := by
  rw [step]
  split
  next hover =>
    obtain ⟨hjoining, hended⟩ := hover
    obtain ⟨hjoined, hjoins⟩ := h.joining hjoining
    refine ⟨_, rfl, ?_, ⟨rfl, rfl, fun _ => rfl, Nat.le_refl _⟩⟩
    exact {
      h with
      joining := fun hf => Bool.noConfusion hf
      joins := Or.inr ⟨by rw [hjoins]; rfl, hended⟩
      unjoined := fun hf => absurd (hjoined.symm.trans hf) (by decide) }
  · exact h.stays

lemma Inv.destroy (h : s.Inv) (hi : s.Proper .destroy) : s.Comes (.ok s.destroy) := by
  obtain ⟨hdestroyed, hstarting⟩ := hi
  rw [Thread.destroy, hdestroyed, if_neg Bool.false_ne_true]
  refine ⟨_, rfl, ?_, ⟨rfl, rfl, fun _ => rfl, Nat.le_refl _⟩⟩
  exact { h with gone := fun _ => ⟨hstarting, rfl⟩ }

lemma step_comes (h : s.Inv) {i : ThreadStep} (hi : s.Proper i) : s.Comes (s.step i) := by
  cases i with
  | start created => exact h.start hi
  | startGoes => exact h.startGoes
  | wake => exact h.wake
  | writeTid gettid => exact h.writeTid gettid
  | countDown => exact h.countDown
  | callFunc => exact h.callFunc
  | funcEnds threw => exact h.funcEnds hi
  | exit => exact h.exit
  | join self => exact h.join hi
  | joinReturns => exact h.joinReturns
  | destroy => exact h.destroy hi

/-- Using an object that is gone is seen. -/
lemma not_orderly_of_use (hdestroyed : s.destroyed = true) : ¬ s.use.Orderly := by
  intro h
  have hsafe : (s.dangling || s.destroyed) = false := h.safe
  rw [hdestroyed, Bool.or_true] at hsafe
  cases hsafe

/-- **A step that is not proper** ends the process or is seen. -/
lemma step_seen (h : s.Inv) {i : ThreadStep} (hi : ¬ s.Proper i) :
    (∃ e, s.step i = .error e) ∨ ∃ t, s.step i = .ok t ∧ ¬ t.Orderly := by
  cases i with
  | start created =>
    rw [step, start]
    by_cases hdestroyed : s.destroyed = true
    · rw [if_pos hdestroyed]
      exact Or.inr ⟨_, rfl, not_orderly_of_use hdestroyed⟩
    · rw [if_neg hdestroyed]
      refine Or.inl ?_
      by_cases hstarted : s.started_ = false
      · rw [if_pos hstarted]
        have hcreated : ¬ created = true := fun hc =>
          hi ⟨Bool.eq_false_iff.mpr hdestroyed, hstarted, hc⟩
        exact ⟨_, if_neg hcreated⟩
      · exact ⟨_, if_neg hstarted⟩
  | funcEnds threw =>
    obtain ⟨hthread, hthrew⟩ := Classical.not_imp.mp hi
    rw [step, funcEnds, if_pos hthread]
    exact Or.inl ⟨_, if_pos (Bool.not_eq_false _ ▸ hthrew)⟩
  | join self =>
    rw [step, join]
    cases self with
    | true =>
      have hthread : s.thread = .inFunc := not_not.mp hi
      have hstarted := h.started.mpr (by rw [hthread]; decide)
      rw [if_neg (fun hf => hf.2 hthread), if_pos hstarted, if_pos rfl]
      by_cases hdestroyed : s.destroyed = true
      · rw [if_pos hdestroyed]
        exact Or.inr ⟨_, rfl, not_orderly_of_use hdestroyed⟩
      · rw [if_neg hdestroyed]
        split
        · refine Or.inr ⟨_, rfl, fun horderly => ?_⟩
          rcases horderly.joins with hj | hj
          · exact List.append_ne_nil_of_right_ne_nil _ (List.cons_ne_nil _ _) hj
          · exact absurd (hthread.symm.trans hj.2) (by decide)
        · exact Or.inl ⟨_, rfl⟩
    | false =>
      rw [if_neg (fun hf => Bool.false_ne_true hf.1)]
      by_cases hdestroyed : s.destroyed = true
      · rw [if_pos hdestroyed]
        exact Or.inr ⟨_, rfl, not_orderly_of_use hdestroyed⟩
      · rw [if_neg hdestroyed]
        refine Or.inl ?_
        by_cases hstarted : s.started_ = true
        · rw [if_pos hstarted]
          have hjoined : ¬ s.joined_ = false := fun hj =>
            hi ⟨Bool.eq_false_iff.mpr hdestroyed, hstarted, hj⟩
          exact ⟨_, if_neg hjoined⟩
        · exact ⟨_, if_neg hstarted⟩
  | destroy =>
    rw [step, destroy]
    refine Or.inr ⟨_, rfl, ?_⟩
    by_cases hdestroyed : s.destroyed = true
    · rw [if_pos hdestroyed]
      exact not_orderly_of_use hdestroyed
    · rw [if_neg hdestroyed]
      intro horderly
      exact hi ⟨Bool.eq_false_iff.mpr hdestroyed, (horderly.gone rfl).1⟩
  | startGoes => exact absurd trivial hi
  | wake => exact absurd trivial hi
  | writeTid gettid => exact absurd trivial hi
  | countDown => exact absurd trivial hi
  | callFunc => exact absurd trivial hi
  | exit => exact absurd trivial hi
  | joinReturns => exact absurd trivial hi

end Thread

/-! ## The threads of a process -/

/-- The objects in the order they were made. -/
structure Threads where
  objects : List Thread
  threadCreated_ : BitVec 32
  deriving DecidableEq, Repr

inductive ThreadsInput
  | construct (name : Bytes)
  /-- A step of the object made as number `n`, or of its thread. -/
  | object (n : ℕ) (i : ThreadStep)
  deriving DecidableEq, Repr

namespace Threads

/-- Before the first is made. -/
def start : Threads := ⟨[], 0⟩

def construct (s : Threads) (name : Bytes) : Threads :=
  let num := s.threadCreated_ + 1
  ⟨s.objects ++ [.ctor name num], num⟩

def step (s : Threads) : ThreadsInput → Except ThreadFault Threads
  | .construct name => .ok (s.construct name)
  | .object n i =>
      match s.objects[n]? with
      | some o =>
          match o.step i with
          | .ok o' => .ok { s with objects := s.objects.set n o' }
          | .error e => .error e
      | none => .ok s

def machine : Machine Threads ThreadsInput ThreadFault := ⟨step⟩

def Proper (s : Threads) : ThreadsInput → Prop
  | .construct _ => True
  | .object n i => ∀ o ∈ s.objects[n]?, o.Proper i

instance (s : Threads) (i : ThreadsInput) : Decidable (s.Proper i) := by
  cases i <;> unfold Proper <;> infer_instance

/-- Every object is used well; and of the names that were made up two are the same only if `2^32`
objects, or a multiple, were made from the one to the other. -/
structure Orderly (s : Threads) : Prop where
  objects : ∀ o ∈ s.objects, o.Orderly
  given : ∀ o ∈ s.objects, o.given ≠ [] → o.name_ = o.given
  names : ∀ n m o p, s.objects[n]? = some o → s.objects[m]? = some p → o.given = [] →
    p.given = [] → (o.name_ = p.name_ ↔ n % 2 ^ 32 = m % 2 ^ 32)

structure Inv (s : Threads) : Prop where
  objects : ∀ o ∈ s.objects, o.Inv
  created : s.threadCreated_ = BitVec.ofNat 32 s.objects.length
  names : ∀ n o, s.objects[n]? = some o →
    o.name_ = Thread.setDefaultName o.given (BitVec.ofNat 32 (n + 1))

lemma start_inv : start.Inv where
  objects := fun _ h => absurd h List.not_mem_nil
  created := rfl
  names := fun _ _ h => absurd h (by simp [start])

/-- **The names that are made up** go round with the counter. -/
lemma setDefaultName_eq_iff (n m : ℕ) :
    Thread.setDefaultName [] (BitVec.ofNat 32 (n + 1)) =
      Thread.setDefaultName [] (BitVec.ofNat 32 (m + 1)) ↔ n % 2 ^ 32 = m % 2 ^ 32 := by
  rw [Thread.setDefaultName_eq, Thread.setDefaultName_eq]
  constructor
  · intro h
    have hnum := BitVec.toInt_inj.mp (decimalText_inj (List.append_cancel_left h))
    have hnat := congrArg BitVec.toNat hnum
    rw [BitVec.toNat_ofNat, BitVec.toNat_ofNat] at hnat
    omega
  · intro h
    have hnum : BitVec.ofNat 32 (n + 1) = BitVec.ofNat 32 (m + 1) := by
      apply BitVec.eq_of_toNat_eq
      rw [BitVec.toNat_ofNat, BitVec.toNat_ofNat]
      omega
    rw [hnum]

variable {s : Threads}

lemma Inv.orderly (h : s.Inv) : s.Orderly where
  objects o ho := (h.objects o ho).orderly
  given o ho hgiven := by
    obtain ⟨n, hn⟩ := List.mem_iff_getElem?.mp ho
    rw [h.names n o hn, Thread.setDefaultName, if_neg hgiven]
  names n m o p ho hp hgo hgp := by
    rw [h.names n o ho, h.names m p hp, hgo, hgp]
    exact setDefaultName_eq_iff n m

lemma Inv.construct (h : s.Inv) (name : Bytes) : (s.construct name).Inv := by
  have hnum : s.threadCreated_ + 1 = BitVec.ofNat 32 (s.objects.length + 1) := by
    rw [h.created, BitVec.ofNat_add]
    rfl
  refine ⟨fun o ho => ?_, ?_, fun n o ho => ?_⟩
  · rcases List.mem_append.mp ho with ho | ho
    · exact h.objects o ho
    · rw [List.mem_singleton.mp ho]
      exact Thread.ctor_inv name _
  · unfold Threads.construct
    rw [List.length_append, List.length_singleton]
    exact hnum
  · unfold Threads.construct at ho
    dsimp only at ho
    rw [List.getElem?_append] at ho
    split at ho
    · exact h.names n o ho
    next hlast =>
      have hzero : n - s.objects.length = 0 := by
        have hlt := (List.getElem?_eq_some_iff.mp ho).1
        rw [List.length_singleton] at hlt
        omega
      rw [hzero] at ho
      cases ho
      have hn : n = s.objects.length := by omega
      rw [hn, ← hnum]
      rfl

/-- An object goes on, and the others stay. -/
lemma Inv.set (h : s.Inv) {n : ℕ} {o p : Thread} (ho : s.objects[n]? = some o) (hp : p.Inv)
    (hkeeps : o.Keeps p) : ({ s with objects := s.objects.set n p } : Threads).Inv := by
  refine ⟨fun q hq => ?_, ?_, fun m q hq => ?_⟩
  · rcases List.mem_or_eq_of_mem_set hq with hq | rfl
    · exact h.objects q hq
    · exact hp
  · rw [List.length_set]
    exact h.created
  · dsimp only at hq
    rw [List.getElem?_set] at hq
    split at hq
    next heq =>
      split at hq
      · cases hq
        rw [hkeeps.name, hkeeps.given, ← heq]
        exact h.names n o ho
      · cases hq
    · exact h.names m q hq

/-- What a step leaves as it is, in each object. -/
def Keeps (s t : Threads) : Prop :=
  ∀ (n : ℕ) (o : Thread), s.objects[n]? = some o → ∃ p, t.objects[n]? = some p ∧ o.Keeps p

lemma keeps_set {n : ℕ} {o p : Thread} (ho : s.objects[n]? = some o) (hkeeps : o.Keeps p) :
    s.Keeps { s with objects := s.objects.set n p } := by
  intro m q hq
  dsimp only
  rw [List.getElem?_set]
  split
  next heq =>
    rw [← heq] at hq
    rw [if_pos (List.getElem?_eq_some_iff.mp ho).1]
    exact ⟨p, rfl, Option.some.inj (ho.symm.trans hq) ▸ hkeeps⟩
  · exact ⟨q, hq, .refl q⟩

/-- Every state is orderly, a number once given stays, and no step ends the process. -/
def Orderliness : RunSpec Threads ThreadFault where
  good := Orderly
  move := Keeps
  stop _ := False

/-- **The threads of a process**, in every run of the calls and of the steps of the threads, with
wakeups for no reason: every object is used well.  This is so exactly as long as each one is started
once and with success, its function does not throw, it is joined at most once, when it was started
and not by the thread itself, and it is destroyed once, after `start` has returned, and not used
after that. -/
theorem threads_orderly_iff (is : List ThreadsInput) :
    machine.Meets Orderliness start is ↔ machine.Along Proper start is := by
  refine machine.meets_iff_of_sound (I := Inv) (fun _ h => h.orderly) ?_ ?_ start_inv
  · intro s i h hi
    change Orderliness.Sound _ s (s.step i)
    cases i with
    | construct name =>
      refine ⟨h.construct name, fun n o ho => ⟨o, ?_, .refl o⟩⟩
      have hlt := (List.getElem?_eq_some_iff.mp ho).1
      exact (List.getElem?_append_left hlt).trans ho
    | object n i =>
      rw [step]
      cases ho : s.objects[n]? with
      | none => exact ⟨h, fun n o ho => ⟨o, ho, .refl o⟩⟩
      | some o =>
        obtain ⟨p, hp, hinv, hkeeps⟩ :=
          Thread.step_comes (h.objects o (List.mem_of_getElem? ho)) (hi o ho)
        dsimp only
        rw [hp]
        exact ⟨h.set ho hinv hkeeps, keeps_set ho hkeeps⟩
  · intro s i h hi
    change Orderliness.Seen s (s.step i)
    cases i with
    | construct name => exact absurd trivial hi
    | object n i =>
      have hobject : ¬ ∀ o ∈ s.objects[n]?, o.Proper i := hi
      simp only [not_forall] at hobject
      obtain ⟨o, ho, hi⟩ := hobject
      have hget : s.objects[n]? = some o := ho
      rw [step, hget]
      dsimp only
      have hinv := h.objects o (List.mem_of_getElem? hget)
      rcases Thread.step_seen hinv hi with ⟨e, he⟩ | ⟨p, hp, hbad⟩
      · rw [he]
        exact not_false
      · rw [hp]
        refine fun hseen => hbad (hseen.2.objects p ?_)
        exact List.mem_set (List.getElem?_eq_some_iff.mp hget).1 p

end Threads

end Firey
