import Firey.Fault
import Firey.Framework.Condition
import Firey.Framework.Machine
import Mathlib.Algebra.Ring.Int.Defs

/-!
# `CountDownLatchff`

`countDown` notifies only when it brings the count to zero exactly, and `wait` tests for a count
above zero.  Whoever waits has therefore found a count above zero, and the count passes zero on its
way down: one notification is enough, and it reaches everybody.

The count is an `int`, and nothing keeps it from going on below zero.
-/

set_option autoImplicit false

namespace Firey

/-- `--count_` goes below the smallest `int`. -/
inductive LatchFault
  | overflow
  deriving DecidableEq, Repr

/-- `initial`, `downs` and `returned` are history: what the latch was made with, the calls of
`countDown`, and the threads that have come back from `wait`. -/
structure CountDownLatch (θ : Type) where
  count_ : ℤ
  condition_ : Condition θ
  initial : ℤ
  downs : ℕ
  returned : List θ
  deriving DecidableEq, Repr

/-- Each of these is done under the mutex, but for the wakeup. -/
inductive LatchInput (θ : Type)
  /-- `wait`, up to `condition_.wait()` or the end. -/
  | wait (t : θ)
  /-- `condition_.wait()` returns in the thread `t`, and the count is tested again. -/
  | resume (t : θ)
  /-- A wakeup for no reason. -/
  | wake (t : θ)
  | countDown
  deriving DecidableEq, Repr

namespace CountDownLatch

variable {θ : Type}

/-- The constructor. -/
def ctor (count : ℤ) : CountDownLatch θ where
  count_ := count
  condition_ := .empty
  initial := count
  downs := 0
  returned := []

/-- The test of `wait`, with what follows. -/
def test (s : CountDownLatch θ) (t : θ) : CountDownLatch θ :=
  if 0 < s.count_ then { s with condition_ := s.condition_.wait t }
  else { s with returned := s.returned ++ [t] }

/-- `countDown()`. -/
def countDown (s : CountDownLatch θ) : Except LatchFault (CountDownLatch θ) :=
  if -2 ^ 31 < s.count_ then
    let count := s.count_ - 1
    .ok { s with
      count_ := count
      condition_ := if count = 0 then s.condition_.notifyAll else s.condition_
      downs := s.downs + 1 }
  else .error .overflow

section Step

variable [DecidableEq θ]

/-- `wait()`, which a thread calls when it is not waiting. -/
def wait (s : CountDownLatch θ) (t : θ) : CountDownLatch θ :=
  if t ∈ s.condition_.waiters then s else s.test t

def resume (s : CountDownLatch θ) (t : θ) : CountDownLatch θ :=
  if s.condition_.Awake t then { s with condition_ := s.condition_.leave t }.test t else s

def wake (s : CountDownLatch θ) (t : θ) : CountDownLatch θ :=
  { s with condition_ := s.condition_.wake t }

def step (s : CountDownLatch θ) : LatchInput θ → Except LatchFault (CountDownLatch θ)
  | .wait t => .ok (s.wait t)
  | .resume t => .ok (s.resume t)
  | .wake t => .ok (s.wake t)
  | .countDown => s.countDown

def machine : Machine (CountDownLatch θ) (LatchInput θ) LatchFault := ⟨step⟩

end Step

section Frame

variable {s : CountDownLatch θ} {t : θ}

lemma count_test : (s.test t).count_ = s.count_ := by
  unfold test
  split <;> rfl

variable [DecidableEq θ]

@[simp] lemma count_wait : (s.wait t).count_ = s.count_ := by
  unfold wait
  split
  · rfl
  · exact count_test

@[simp] lemma count_resume : (s.resume t).count_ = s.count_ := by
  unfold resume
  split
  · exact count_test
  · rfl

end Frame

/-! ## The invariant -/

/-- `blocked` is that no wakeup is lost. -/
structure Inv (s : CountDownLatch θ) : Prop where
  count : s.count_ = s.initial - s.downs
  returned : s.returned ≠ [] → s.count_ ≤ 0
  blocked : s.condition_.blocked ≠ [] → 0 < s.count_
  waiters : s.condition_.waiters.Nodup

lemma ctor_inv (count : ℤ) : (ctor count : CountDownLatch θ).Inv where
  count := (Int.sub_zero count).symm
  returned h := absurd rfl h
  blocked h := absurd rfl h
  waiters := List.nodup_nil

variable {s : CountDownLatch θ} {t : θ}

lemma Inv.test (h : s.Inv) (ht : t ∉ s.condition_.waiters) : (s.test t).Inv := by
  unfold CountDownLatch.test
  split
  next hpos =>
    refine ⟨h.count, h.returned, fun _ => hpos, ?_⟩
    exact Condition.wait_waiters.nodup_iff.mpr (List.nodup_cons.mpr ⟨ht, h.waiters⟩)
  next hpos => exact ⟨h.count, fun _ => Int.not_lt.mp hpos, h.blocked, h.waiters⟩

/-- **The count passes zero**, and then nobody stays blocked. -/
lemma Inv.countDown (h : s.Inv) (hint : -2 ^ 31 < s.count_) :
    ∃ u, s.countDown = .ok u ∧ u.Inv ∧ u.count_ = s.count_ - 1 ∧ u.returned = s.returned := by
  refine ⟨_, if_pos hint, ⟨?_, fun hr => ?_, fun hb => ?_, ?_⟩, rfl, rfl⟩
  · have hcount := h.count
    dsimp only
    push_cast
    omega
  · have hle := h.returned hr
    dsimp only
    omega
  · dsimp only at hb ⊢
    by_cases hzero : s.count_ - 1 = 0
    · rw [if_pos hzero] at hb
      exact absurd rfl hb
    · rw [if_neg hzero] at hb
      have hpos := h.blocked hb
      omega
  · dsimp only
    split
    · exact (Condition.notifyAll_waiters s.condition_).nodup_iff.mpr h.waiters
    · exact h.waiters

variable [DecidableEq θ]

lemma Inv.wait (h : s.Inv) (t : θ) : (s.wait t).Inv := by
  unfold CountDownLatch.wait
  split
  · exact h
  next ht => exact h.test ht

lemma Inv.resume (h : s.Inv) (t : θ) : (s.resume t).Inv := by
  unfold CountDownLatch.resume
  split
  next hawake =>
    have hleft := (Condition.leave_waiters hawake).nodup_iff.mp h.waiters
    rw [List.nodup_cons] at hleft
    refine Inv.test (s := { s with condition_ := s.condition_.leave t }) ?_ hleft.1
    refine ⟨h.count, h.returned, fun hb => h.blocked ?_, hleft.2⟩
    rwa [Condition.blocked_leave] at hb
  · exact h

lemma Inv.wake (h : s.Inv) (t : θ) : (s.wake t).Inv := by
  refine ⟨h.count, h.returned, fun hb => h.blocked fun hnil => hb ?_, ?_⟩
  · have hsub : (s.condition_.wake t).blocked ⊆ s.condition_.blocked :=
      Condition.blocked_wake_subset
    rw [hnil] at hsub
    exact List.subset_nil.mp hsub
  · exact (s.condition_.wake_waiters t).nodup_iff.mpr h.waiters

/-! ## Every run -/

/-- A latch that has let a thread pass has been counted down as often as it was made for, and from
then on it lets everybody pass: nobody is blocked, a call of `wait` returns, and so does whoever
takes the mutex again. -/
structure Holds (s : CountDownLatch θ) : Prop where
  count : s.count_ = s.initial - s.downs
  passed : s.returned ≠ [] → s.initial ≤ s.downs
  passable : s.initial ≤ s.downs → s.condition_.blocked = [] ∧
    (∀ t, t ∉ s.condition_.waiters → t ∈ (s.wait t).returned) ∧
    ∀ t ∈ s.condition_.waiters, t ∈ (s.resume t).returned

lemma Inv.holds (h : s.Inv) : s.Holds := by
  have hcount := h.count
  refine ⟨hcount, fun hr => ?_, fun hle => ?_⟩
  · have := h.returned hr
    omega
  · have hzero : ¬ 0 < s.count_ := by omega
    have hblocked : s.condition_.blocked = [] := by
      by_contra hb
      exact hzero (h.blocked hb)
    have hlast (l : List θ) (t : θ) : t ∈ l ++ [t] := List.mem_append_right _ List.mem_cons_self
    refine ⟨hblocked, fun t ht => ?_, fun t ht => ?_⟩
    · rw [CountDownLatch.wait, if_neg ht, CountDownLatch.test, if_neg hzero]
      exact hlast _ t
    · have hawake : s.condition_.Awake t := by
        unfold Condition.waiters at ht
        rw [hblocked, List.nil_append] at ht
        exact List.mem_append.mp ht
      rw [CountDownLatch.resume, if_pos hawake, CountDownLatch.test]
      exact (if_neg hzero).symm ▸ hlast _ t

/-- The latch is not counted down past the smallest `int`. -/
def Counts (s : CountDownLatch θ) : LatchInput θ → Prop
  | .countDown => -2 ^ 31 < s.count_
  | _ => True

instance (s : CountDownLatch θ) (i : LatchInput θ) : Decidable (s.Counts i) :=
  match i with
  | .countDown => inferInstanceAs (Decidable (_ < _))
  | .wait _ => .isTrue trivial
  | .resume _ => .isTrue trivial
  | .wake _ => .isTrue trivial

/-- Every state is that of a latch that holds, and there is no overflow. -/
def Holding : RunSpec (CountDownLatch θ) LatchFault where
  good := Holds
  move _ _ := True
  stop _ := False

/-- **The latch**, in every run of the calls of any threads with wakeups for no reason: nobody comes
back from `wait` before the count has been brought down, and nobody stays blocked afterwards.  This
is so exactly as long as the `int` does not overflow. -/
theorem latch_holds_iff (count : ℤ) (is : List (LatchInput θ)) :
    machine.Meets Holding (ctor count) is ↔ machine.Along Counts (ctor count) is := by
  refine machine.meets_iff_of_sound (I := Inv) (fun _ h => h.holds) ?_ ?_ (ctor_inv count)
  · intro s i h hi
    change Holding.Sound _ s (s.step i)
    cases i with
    | wait t => exact ⟨h.wait t, trivial⟩
    | resume t => exact ⟨h.resume t, trivial⟩
    | wake t => exact ⟨h.wake t, trivial⟩
    | countDown =>
      obtain ⟨u, hu, hinv, -⟩ := h.countDown hi
      rw [step, hu]
      exact ⟨hinv, trivial⟩
  · intro s i _ hi
    change Holding.Seen s (s.step i)
    cases i with
    | countDown =>
      have hint : ¬ -2 ^ 31 < s.count_ := hi
      rw [step, countDown, if_neg hint]
      exact not_false
    | wait t => exact absurd trivial hi
    | resume t => exact absurd trivial hi
    | wake t => exact absurd trivial hi

end CountDownLatch

end Firey
