import Firey.Fault
import Mathlib.Algebra.BigOperators.Intervals
import Mathlib.Algebra.Order.BigOperators.Group.Finset

/-!
# `AppendFileff`

`append` calls `fwrite_unlocked` until the line is handed over, and gives up when a retry gets
nothing done; the first call may get nothing done.  `answers` are the results of the calls, each as
far as it stays below what was asked for.  A message on `stderr` is left out.
-/

set_option autoImplicit false

namespace Firey

/-- `contents` is what `fwrite_unlocked` has taken. -/
structure AppendFile where
  contents : Bytes
  writtenBytes : ℕ
  deriving DecidableEq, Repr

namespace AppendFile

/-- The constructor, on a new file. -/
def ctor : AppendFile := ⟨[], 0⟩

/-- `write(logline, len)`, with the `i`-th result. -/
def write (f : AppendFile) (answers : ℕ → ℕ) (i : ℕ) (logline : Bytes) (len : ℕ) :
    Except Fault (ℕ × AppendFile) :=
  if len ≤ logline.length then
    let n := min (answers i) len
    .ok (n, { f with contents := f.contents ++ logline.take n })
  else .error .outOfBounds

/-- The loop of `append`. -/
def retry (f : AppendFile) (answers : ℕ → ℕ) (i : ℕ) (logline : Bytes) (n remain : ℕ) :
    Except Fault AppendFile :=
  if 0 < remain then
    match f.write answers i (logline.drop n) remain with
    | .error e => .error e
    | .ok (m, f) => if m = 0 then .ok f else f.retry answers (i + 1) logline (n + m) (remain - m)
  else .ok f
termination_by remain

/-- `append(logline, len)`. -/
def append (f : AppendFile) (answers : ℕ → ℕ) (logline : Bytes) : Except Fault AppendFile := do
  let (n, f) ← f.write answers 0 logline logline.length
  let f ← f.retry answers 1 logline n (logline.length - n)
  .ok { f with writtenBytes := f.writtenBytes + logline.length }

/-! ## What is handed over -/

/-- What the first `i` calls were ready to take. -/
def taken (answers : ℕ → ℕ) (i : ℕ) : ℕ := ∑ j ∈ Finset.range i, answers j

/-- A retry finds something left, and gets nothing done. -/
def RetryFails (answers : ℕ → ℕ) (len : ℕ) : Prop :=
  ∃ i, 1 ≤ i ∧ taken answers i < len ∧ answers i = 0

variable {f : AppendFile} {answers : ℕ → ℕ} {logline : Bytes} {i : ℕ}

lemma write_spec (f : AppendFile) (answers : ℕ → ℕ) (i : ℕ) (logline : Bytes) (n : ℕ) :
    f.write answers i (logline.drop n) (logline.length - n) =
      .ok (min (answers i) (logline.length - n),
        { f with contents := f.contents ++
            (logline.drop n).take (min (answers i) (logline.length - n)) }) := by
  rw [write, if_pos List.length_drop.ge]

lemma taken_succ : taken answers (i + 1) = taken answers i + answers i :=
  Finset.sum_range_succ _ _

lemma taken_mono (answers : ℕ → ℕ) {j : ℕ} (h : i ≤ j) : taken answers i ≤ taken answers j :=
  Finset.sum_le_sum_of_subset (Finset.range_mono h)

/-- **The loop** hands over the rest of the line up to some `k`, which is its end unless one of the
retries still to come fails. -/
lemma retry_spec (hi : 1 ≤ i) {n : ℕ} (hn : n = min (taken answers i) logline.length) :
    ∃ k, n ≤ k ∧ k ≤ logline.length ∧
      f.retry answers i logline n (logline.length - n) =
        .ok { f with contents := f.contents ++ (logline.drop n).take (k - n) } ∧
      (k = logline.length ∧ (∀ j, i ≤ j → taken answers j < logline.length → answers j ≠ 0) ∨
        k < logline.length ∧ RetryFails answers logline.length) := by
  induction hremain : logline.length - n using Nat.strong_induction_on generalizing f i n with
  | _ remain ih =>
    subst hremain
    rw [retry]
    split
    next hleft =>
      have htaken : n = taken answers i := by omega
      rw [write_spec]
      dsimp only
      split
      next hzero =>
        -- the retry got nothing done
        have hanswer : answers i = 0 := by omega
        refine ⟨n, le_rfl, by omega, ?_, Or.inr ⟨by omega, i, hi, by omega, hanswer⟩⟩
        rw [hzero, Nat.sub_self]
      next hsome =>
        have hnext : n + min (answers i) (logline.length - n) =
            min (taken answers (i + 1)) logline.length := by
          rw [taken_succ]
          omega
        obtain ⟨k, hlow, hhigh, hretry, hend⟩ := ih _ (by omega) (by omega) hnext rfl
        refine ⟨k, by omega, hhigh, ?_, ?_⟩
        · have hsplit := List.take_add (l := logline.drop n)
            (i := min (answers i) (logline.length - n))
            (j := k - (n + min (answers i) (logline.length - n)))
          rw [List.drop_drop] at hsplit
          have hsum : min (answers i) (logline.length - n) +
              (k - (n + min (answers i) (logline.length - n))) = k - n := by omega
          rw [Nat.sub_sub, hretry]
          dsimp only
          rw [List.append_assoc, ← hsplit, hsum]
        · rcases hend with ⟨hk, hrest⟩ | hfails
          · refine Or.inl ⟨hk, fun j hj hlt => ?_⟩
            rcases Nat.eq_or_lt_of_le hj with rfl | hj
            · omega
            · exact hrest j hj hlt
          · exact Or.inr hfails
    next hdone =>
      refine ⟨n, le_rfl, by omega, ?_, Or.inl ⟨by omega, fun j hj hlt => ?_⟩⟩
      · rw [Nat.sub_self, List.take_zero, List.append_nil]
      · have hmono := taken_mono answers hj
        omega

/-- **`append`** hands over the first `k` octets of the line: all of it, unless a retry fails. -/
lemma append_spec (f : AppendFile) (answers : ℕ → ℕ) (logline : Bytes) :
    ∃ k ≤ logline.length,
      f.append answers logline = .ok
        ⟨f.contents ++ logline.take k, f.writtenBytes + logline.length⟩ ∧
      (k = logline.length ∧ ¬ RetryFails answers logline.length ∨
        k < logline.length ∧ RetryFails answers logline.length) := by
  have hfirst : min (answers 0) logline.length = min (taken answers 1) logline.length := by
    rw [taken, Finset.sum_range_one]
  obtain ⟨k, hlow, hhigh, hretry, hend⟩ := retry_spec
    (f := { f with contents := f.contents ++ logline.take (min (answers 0) logline.length) })
    le_rfl hfirst
  refine ⟨k, hhigh, ?_, ?_⟩
  · have hwrite := write_spec f answers 0 logline 0
    rw [List.drop_zero, Nat.sub_zero] at hwrite
    have hsplit := List.take_add (l := logline) (i := min (answers 0) logline.length)
      (j := k - min (answers 0) logline.length)
    rw [Nat.add_sub_cancel' hlow] at hsplit
    rw [append, hwrite, ok_bind]
    dsimp only
    rw [hretry, ok_bind]
    dsimp only
    rw [List.append_assoc, ← hsplit]
  · rcases hend with ⟨hk, hrest⟩ | hfails
    · exact Or.inl ⟨hk, fun ⟨j, hj, hlt, hzero⟩ => hrest j hj hlt hzero⟩
    · exact Or.inr hfails

/-- The file takes the first `k` octets of the line, all of them unless a retry fails, and counts
`k` more. -/
def CountsExactly (f : AppendFile) (answers : ℕ → ℕ) (logline : Bytes) : Prop :=
  ∃ g k, f.append answers logline = .ok g ∧ k ≤ logline.length ∧
    g.contents = f.contents ++ logline.take k ∧
    (k = logline.length ∨ RetryFails answers logline.length) ∧
    g.writtenBytes = f.writtenBytes + k

/-- **The count is that of the octets handed over** exactly when no retry fails: `append` counts
the whole line in any case. -/
theorem countsExactly_iff (f : AppendFile) (answers : ℕ → ℕ) (logline : Bytes) :
    f.CountsExactly answers logline ↔ ¬ RetryFails answers logline.length := by
  obtain ⟨k, hk, happend, hend⟩ := append_spec f answers logline
  constructor
  · rintro ⟨g, k', hg, hk', hcontents, -, hwritten⟩ hfails
    cases happend.symm.trans hg
    have hlt : k < logline.length := by
      rcases hend with ⟨-, hnot⟩ | ⟨hlt, -⟩
      · exact absurd hfails hnot
      · exact hlt
    have hlength := congrArg List.length hcontents
    rw [List.length_append, List.length_append, List.length_take, List.length_take] at hlength
    dsimp only at hwritten
    omega
  · intro hnot
    have hwhole : k = logline.length := by
      rcases hend with ⟨hwhole, -⟩ | ⟨-, hfails⟩
      · exact hwhole
      · exact absurd hfails hnot
    exact ⟨_, k, happend, hk, rfl, Or.inl hwhole, by rw [hwhole]⟩

/-- Two octets of four are taken, and then none: the file has two, and counts four. -/
theorem counts_unwritten :
    ctor.append (fun i => if i = 0 then 2 else 0) (octets "line".toList) =
        .ok ⟨octets "li".toList, 4⟩ ∧
      ¬ ctor.CountsExactly (fun i => if i = 0 then 2 else 0) (octets "line".toList) := by
  have happend : ctor.append (fun i => if i = 0 then 2 else 0) (octets "line".toList) =
      .ok ⟨octets "li".toList, 4⟩ := by
    rw [append, write, if_pos le_rfl, ok_bind]
    dsimp only
    rw [retry, write]
    rfl
  refine ⟨happend, ?_⟩
  rintro ⟨g, k, hg, -, hcontents, -, hwritten⟩
  cases happend.symm.trans hg
  have hk : k = 4 := (Nat.zero_add k).symm.trans hwritten.symm
  rw [hk] at hcontents
  exact absurd hcontents (by decide)

end AppendFile

end Firey
