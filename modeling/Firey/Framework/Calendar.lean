import Mathlib.Algebra.BigOperators.Intervals
import Mathlib.Algebra.Order.BigOperators.Group.Finset
import Mathlib.Tactic.Lemma

/-!
# The Gregorian calendar

A date is found by taking whole years off the days since the beginning of a year, and then whole
months off the rest.  Both are one operation: `takeBlocks` takes blocks of given lengths off a
distance.  It is strictly increasing, when the block and the rest are compared in this order
(`takeBlocks_lt`), and so is the date (`Date.fields_lt_iff`).

Nothing here names the library under study.
-/

set_option autoImplicit false

namespace Firey

/-! ## Blocks -/

/-- Take blocks of the lengths `len k`, `len (k + 1)` and so on off `r`, as long as they fit: the
first block that does not, and the rest. -/
def takeBlocks (len : ℕ → ℕ) (k r : ℕ) : ℕ × ℕ :=
  if len k ≤ r ∧ 0 < len k then takeBlocks len (k + 1) (r - len k) else (k, r)
termination_by r

section Blocks

variable {len : ℕ → ℕ} {k r s : ℕ}

lemma takeBlocks_of_le (h : len k ≤ r) (hpos : 0 < len k) :
    takeBlocks len k r = takeBlocks len (k + 1) (r - len k) := by
  rw [takeBlocks, if_pos ⟨h, hpos⟩]

lemma takeBlocks_of_lt (h : r < len k) : takeBlocks len k r = (k, r) := by
  rw [takeBlocks, if_neg fun hle => by omega]

lemma le_takeBlocks (len : ℕ → ℕ) (k r : ℕ) : k ≤ (takeBlocks len k r).1 := by
  fun_induction takeBlocks len k r with
  | case1 k r h ih => exact Nat.le_of_succ_le ih
  | case2 k r h => exact le_rfl

/-- The rest is shorter than the block. -/
lemma takeBlocks_rest (hpos : ∀ j, 0 < len j) (k r : ℕ) :
    (takeBlocks len k r).2 < len (takeBlocks len k r).1 := by
  fun_induction takeBlocks len k r with
  | case1 k r h ih => exact ih
  | case2 k r h =>
    have hk := hpos k
    dsimp only
    omega

/-- A distance that ends before the block `n` does so in a block before it. -/
lemma takeBlocks_fst_lt {n : ℕ} (h : r < ∑ j ∈ Finset.Ico k n, len j) :
    (takeBlocks len k r).1 < n := by
  have hkn : k < n := by
    by_contra hle
    rw [Finset.Ico_eq_empty_of_le (Nat.le_of_not_lt hle), Finset.sum_empty] at h
    exact absurd h (Nat.not_lt_zero r)
  fun_induction takeBlocks len k r with
  | case1 k r hle ih =>
    rw [Finset.sum_eq_sum_Ico_succ_bot hkn] at h
    refine ih (by omega) ?_
    by_contra hend
    rw [Finset.Ico_eq_empty_of_le (Nat.le_of_not_lt hend), Finset.sum_empty] at h
    omega
  | case2 k r hle => exact hkn

/-- Blocks of a length of `c` at least are not more than go into the distance. -/
lemma takeBlocks_fst_le {c : ℕ} (hc : 0 < c) (hlen : ∀ j, c ≤ len j) (k r : ℕ) :
    (takeBlocks len k r).1 ≤ k + r / c := by
  fun_induction takeBlocks len k r with
  | case1 k r h ih =>
    have hstep : (r - len k) / c + 1 ≤ r / c := by
      rw [← Nat.add_div_right _ hc]
      exact Nat.div_le_div_right (by have := hlen k; omega)
    omega
  | case2 k r h => exact Nat.le_add_right k _

/-- **Farther is later**: in a later block, or farther in the same one. -/
theorem takeBlocks_lt (hpos : ∀ j, 0 < len j) (h : r < s) :
    (takeBlocks len k r).1 < (takeBlocks len k s).1 ∨
      (takeBlocks len k r).1 = (takeBlocks len k s).1 ∧
        (takeBlocks len k r).2 < (takeBlocks len k s).2 := by
  fun_induction takeBlocks len k r generalizing s with
  | case1 k r hle ih =>
    rw [takeBlocks_of_le (hle.1.trans h.le) hle.2]
    exact ih (by omega)
  | case2 k r hle =>
    have hk := hpos k
    by_cases hs : s < len k
    · rw [takeBlocks_of_lt hs]
      exact Or.inr ⟨rfl, h⟩
    · rw [takeBlocks_of_le (Nat.le_of_not_lt hs) hk]
      exact Or.inl (le_takeBlocks len (k + 1) (s - len k))

end Blocks

/-! ## Years, months and days -/

def isLeapYear (year : ℕ) : Bool := year % 4 = 0 ∧ (year % 100 ≠ 0 ∨ year % 400 = 0)

def daysInYear (year : ℕ) : ℕ := if isLeapYear year then 366 else 365

def daysInMonth (year month : ℕ) : ℕ :=
  match month with
  | 2 => if isLeapYear year then 29 else 28
  | 4 | 6 | 9 | 11 => 30
  | _ => 31

/-- A day, with the months and the days of a month counted from 1. -/
structure Date where
  year : ℕ
  month : ℕ
  day : ℕ
  deriving DecidableEq, Repr

/-- The day that is so many days after the first of January of the year `epoch`. -/
def dateAfter (epoch days : ℕ) : Date :=
  let (year, rest) := takeBlocks daysInYear epoch days
  let (month, rest) := takeBlocks (daysInMonth year) 1 rest
  ⟨year, month, rest + 1⟩

lemma daysInYear_pos (year : ℕ) : 0 < daysInYear year := by
  unfold daysInYear
  split <;> decide

lemma daysInMonth_pos (year month : ℕ) : 0 < daysInMonth year month := by
  unfold daysInMonth
  split
  · split <;> decide
  all_goals decide

lemma daysInMonth_le (year month : ℕ) : daysInMonth year month ≤ 31 := by
  unfold daysInMonth
  split
  · split <;> decide
  all_goals decide

/-- The twelve months make the year. -/
lemma sum_daysInMonth (year : ℕ) :
    ∑ month ∈ Finset.Ico 1 13, daysInMonth year month = daysInYear year := by
  unfold daysInMonth daysInYear
  cases isLeapYear year <;> rfl

/-- No days after the first of January it is the first of January. -/
lemma dateAfter_zero (epoch : ℕ) : dateAfter epoch 0 = ⟨epoch, 1, 1⟩ := by
  unfold dateAfter
  rw [takeBlocks_of_lt (daysInYear_pos epoch)]
  dsimp only
  rw [takeBlocks_of_lt (daysInMonth_pos epoch 1)]

namespace Date

variable {epoch days days' : ℕ}

lemma month_le (epoch days : ℕ) : (dateAfter epoch days).month ≤ 12 := by
  have hrest := takeBlocks_rest daysInYear_pos epoch days
  rw [← sum_daysInMonth] at hrest
  exact Nat.le_of_lt_succ (takeBlocks_fst_lt hrest)

lemma one_le_month (epoch days : ℕ) : 1 ≤ (dateAfter epoch days).month :=
  le_takeBlocks (daysInMonth _) 1 _

lemma day_le (epoch days : ℕ) : (dateAfter epoch days).day ≤ 31 :=
  (takeBlocks_rest (daysInMonth_pos _) 1 (takeBlocks daysInYear epoch days).2).trans_le
    (daysInMonth_le _ _)

lemma epoch_le_year (epoch days : ℕ) : epoch ≤ (dateAfter epoch days).year :=
  le_takeBlocks daysInYear epoch days

lemma year_le (epoch days : ℕ) : (dateAfter epoch days).year ≤ epoch + days / 365 := by
  refine takeBlocks_fst_le (by decide) (fun year => ?_) epoch days
  unfold daysInYear
  split <;> decide

/-- Year, month and day. -/
def fields (d : Date) : List ℕ := [d.year, d.month, d.day]

lemma length_fields_eq (d e : Date) : d.fields.length = e.fields.length := rfl

lemma fields_lt (h : days < days') :
    (dateAfter epoch days).fields < (dateAfter epoch days').fields := by
  unfold fields
  rw [List.cons_lt_cons_iff, List.cons_lt_cons_iff, List.cons_lt_cons_iff]
  have hyear := takeBlocks_lt (k := epoch) daysInYear_pos h
  unfold dateAfter
  dsimp only
  rcases hyear with hyear | ⟨hyear, hrest⟩
  · exact Or.inl hyear
  · refine Or.inr ⟨hyear, ?_⟩
    rw [← hyear]
    rcases takeBlocks_lt (k := 1) (daysInMonth_pos _) hrest with hmonth | ⟨hmonth, hday⟩
    · exact Or.inl hmonth
    · exact Or.inr ⟨hmonth, Or.inl (Nat.succ_lt_succ hday)⟩

/-- **Dates are in the order of the days.** -/
theorem fields_lt_iff :
    (dateAfter epoch days).fields < (dateAfter epoch days').fields ↔ days < days' := by
  refine ⟨fun h => ?_, fields_lt⟩
  by_contra hle
  rcases Nat.eq_or_lt_of_le (Nat.le_of_not_lt hle) with rfl | hlt
  · exact List.lt_irrefl _ h
  · exact List.lt_asymm h (fields_lt hlt)

/-- Different days have different dates. -/
theorem fields_eq_iff :
    (dateAfter epoch days).fields = (dateAfter epoch days').fields ↔ days = days' := by
  refine ⟨fun h => ?_, fun h => h ▸ rfl⟩
  rcases Nat.lt_trichotomy days days' with hlt | heq | hlt
  · exact absurd (h ▸ fields_lt hlt) (List.lt_irrefl _)
  · exact heq
  · exact absurd (h ▸ fields_lt hlt) (List.lt_irrefl _)

end Date

end Firey
