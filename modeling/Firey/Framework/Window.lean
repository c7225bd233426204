import Mathlib.Data.List.TakeDrop
import Mathlib.Tactic.Lemma

/-!
# Windows of a list

A buffer is a list of cells with a window `[i, j)` of live ones.  `window l i j` is what the
window shows and `overwrite l i d` is a block copy of `d` onto the cells from `i` on.  The
lemmas say what a window shows after a copy beside it, next to it, or onto it, which is all
that an in-place buffer ever does.
-/

set_option autoImplicit false

namespace Firey

variable {α : Type*}

/-- The cells of `l` from `i` up to, not including, `j`. -/
def window (l : List α) (i j : ℕ) : List α := (l.drop i).take (j - i)

/-- `l` with the cells from `i` on replaced by `d`. -/
def overwrite (l : List α) (i : ℕ) (d : List α) : List α :=
  l.take i ++ d ++ l.drop (i + d.length)

/-! ## Lengths -/

lemma length_window {l : List α} {i j : ℕ} (hj : j ≤ l.length) :
    (window l i j).length = j - i := by
  simp only [window, List.length_take, List.length_drop]
  omega

lemma length_overwrite {l : List α} {i : ℕ} {d : List α} (h : i + d.length ≤ l.length) :
    (overwrite l i d).length = l.length := by
  simp only [overwrite, List.length_append, List.length_take, List.length_drop]
  omega

/-! ## Shrinking a window -/

@[simp] lemma window_self (l : List α) (i : ℕ) : window l i i = [] := by
  simp [window]

lemma window_take {l : List α} {i j n : ℕ} (h : i + n ≤ j) :
    (window l i j).take n = window l i (i + n) := by
  rw [window, window, List.take_take]
  congr 1
  omega

/-- What a window from the front begins with is shown by a shorter one. -/
lemma window_front {l a b : List α} {j : ℕ} (h : window l 0 j = a ++ b) :
    window l 0 a.length = a := by
  have hlength : (window l 0 j).length ≤ j := List.length_take_le _ _
  rw [h, List.length_append] at hlength
  have htake := window_take (l := l) (i := 0) (j := j) (n := a.length) (by omega)
  rw [h, List.take_left, Nat.zero_add] at htake
  exact htake.symm

lemma window_drop (l : List α) (i j n : ℕ) :
    (window l i j).drop n = window l (i + n) j := by
  rw [window, window, List.drop_take, List.drop_drop]
  congr 1
  omega

/-- A window splits at any index inside it. -/
lemma window_split {l : List α} {i k j : ℕ} (hik : i ≤ k) (hkj : k ≤ j) :
    window l i k ++ window l k j = window l i j := by
  have hk : i + (k - i) = k := by omega
  have htake : (window l i j).take (k - i) = window l i k := by
    rw [window_take (by omega), hk]
  have hdrop : (window l i j).drop (k - i) = window l k j := by
    rw [window_drop, hk]
  rw [← htake, ← hdrop, List.take_append_drop]

/-! ## Windows after a copy -/

/-- Cells appended to the list are outside every window that was inside it. -/
lemma window_append_of_le {l : List α} {i j : ℕ} (hj : j ≤ l.length) (r : List α) :
    window (l ++ r) i j = window l i j := by
  by_cases hi : i ≤ l.length
  · rw [window, window, List.drop_append_of_le_length hi, List.take_append_of_le_length]
    rw [List.length_drop]
    omega
  · have hz : j - i = 0 := by omega
    rw [window, window, hz, List.take_zero, List.take_zero]

/-- A window that ends where the copy starts is not touched by it. -/
lemma window_overwrite_of_le {l : List α} {i j k : ℕ} {d : List α} (hjk : j ≤ k)
    (hk : k ≤ l.length) : window (overwrite l k d) i j = window l i j := by
  have hlen : j ≤ (l.take k).length := by
    rw [List.length_take]
    omega
  rw [overwrite, List.append_assoc, window_append_of_le hlen]
  conv_rhs => rw [← List.take_append_drop k l]
  rw [window_append_of_le hlen]

/-- The window a copy was made to shows the copied block. -/
lemma window_overwrite_self {l : List α} {i : ℕ} {d : List α} (hi : i ≤ l.length) :
    window (overwrite l i d) i (i + d.length) = d := by
  have hlen : (l.take i).length = i := by
    rw [List.length_take]
    omega
  rw [window, overwrite, List.append_assoc, List.drop_append_of_le_length (by omega),
    List.drop_eq_nil_of_le (by omega), List.nil_append, Nat.add_sub_cancel_left, List.take_left']
  rfl

/-- A window that starts where the copy ends is not touched by it. -/
lemma window_overwrite_of_ge {l : List α} {i j k : ℕ} {d : List α}
    (hk : k + d.length ≤ i) (hl : k + d.length ≤ l.length) :
    window (overwrite l k d) i j = window l i j := by
  have hlen : (l.take k ++ d).length = k + d.length := by
    rw [List.length_append, List.length_take]
    omega
  obtain ⟨m, rfl⟩ : ∃ m, i = k + d.length + m := ⟨i - (k + d.length), by omega⟩
  rw [window, window, overwrite, ← hlen, List.drop_length_add_append, hlen, List.drop_drop]

/-- Copying at the end of a window extends it. -/
lemma window_overwrite_end {l : List α} {i j : ℕ} {d : List α} (hij : i ≤ j)
    (hj : j ≤ l.length) :
    window (overwrite l j d) i (j + d.length) = window l i j ++ d := by
  rw [← window_split hij (Nat.le_add_right j d.length), window_overwrite_of_le (Nat.le_refl j) hj,
    window_overwrite_self hj]

/-- Copying in front of a window extends it downwards. -/
lemma window_overwrite_front {l : List α} {i j : ℕ} {d : List α} (hd : d.length ≤ i)
    (hij : i ≤ j) (hi : i ≤ l.length) :
    window (overwrite l (i - d.length) d) (i - d.length) j = d ++ window l i j := by
  have hend : i - d.length + d.length = i := by omega
  have hself := window_overwrite_self (l := l) (i := i - d.length) (d := d) (by omega)
  rw [hend] at hself
  rw [← window_split (Nat.sub_le i d.length) hij, hself,
    window_overwrite_of_ge (by omega) (by omega)]

end Firey
