import Firey.Framework.Numeral
import Mathlib.Data.Nat.Digits.Lemmas
import Mathlib.Tactic.IntervalCases

/-!
# Fields of a fixed width sort like their values

`zeroPadded w n` is what the conversion `%0wd` writes and `spacePadded w n` what `%wd` does.  As
long as a number has no more digits than its field, the field has the width, and so texts made of
such fields, with the same separators, sort as octets like the lists of their values
(`fieldsText_lt_iff`).

Nothing here names the library under study.
-/

set_option autoImplicit false

namespace Firey

/-! ## Lists of one length -/

section Lex

variable {α : Type*} [LT α]

/-- What is in front decides, and where it is equal, what is behind. -/
lemma append_lt_append_iff {a b r s : List α} (hlen : a.length = b.length) :
    a ++ r < b ++ s ↔ a < b ∨ a = b ∧ r < s := by
  induction a generalizing b with
  | nil =>
    rw [List.eq_nil_of_length_eq_zero hlen.symm]
    simp
  | cons x a ih =>
    cases b with
    | nil => cases hlen
    | cons y b =>
      rw [List.cons_append, List.cons_append, List.cons_lt_cons_iff, List.cons_lt_cons_iff,
        ih (Nat.succ.inj hlen), List.cons.injEq, and_or_left, ← or_assoc, ← and_assoc]

omit [LT α] in
lemma append_eq_append_iff_of_length {a b r s : List α} (hlen : a.length = b.length) :
    a ++ r = b ++ s ↔ a = b ∧ r = s :=
  ⟨fun h => List.append_inj h hlen, fun h => by rw [h.1, h.2]⟩

end Lex

/-! ## One field -/

/-- The last `w` digits of a number. -/
def fixedText : ℕ → ℕ → List UInt8
  | 0, _ => []
  | w + 1, n => fixedText w (n / 10) ++ [decimalDigit (n % 10)]

/-- `%0wd`, for a number that is not negative. -/
def zeroPadded (w n : ℕ) : List UInt8 := (numeral decimalDigit 10 n).leftpad w 48

/-- `%wd`. -/
def spacePadded (w n : ℕ) : List UInt8 := (numeral decimalDigit 10 n).leftpad w 32

variable {w n m : ℕ}

@[simp] lemma length_fixedText (w n : ℕ) : (fixedText w n).length = w := by
  induction w generalizing n with
  | zero => rfl
  | succ w ih => rw [fixedText, List.length_append, ih, List.length_singleton]

lemma decimalDigit_lt_iff {d e : ℕ} (hd : d < 10) (he : e < 10) :
    decimalDigit d < decimalDigit e ↔ d < e := by
  interval_cases d <;> interval_cases e <;> decide

lemma decimalDigit_inj {d e : ℕ} (hd : d < 10) (he : e < 10) :
    decimalDigit d = decimalDigit e ↔ d = e := by
  interval_cases d <;> interval_cases e <;> decide

lemma fixedText_inj (hn : n < 10 ^ w) (hm : m < 10 ^ w) :
    fixedText w n = fixedText w m ↔ n = m := by
  induction w generalizing n m with
  | zero => exact iff_of_true rfl (by omega)
  | succ w ih =>
    rw [pow_succ] at hn hm
    rw [fixedText, fixedText,
      append_eq_append_iff_of_length (by rw [length_fixedText, length_fixedText]),
      ih (by omega) (by omega), List.singleton_inj, decimalDigit_inj (by omega) (by omega)]
    omega

/-- **Fields of one width** sort like the numbers. -/
lemma fixedText_lt_iff (hn : n < 10 ^ w) (hm : m < 10 ^ w) :
    fixedText w n < fixedText w m ↔ n < m := by
  induction w generalizing n m with
  | zero => exact iff_of_false (List.not_lt_nil _) (by omega)
  | succ w ih =>
    rw [pow_succ] at hn hm
    have hn' : n / 10 < 10 ^ w := by omega
    have hm' : m / 10 < 10 ^ w := by omega
    rw [fixedText, fixedText, append_lt_append_iff (by rw [length_fixedText, length_fixedText]),
      ih hn' hm', fixedText_inj hn' hm', List.cons_lt_cons_iff,
      decimalDigit_lt_iff (by omega) (by omega)]
    simp only [List.not_lt_nil, and_false, or_false]
    omega

/-! ### The conversions -/

lemma numeral_of_lt (h : n < 10) : numeral decimalDigit 10 n = [decimalDigit n] := by
  by_cases hzero : n = 0
  · rw [numeral, if_pos hzero, hzero]
  · rw [numeral_of_ne_zero hzero, Nat.digits_of_lt 10 n hzero h]
    rfl

/-- The last digit of a numeral stands behind the numeral of the tenth part. -/
lemma numeral_of_ge (h : 10 ≤ n) :
    numeral decimalDigit 10 n = numeral decimalDigit 10 (n / 10) ++ [decimalDigit (n % 10)] := by
  have htenth : n / 10 ≠ 0 := by omega
  rw [numeral_of_ne_zero (by omega), numeral_of_ne_zero htenth,
    Nat.digits_def' (by decide) (by omega), List.map_cons, List.reverse_cons]

/-- A number with no more digits than the field has these digits, behind zeros. -/
lemma zeroPadded_eq (w : ℕ) (h : n < 10 ^ (w + 1)) :
    zeroPadded (w + 1) n = fixedText (w + 1) n := by
  unfold zeroPadded
  induction w generalizing n with
  | zero =>
    have hsmall : n < 10 := h
    rw [numeral_of_lt hsmall, fixedText, fixedText, Nat.mod_eq_of_lt hsmall]
    rfl
  | succ w ih =>
    rw [pow_succ] at h
    have htenth := ih (n := n / 10) (by omega)
    rw [fixedText, ← htenth]
    by_cases hsmall : n < 10
    · have hzero : n / 10 = 0 := by omega
      rw [numeral_of_lt hsmall, hzero, numeral_of_lt (by decide), Nat.mod_eq_of_lt hsmall]
      unfold List.leftpad
      rw [List.length_singleton, List.length_singleton, Nat.add_sub_cancel, Nat.add_sub_cancel,
        List.replicate_succ']
      rfl
    · rw [numeral_of_ge (by omega)]
      unfold List.leftpad
      rw [List.length_append, List.length_singleton, Nat.add_sub_add_right, List.append_assoc]

/-- A number that fills its field has its digits there, whatever is padded with. -/
lemma spacePadded_eq {w : ℕ} (hlow : 10 ^ w ≤ n) (hhigh : n < 10 ^ (w + 1)) :
    spacePadded (w + 1) n = fixedText (w + 1) n := by
  have hfull : (numeral decimalDigit 10 n).length = w + 1 := by
    have hpos : n ≠ 0 := by
      have hpow := Nat.pow_pos (n := w) (show 0 < 10 by decide)
      omega
    rw [numeral_of_ne_zero hpos, List.length_reverse, List.length_map]
    refine Nat.le_antisymm ((Nat.digits_length_le_iff (by decide) n).mpr hhigh) ?_
    exact (Nat.lt_digits_length_iff (by decide) n).mpr hlow
  rw [← zeroPadded_eq w hhigh]
  unfold spacePadded zeroPadded List.leftpad
  rw [hfull, Nat.sub_self, List.replicate_zero, List.replicate_zero]

/-! ## Texts of fields -/

/-- Fields, each with its separator in front, filled with values. -/
def fieldsText : List (List UInt8 × ℕ) → List ℕ → List UInt8
  | (sep, w) :: fmt, v :: vs => sep ++ fixedText w v ++ fieldsText fmt vs
  | _, _ => []

/-- The values have room in their fields. -/
def FitFields (fmt : List (List UInt8 × ℕ)) (vs : List ℕ) : Prop :=
  List.Forall₂ (fun field v => v < 10 ^ field.2) fmt vs

lemma length_fieldsText {fmt : List (List UInt8 × ℕ)} {vs : List ℕ} (hvs : FitFields fmt vs) :
    (fieldsText fmt vs).length = (fmt.map fun field => field.1.length + field.2).sum := by
  induction hvs with
  | nil => rfl
  | @cons field v fmt vs hv hvs ih =>
    rw [fieldsText, List.length_append, List.length_append, length_fixedText, ih, List.map_cons,
      List.sum_cons]

/-- **Texts of the same fields** sort like the lists of their values. -/
theorem fieldsText_lt_iff {fmt : List (List UInt8 × ℕ)} {vs us : List ℕ} (hvs : FitFields fmt vs)
    (hus : FitFields fmt us) : fieldsText fmt vs < fieldsText fmt us ↔ vs < us := by
  induction hvs generalizing us with
  | nil =>
    cases hus
    exact iff_of_false (List.not_lt_nil _) (List.not_lt_nil _)
  | @cons field v fmt vs hv hvs ih =>
    cases hus with
    | @cons _ u _ us hu hus =>
      rw [fieldsText, fieldsText, List.append_assoc, List.append_assoc,
        append_lt_append_iff rfl, append_lt_append_iff (by rw [length_fixedText, length_fixedText]),
        fixedText_lt_iff hv hu, fixedText_inj hv hu, ih hus, List.cons_lt_cons_iff]
      simp [List.lt_irrefl]

/-- Different values have different texts. -/
theorem fieldsText_inj {fmt : List (List UInt8 × ℕ)} {vs us : List ℕ} (hvs : FitFields fmt vs)
    (hus : FitFields fmt us) : fieldsText fmt vs = fieldsText fmt us ↔ vs = us := by
  induction hvs generalizing us with
  | nil =>
    cases hus
    exact iff_of_true rfl rfl
  | @cons field v fmt vs hv hvs ih =>
    cases hus with
    | @cons _ u _ us hu hus =>
      rw [fieldsText, fieldsText, List.append_assoc, List.append_assoc,
        append_eq_append_iff_of_length rfl,
        append_eq_append_iff_of_length (by rw [length_fixedText, length_fixedText]),
        fixedText_inj hv hu, ih hus, List.cons.injEq]
      exact and_iff_right rfl

end Firey
