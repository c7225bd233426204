import Mathlib.Data.Nat.Digits.Lemmas
import Mathlib.Tactic.Lemma

/-!
# Numerals

The numeral of a number in a base is the list of its digits, most significant first, each written as
one character: at least one of them, and a zero in front only for the number 0
(`numeral_ne_nil`, `head_numeral`).  A negative number has the numeral of its magnitude behind a
minus sign.  Numerals are read back by `readNumeral` and `readSigned`, so they are different for
different numbers, and `length_numeral_le` bounds how long they are.
-/

set_option autoImplicit false

namespace Firey

variable {α : Type*}

/-- The numeral of `n` in the base `b`, where `digit` writes a digit. -/
def numeral (digit : ℕ → α) (b n : ℕ) : List α :=
  if n = 0 then [digit 0] else ((Nat.digits b n).map digit).reverse

/-- The numeral of an integer. -/
def signedNumeral (minus : α) (digit : ℕ → α) (b : ℕ) (v : ℤ) : List α :=
  (if v < 0 then [minus] else []) ++ numeral digit b v.natAbs

/-- Read a numeral; `read` reads a digit. -/
def readNumeral (read : α → Option ℕ) (b : ℕ) (text : List α) : Option ℕ :=
  if text.isEmpty then none else (text.mapM read).map fun ds => Nat.ofDigits b ds.reverse

def readSigned [DecidableEq α] (minus : α) (read : α → Option ℕ) (b : ℕ) : List α → Option ℤ
  | [] => none
  | c :: text =>
      if c = minus then (readNumeral read b text).map fun n : ℕ => -(n : ℤ)
      else (readNumeral read b (c :: text)).map fun n : ℕ => (n : ℤ)

/-- The digits of a base, as they are written and read. -/
structure DigitCode (digit : ℕ → α) (read : α → Option ℕ) (b : ℕ) : Prop where
  base : 1 < b
  read_digit : ∀ d < b, read (digit d) = some d

/-! ## Shape -/

section Shape

variable {digit : ℕ → α} {b n : ℕ}

lemma numeral_of_ne_zero (hn : n ≠ 0) :
    numeral digit b n = ((Nat.digits b n).map digit).reverse := if_neg hn

lemma numeral_ne_nil : numeral digit b n ≠ [] := by
  by_cases hn : n = 0
  · rw [numeral, if_pos hn]
    exact List.cons_ne_nil _ _
  · rw [numeral_of_ne_zero hn, ne_eq, List.reverse_eq_nil_iff, List.map_eq_nil_iff]
    exact Nat.digits_ne_nil_iff_ne_zero.mpr hn

/-- The first digit of a number that is not zero is not zero. -/
lemma head_numeral (digit : ℕ → α) (hb : 1 < b) (hn : n ≠ 0) :
    ∃ d rest, numeral digit b n = digit d :: rest ∧ 0 < d ∧ d < b := by
  have hne := Nat.digits_ne_nil_iff_ne_zero (b := b).mpr hn
  refine ⟨(Nat.digits b n).getLast hne, ((Nat.digits b n).dropLast.map digit).reverse, ?_,
    Nat.pos_of_ne_zero (Nat.getLast_digit_ne_zero b hn),
    Nat.digits_lt_base hb (List.getLast_mem hne)⟩
  rw [numeral_of_ne_zero hn]
  nth_rewrite 1 [← List.dropLast_append_getLast hne]
  rw [List.map_append, List.reverse_append]
  rfl

lemma length_numeral_le (digit : ℕ → α) {k : ℕ} (hb : 1 < b) (hk : 0 < k) (h : n < b ^ k) :
    (numeral digit b n).length ≤ k := by
  by_cases hn : n = 0
  · rw [numeral, if_pos hn]
    exact hk
  · rw [numeral_of_ne_zero hn, List.length_reverse, List.length_map]
    exact (Nat.digits_length_le_iff hb n).mpr h

lemma mem_numeral (hb : 1 < b) {c : α} (h : c ∈ numeral digit b n) : ∃ d < b, c = digit d := by
  by_cases hn : n = 0
  · rw [numeral, if_pos hn, List.mem_singleton] at h
    exact ⟨0, by omega, h⟩
  · rw [numeral_of_ne_zero hn, List.mem_reverse] at h
    obtain ⟨d, hd, rfl⟩ := List.mem_map.mp h
    exact ⟨d, Nat.digits_lt_base hb hd, rfl⟩

end Shape

/-! ## Reading back -/

namespace DigitCode

variable {digit : ℕ → α} {read : α → Option ℕ} {b : ℕ}

lemma mapM_read (h : DigitCode digit read b) (ds : List ℕ) (hds : ∀ d ∈ ds, d < b) :
    (ds.map digit).mapM read = some ds := by
  induction ds with
  | nil => rfl
  | cons d ds ih =>
    rw [List.map_cons, List.mapM_cons, h.read_digit d (hds d List.mem_cons_self),
      ih fun e he => hds e (List.mem_cons_of_mem d he)]
    rfl

/-- A numeral is read as the number it was written for. -/
theorem read_numeral (h : DigitCode digit read b) (n : ℕ) :
    readNumeral read b (numeral digit b n) = some n := by
  have hne : (numeral digit b n).isEmpty = false := by
    rw [List.isEmpty_eq_false_iff]
    exact numeral_ne_nil
  rw [readNumeral, hne]
  by_cases hn : n = 0
  · have hread := h.mapM_read [0] (by
      intro d hd
      rw [List.mem_singleton.mp hd]
      exact Nat.zero_lt_of_lt h.base)
    rw [numeral, if_pos hn, hn]
    rw [List.map_singleton] at hread
    rw [hread]
    rfl
  · have hread := h.mapM_read (Nat.digits b n).reverse fun d hd =>
      Nat.digits_lt_base h.base (List.mem_reverse.mp hd)
    rw [List.map_reverse] at hread
    rw [numeral_of_ne_zero hn, hread]
    simp only [Bool.false_eq_true, if_false, Option.map_some, List.reverse_reverse,
      Nat.ofDigits_digits]

/-- So is a signed one, when the minus sign is no digit. -/
theorem read_signedNumeral [DecidableEq α] (h : DigitCode digit read b) {minus : α}
    (hminus : read minus = none) (v : ℤ) :
    readSigned minus read b (signedNumeral minus digit b v) = some v := by
  by_cases hv : v < 0
  · rw [signedNumeral, if_pos hv, List.singleton_append, readSigned, if_pos rfl, h.read_numeral,
      Option.map_some]
    congr 1
    omega
  · have hhead : ∀ c text, numeral digit b v.natAbs = c :: text → c ≠ minus := by
      intro c text hc
      obtain ⟨d, hd, rfl⟩ := mem_numeral h.base (hc ▸ List.mem_cons_self)
      intro heq
      rw [← heq, h.read_digit d hd] at hminus
      cases hminus
    rw [signedNumeral, if_neg hv, List.nil_append]
    have hread := h.read_numeral v.natAbs
    cases hc : numeral digit b v.natAbs with
    | nil => exact absurd hc numeral_ne_nil
    | cons c text =>
      rw [hc] at hread
      rw [readSigned, if_neg (hhead c text hc), hread, Option.map_some]
      congr 1
      omega

theorem signedNumeral_inj [DecidableEq α] (h : DigitCode digit read b) {minus : α}
    (hminus : read minus = none) {v w : ℤ}
    (heq : signedNumeral minus digit b v = signedNumeral minus digit b w) : v = w := by
  have hread := h.read_signedNumeral hminus v
  rw [heq, h.read_signedNumeral hminus w] at hread
  exact (Option.some.inj hread).symm

end DigitCode

/-! ## Decimal and hexadecimal text -/

/-- A decimal digit in ASCII. -/
def decimalDigit (d : ℕ) : UInt8 := UInt8.ofNat (48 + d)

def readDecimalDigit (c : UInt8) : Option ℕ :=
  if 48 ≤ c ∧ c ≤ 57 then some (c.toNat - 48) else none

/-- A hexadecimal digit in ASCII, with capital letters. -/
def hexDigit (d : ℕ) : UInt8 := if d < 10 then UInt8.ofNat (48 + d) else UInt8.ofNat (55 + d)

def readHexDigit (c : UInt8) : Option ℕ :=
  if 48 ≤ c ∧ c ≤ 57 then some (c.toNat - 48)
  else if 65 ≤ c ∧ c ≤ 70 then some (c.toNat - 55) else none

lemma decimalCode : DigitCode decimalDigit readDecimalDigit 10 := ⟨by decide, by decide⟩

lemma hexCode : DigitCode hexDigit readHexDigit 16 := ⟨by decide, by decide⟩

/-- The minus sign in ASCII. -/
def minusSign : UInt8 := 45

/-- An integer in decimal. -/
def decimalText (v : ℤ) : List UInt8 := signedNumeral minusSign decimalDigit 10 v

def readDecimal (text : List UInt8) : Option ℤ := readSigned minusSign readDecimalDigit 10 text

theorem readDecimal_decimalText (v : ℤ) : readDecimal (decimalText v) = some v :=
  decimalCode.read_signedNumeral (by decide) v

theorem decimalText_inj {v w : ℤ} (h : decimalText v = decimalText w) : v = w :=
  decimalCode.signedNumeral_inj (by decide) h

lemma length_decimalText_le {v : ℤ} {k : ℕ} (hk : 0 < k) (h : v.natAbs < 10 ^ k) :
    (decimalText v).length ≤ (if v < 0 then 1 else 0) + k := by
  have hlen := length_numeral_le decimalDigit (by decide) hk h
  rw [decimalText, signedNumeral, List.length_append]
  split
  · exact Nat.add_le_add_left hlen 1
  · exact Nat.add_le_add_left hlen 0

/-- Canonical text: a minus sign exactly for the negative numbers, at least one digit, and a zero
in front only for 0. -/
theorem decimalText_canonical (v : ℤ) : ∃ d rest,
    decimalText v = (if v < 0 then [minusSign] else []) ++ decimalDigit d :: rest ∧ d < 10 ∧
      (∀ c ∈ rest, ∃ e < 10, c = decimalDigit e) ∧ (d = 0 → v = 0 ∧ rest = []) := by
  by_cases hv : v = 0
  · exact ⟨0, [], by rw [hv]; rfl, by decide, fun c hc => (nomatch hc), fun _ => ⟨hv, rfl⟩⟩
  · obtain ⟨d, rest, hnum, hpos, hlt⟩ :=
      head_numeral decimalDigit (b := 10) (by decide) (Int.natAbs_ne_zero.mpr hv)
    refine ⟨d, rest, by rw [decimalText, signedNumeral, hnum], hlt, ?_, fun hd => by omega⟩
    intro c hc
    exact mem_numeral (by decide) (hnum ▸ List.mem_cons_of_mem _ hc)

/-- A number that has no sign, in decimal. -/
def unsignedText (n : ℕ) : List UInt8 := decimalText n

lemma unsignedText_eq (n : ℕ) : unsignedText n = numeral decimalDigit 10 n := by
  rw [unsignedText, decimalText, signedNumeral, if_neg (Int.not_lt.mpr (Int.natCast_nonneg n)),
    Int.natAbs_natCast]
  rfl

lemma length_unsignedText_le {n k : ℕ} (hk : 0 < k) (h : n < 10 ^ k) :
    (unsignedText n).length ≤ k := by
  have hlen := length_decimalText_le (v := n) hk h
  rwa [if_neg (Int.not_lt.mpr (Int.natCast_nonneg n)), Nat.zero_add] at hlen

/-- It has nothing but digits. -/
lemma mem_unsignedText {n : ℕ} {c : UInt8} (h : c ∈ unsignedText n) :
    ∃ d < 10, c = decimalDigit d := by
  rw [unsignedText_eq] at h
  exact mem_numeral (by decide) h

lemma range_unsignedText {n : ℕ} {c : UInt8} (h : c ∈ unsignedText n) : 48 ≤ c ∧ c ≤ 57 := by
  have hdigit : ∀ d < 10, 48 ≤ decimalDigit d ∧ decimalDigit d ≤ 57 := by decide
  obtain ⟨d, hd, rfl⟩ := mem_unsignedText h
  exact hdigit d hd

/-! ## Text in an array -/

/-- What a C function sees of a string: the octets up to the first zero. -/
def cString (text : List UInt8) : List UInt8 := text.takeWhile (· ≠ 0)

lemma length_cString_le (text : List UInt8) : (cString text).length ≤ text.length :=
  (List.takeWhile_prefix _).length_le

/-- The C string that `snprintf` leaves in an array of this size. -/
def snprintf (size : ℕ) (text : List UInt8) : List UInt8 := text.take (size - 1)

/-- A text that fits is written whole. -/
lemma snprintf_of_lt {size : ℕ} {text : List UInt8} (h : text.length < size) :
    snprintf size text = text :=
  List.take_of_length_le (by omega)

end Firey
