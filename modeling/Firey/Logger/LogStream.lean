import Firey.Fault
import Firey.Framework.Numeral
import Firey.Framework.Window

/-!
# Numbers in `LogStreamff`

A `LogStreamff` is an array of `kSmallBuffer` octets with a pointer `cur_` into it.  Numbers are
converted where they are to stand: the digits are written from the last to the first behind
`cur_`, a terminating NUL after them, and then turned round in place, and `cur_` moves behind them
only at the end.

The conversions write a digit while the number is not zero, so a number other than 0 gets its
canonical text, and 0 gets no digit at all (`appends_iff`).
-/

set_option autoImplicit false

namespace Firey

def kSmallBuffer : ℕ := 4000

/-- An array of octets. -/
structure CharArray (SIZE : ℕ) where
  octets : Bytes
  length_eq : octets.length = SIZE

/-- Write to the octets from `i` on; behind the end of the array there is nothing to write to. -/
def CharArray.write {SIZE : ℕ} (a : CharArray SIZE) (i : ℕ) (bs : Bytes) :
    Except Fault (CharArray SIZE) :=
  if h : i + bs.length ≤ a.octets.length then
    .ok ⟨overwrite a.octets i bs, (length_overwrite h).trans a.length_eq⟩
  else .error .outOfBounds

/-- A write inside of the array leaves what is in front of it, with the octets written behind. -/
lemma CharArray.write_spec {SIZE : ℕ} (a : CharArray SIZE) (i : ℕ) (bs : Bytes)
    (h : i + bs.length ≤ SIZE) :
    ∃ b, a.write i bs = .ok b ∧
      window b.octets 0 (i + bs.length) = window a.octets 0 i ++ bs := by
  have hfits : i + bs.length ≤ a.octets.length := h.trans_eq a.length_eq.symm
  exact ⟨_, dif_pos hfits,
    window_overwrite_end (Nat.zero_le i) ((Nat.le_add_right i bs.length).trans hfits)⟩

/-- The same for octets that are written with a NUL behind them, which is not looked at. -/
lemma CharArray.write_nul {SIZE : ℕ} (a : CharArray SIZE) (i : ℕ) (bs : Bytes)
    (h : i + bs.length + 1 ≤ SIZE) :
    ∃ b, a.write i (bs ++ [0]) = .ok b ∧
      window b.octets 0 (i + bs.length) = window a.octets 0 i ++ bs := by
  have hlen : (bs ++ [(0 : Byte)]).length = bs.length + 1 := List.length_append
  have hi : (window a.octets 0 i ++ bs).length = i + bs.length := by
    rw [List.length_append, length_window (by rw [a.length_eq]; omega), Nat.sub_zero]
  obtain ⟨b, hb, hwindow⟩ := a.write_spec i (bs ++ [0]) (by omega)
  rw [← List.append_assoc] at hwindow
  have hfront := window_front hwindow
  rw [hi] at hfront
  exact ⟨b, hb, hfront⟩

structure LogStream where
  data_ : CharArray kSmallBuffer
  cur_ : ℕ

namespace LogStream

/-! ## The conversions -/

/-- `digits`, of which `zero` points to the middle. -/
def digits : Bytes := octets "9876543210123456789".toList

/-- `zero[lsd]`. -/
def zero (lsd : ℤ) : Byte := digits.getD (9 + lsd).toNat 0

def digitHex : Bytes := octets "0123456789ABCDEF".toList

/-- The loop of `convert`; division is truncated, and the last digit has the sign of `i`. -/
def convertLoop (i : ℤ) : Bytes :=
  if i = 0 then [] else zero (i.tmod 10) :: convertLoop (i.tdiv 10)
termination_by i.natAbs
decreasing_by
  rw [Int.natAbs_tdiv]
  exact Nat.div_lt_self (Int.natAbs_pos.mpr (by assumption)) (by decide)

/-- The loop of `convertHex`. -/
def convertHexLoop (i : ℕ) : Bytes :=
  if i = 0 then [] else digitHex.getD (i % 16) 0 :: convertHexLoop (i / 16)
termination_by i
decreasing_by exact Nat.div_lt_self (Nat.pos_of_ne_zero (by assumption)) (by decide)

/-- What both conversions do with the octets they have written from `buf` on: end them with a NUL,
and turn them round. -/
def turnRound {SIZE : ℕ} (a : CharArray SIZE) (buf : ℕ) (written : Bytes) :
    Except Fault (CharArray SIZE × ℕ) := do
  let a ← a.write buf (written ++ [0])
  let a ← a.write buf written.reverse
  .ok (a, written.length)

/-- `convert(buf, val)`. -/
def convert {SIZE : ℕ} (a : CharArray SIZE) (buf : ℕ) (val : ℤ) :
    Except Fault (CharArray SIZE × ℕ) :=
  turnRound a buf (convertLoop val ++ if val < 0 then [minusSign] else [])

def convertHex {SIZE : ℕ} (a : CharArray SIZE) (buf : ℕ) (val : ℕ) :
    Except Fault (CharArray SIZE × ℕ) :=
  turnRound a buf (convertHexLoop val)

/-! ## The stream -/

def kMaxNumericSize : ℤ := 32

/-- `avail()`. -/
def avail (s : LogStream) : ℤ := (kSmallBuffer : ℤ) - s.cur_

/-- The text so far. -/
def text (s : LogStream) : Bytes := window s.data_.octets 0 s.cur_

/-- `cur_` points into the array, or to its end. -/
def Fits (s : LogStream) : Prop := s.cur_ ≤ kSmallBuffer

/-- `formatInteger(v)`. -/
def formatInteger (s : LogStream) (v : ℤ) : Except Fault LogStream :=
  if kMaxNumericSize ≤ s.avail then do
    let (data, len) ← convert s.data_ s.cur_ v
    .ok { data_ := data, cur_ := s.cur_ + len }
  else .ok s

/-! ### `operator<<` -/

def insertInt (s : LogStream) (v : BitVec 32) : Except Fault LogStream := s.formatInteger v.toInt

def insertUnsignedInt (s : LogStream) (v : BitVec 32) : Except Fault LogStream :=
  s.formatInteger v.toNat

def insertShort (s : LogStream) (v : BitVec 16) : Except Fault LogStream :=
  s.insertInt (v.signExtend 32)

def insertUnsignedShort (s : LogStream) (v : BitVec 16) : Except Fault LogStream :=
  s.insertUnsignedInt (v.setWidth 32)

def insertLong (s : LogStream) (v : BitVec 64) : Except Fault LogStream := s.formatInteger v.toInt

def insertUnsignedLong (s : LogStream) (v : BitVec 64) : Except Fault LogStream :=
  s.formatInteger v.toNat

def insertLongLong (s : LogStream) (v : BitVec 64) : Except Fault LogStream :=
  s.formatInteger v.toInt

def insertUnsignedLongLong (s : LogStream) (v : BitVec 64) : Except Fault LogStream :=
  s.formatInteger v.toNat

/-- `operator<<(const void*)`. -/
def insertPointer (s : LogStream) (p : BitVec 64) : Except Fault LogStream :=
  if kMaxNumericSize ≤ s.avail then do
    let data ← s.data_.write s.cur_ [48, 120]
    let (data, len) ← convertHex data (s.cur_ + 2) p.toNat
    .ok { data_ := data, cur_ := s.cur_ + (len + 2) }
  else .ok s

end LogStream

/-- A value of one of the types that are converted. -/
inductive LogNumber
  | short (v : BitVec 16)
  | unsignedShort (v : BitVec 16)
  | int (v : BitVec 32)
  | unsignedInt (v : BitVec 32)
  | long (v : BitVec 64)
  | unsignedLong (v : BitVec 64)
  | longLong (v : BitVec 64)
  | unsignedLongLong (v : BitVec 64)
  | pointer (p : BitVec 64)
  deriving DecidableEq, Repr

namespace LogNumber

/-- The number a value stands for. -/
def value : LogNumber → ℤ
  | short v => v.toInt
  | unsignedShort v => v.toNat
  | int v => v.toInt
  | unsignedInt v => v.toNat
  | long v => v.toInt
  | unsignedLong v => v.toNat
  | longLong v => v.toInt
  | unsignedLongLong v => v.toNat
  | pointer p => p.toNat

/-- Its canonical text: decimal for an integer, and hexadecimal behind `0x` for a pointer. -/
def canonical : LogNumber → Bytes
  | pointer p => [48, 120] ++ numeral hexDigit 16 p.toNat
  | x => decimalText x.value

/-- The shape of a canonical text: for an integer a minus sign exactly when it is negative, then
digits, with no zero in front of others; for a pointer `0x` and hexadecimal digits. -/
def HasShape (x : LogNumber) (text : Bytes) : Prop :=
  match x with
  | pointer _ => ∃ d rest, text = [48, 120] ++ hexDigit d :: rest ∧ d < 16 ∧
      ∀ c ∈ rest, ∃ e < 16, c = hexDigit e
  | x => ∃ d rest, text = (if x.value < 0 then [minusSign] else []) ++ decimalDigit d :: rest ∧
      d < 10 ∧ (∀ c ∈ rest, ∃ e < 10, c = decimalDigit e) ∧ (d = 0 → rest = [])

/-- Read a text as a value of the same type is written. -/
def readBack (x : LogNumber) (text : Bytes) : Option ℤ :=
  match x with
  | pointer _ =>
      if text.take 2 = [48, 120] then
        (readNumeral readHexDigit 16 (text.drop 2)).map fun n : ℕ => (n : ℤ)
      else none
  | _ => readDecimal text

end LogNumber

/-- `operator<<`. -/
def LogStream.insert (s : LogStream) : LogNumber → Except Fault LogStream
  | .short v => s.insertShort v
  | .unsignedShort v => s.insertUnsignedShort v
  | .int v => s.insertInt v
  | .unsignedInt v => s.insertUnsignedInt v
  | .long v => s.insertLong v
  | .unsignedLong v => s.insertUnsignedLong v
  | .longLong v => s.insertLongLong v
  | .unsignedLongLong v => s.insertUnsignedLongLong v
  | .pointer p => s.insertPointer p

namespace LogStream

/-! ## What the loops write -/

lemma zero_eq {lsd : ℤ} (hlow : -9 ≤ lsd) (hhigh : lsd ≤ 9) :
    zero lsd = decimalDigit lsd.natAbs := by
  interval_cases lsd <;> rfl

/-- The loop of `convert` writes the digits of the magnitude, the last one first. -/
lemma convertLoop_eq (i : ℤ) : convertLoop i = (Nat.digits 10 i.natAbs).map decimalDigit := by
  induction i using convertLoop.induct with
  | case1 => rw [convertLoop, if_pos rfl, Int.natAbs_zero, Nat.digits_zero, List.map_nil]
  | case2 i hi ih =>
    have hdigits := Nat.digits_def' (b := 10) (by decide) (Int.natAbs_pos.mpr hi)
    have hlsd : zero (i.tmod 10) = decimalDigit (i.natAbs % 10) := by
      have habs : (i.tmod 10).natAbs = i.natAbs % 10 := Int.natAbs_tmod i 10
      rw [← habs]
      exact zero_eq (by omega) (by omega)
    rw [convertLoop, if_neg hi, ih, hlsd, Int.natAbs_tdiv, hdigits, List.map_cons]
    rfl

lemma convertHexLoop_eq (i : ℕ) : convertHexLoop i = (Nat.digits 16 i).map hexDigit := by
  induction i using convertHexLoop.induct with
  | case1 => rw [convertHexLoop, if_pos rfl, Nat.digits_zero, List.map_nil]
  | case2 i hi ih =>
    have hdigits := Nat.digits_def' (b := 16) (by decide) (Nat.pos_of_ne_zero hi)
    have hlsd : digitHex.getD (i % 16) 0 = hexDigit (i % 16) := by
      have hlt := Nat.mod_lt i (show 0 < 16 by decide)
      generalize i % 16 = d at hlt
      interval_cases d <;> rfl
    rw [convertHexLoop, if_neg hi, ih, hlsd, hdigits, List.map_cons]

/-- A conversion that stays inside of the array leaves what it wrote, turned round, behind the text
in front of it. -/
lemma turnRound_ok {SIZE : ℕ} (a : CharArray SIZE) (buf : ℕ) (written : Bytes)
    (h : buf + written.length + 1 ≤ SIZE) :
    ∃ a', turnRound a buf written = .ok (a', written.length) ∧
      window a'.octets 0 (buf + written.length) = window a.octets 0 buf ++ written.reverse := by
  obtain ⟨b, hfirst, hwritten⟩ := a.write_nul buf written h
  obtain ⟨c, hsecond, hturned⟩ := b.write_spec buf written.reverse (by
    rw [List.length_reverse]
    omega)
  have hfront : window b.octets 0 buf = window a.octets 0 buf := by
    have hbuf : (window a.octets 0 buf).length = buf :=
      length_window (by rw [a.length_eq]; omega)
    have hbegins := window_front hwritten
    rwa [hbuf] at hbegins
  refine ⟨c, ?_, ?_⟩
  · rw [turnRound, hfirst, ok_bind, hsecond, ok_bind]
  · rw [List.length_reverse] at hturned
    rw [hturned, hfront]

/-! ## What an insertion appends -/

variable {s : LogStream}

lemma length_text (h : s.Fits) : s.text.length = s.cur_ :=
  length_window (h.trans_eq s.data_.length_eq.symm)

/-- Where a number is written, there are 32 octets left. -/
lemma space_of_room (hroom : kMaxNumericSize ≤ s.avail) : s.cur_ + 32 ≤ kSmallBuffer := by
  unfold kMaxNumericSize avail at hroom
  omega

/-- An integer of at most 20 digits is appended in its canonical text, but for 0. -/
lemma formatInteger_spec (hroom : kMaxNumericSize ≤ s.avail) {v : ℤ} (hv : v.natAbs < 10 ^ 20) :
    ∃ t, s.formatInteger v = .ok t ∧ t.Fits ∧
      t.text = s.text ++ if v = 0 then [] else decimalText v := by
  have hspace := space_of_room hroom
  have hdigits : ((Nat.digits 10 v.natAbs).map decimalDigit).length ≤ 20 := by
    rw [List.length_map]
    exact (Nat.digits_length_le_iff (by decide) _).mpr hv
  have hsign : (if v < 0 then [minusSign] else []).length ≤ 1 := by
    split <;> decide
  have hlen : (convertLoop v ++ if v < 0 then [minusSign] else []).length ≤ 21 := by
    rw [convertLoop_eq, List.length_append]
    omega
  obtain ⟨a, ha, hwindow⟩ := turnRound_ok s.data_ s.cur_
    (convertLoop v ++ if v < 0 then [minusSign] else []) (by omega)
  have hfits : s.cur_ + (convertLoop v ++ if v < 0 then [minusSign] else []).length ≤
      kSmallBuffer := by omega
  refine ⟨_, by rw [formatInteger, if_pos hroom, convert, ha, ok_bind], by exact hfits, ?_⟩
  have hreverse : (convertLoop v ++ if v < 0 then [minusSign] else []).reverse =
      if v = 0 then [] else decimalText v := by
    rw [convertLoop_eq, List.reverse_append]
    by_cases hzero : v = 0
    · rw [if_pos hzero, hzero]
      rfl
    · rw [if_neg hzero, decimalText, signedNumeral,
        numeral_of_ne_zero (Int.natAbs_ne_zero.mpr hzero)]
      split <;> rfl
  exact hwindow.trans (congrArg _ hreverse)

lemma insertPointer_spec (hroom : kMaxNumericSize ≤ s.avail) (p : BitVec 64) :
    ∃ t, s.insertPointer p = .ok t ∧ t.Fits ∧
      t.text = s.text ++
        ([48, 120] ++ if p.toNat = 0 then [] else numeral hexDigit 16 p.toNat) := by
  have hspace := space_of_room hroom
  have hlen : (convertHexLoop p.toNat).length ≤ 16 := by
    rw [convertHexLoop_eq, List.length_map]
    exact (Nat.digits_length_le_iff (by decide) _).mpr p.isLt
  obtain ⟨front, hwrite, hfront⟩ := s.data_.write_spec s.cur_ [48, 120] (by
    rw [List.length_cons, List.length_singleton]
    omega)
  obtain ⟨a, ha, hwindow⟩ := turnRound_ok front (s.cur_ + 2)
    (convertHexLoop p.toNat) (by omega)
  have hfits : s.cur_ + ((convertHexLoop p.toNat).length + 2) ≤ kSmallBuffer := by omega
  refine ⟨_, by rw [insertPointer, if_pos hroom, hwrite, ok_bind, convertHex, ha, ok_bind],
    by exact hfits, ?_⟩
  have hreverse : (convertHexLoop p.toNat).reverse =
      if p.toNat = 0 then [] else numeral hexDigit 16 p.toNat := by
    rw [convertHexLoop_eq]
    by_cases hzero : p.toNat = 0
    · rw [if_pos hzero, hzero]
      rfl
    · rw [if_neg hzero, numeral_of_ne_zero hzero]
  have hcur : s.cur_ + ((convertHexLoop p.toNat).length + 2) =
      s.cur_ + 2 + (convertHexLoop p.toNat).length := by omega
  rw [text]
  dsimp only
  have htwo : window front.octets 0 (s.cur_ + 2) = s.text ++ [48, 120] := hfront
  rw [hcur, hwindow, htwo, hreverse, List.append_assoc]

end LogStream

namespace LogNumber

/-- What an insertion appends: the canonical text, but no digit for 0. -/
def inserted : LogNumber → Bytes
  | pointer p => [48, 120] ++ if p.toNat = 0 then [] else numeral hexDigit 16 p.toNat
  | x => if x.value = 0 then [] else decimalText x.value

/-- The canonical text of a value is read back as it. -/
theorem readBack_canonical (x : LogNumber) : x.readBack x.canonical = some x.value := by
  cases x with
  | pointer p =>
    have htake : ([48, 120] ++ numeral hexDigit 16 p.toNat).take 2 = [48, 120] := rfl
    have hdrop : ([48, 120] ++ numeral hexDigit 16 p.toNat).drop 2 = numeral hexDigit 16 p.toNat :=
      rfl
    rw [readBack, canonical, if_pos htake, hdrop, hexCode.read_numeral]
    rfl
  | short _ | unsignedShort _ | int _ | unsignedInt _ | long _ | unsignedLong _ | longLong _
  | unsignedLongLong _ => exact readDecimal_decimalText _

theorem canonical_hasShape (x : LogNumber) : x.HasShape x.canonical := by
  have hdecimal : ∀ v : ℤ, ∃ d rest,
      decimalText v = (if v < 0 then [minusSign] else []) ++ decimalDigit d :: rest ∧ d < 10 ∧
        (∀ c ∈ rest, ∃ e < 10, c = decimalDigit e) ∧ (d = 0 → rest = []) := by
    intro v
    obtain ⟨d, rest, htext, hd, hrest, hzero⟩ := decimalText_canonical v
    exact ⟨d, rest, htext, hd, hrest, fun h => (hzero h).2⟩
  cases x with
  | pointer p =>
    have hmem : ∀ c ∈ numeral hexDigit 16 p.toNat, ∃ d < 16, c = hexDigit d :=
      fun c hc => mem_numeral (by decide) hc
    cases hnum : numeral hexDigit 16 p.toNat with
    | nil => exact absurd hnum numeral_ne_nil
    | cons c rest =>
      rw [hnum] at hmem
      obtain ⟨d, hd, rfl⟩ := hmem c List.mem_cons_self
      exact ⟨d, rest, by rw [canonical, hnum], hd,
        fun e he => hmem e (List.mem_cons_of_mem _ he)⟩
  | short _ | unsignedShort _ | int _ | unsignedInt _ | long _ | unsignedLong _ | longLong _
  | unsignedLongLong _ => exact hdecimal _

/-- A value other than 0 is inserted in its canonical text. -/
lemma inserted_of_ne_zero {x : LogNumber} (h : x.value ≠ 0) : x.inserted = x.canonical := by
  cases x with
  | pointer p =>
    have hp : p.toNat ≠ 0 := fun hp => h (congrArg Int.ofNat hp)
    rw [inserted, if_neg hp]
    rfl
  | short _ | unsignedShort _ | int _ | unsignedInt _ | long _ | unsignedLong _ | longLong _
  | unsignedLongLong _ => exact if_neg h

/-- 0 is inserted without a digit. -/
lemma inserted_of_zero {x : LogNumber} (h : x.value = 0) : ¬ x.HasShape x.inserted := by
  have hdecimal : ∀ v : ℤ, v = 0 → ¬ ∃ d rest, (if v = 0 then [] else decimalText v) =
      (if v < 0 then [minusSign] else []) ++ decimalDigit d :: rest ∧ d < 10 ∧
        (∀ c ∈ rest, ∃ e < 10, c = decimalDigit e) ∧ (d = 0 → rest = []) := by
    rintro v hv ⟨d, rest, htext, -⟩
    rw [if_pos hv] at htext
    exact absurd (List.append_eq_nil_iff.mp htext.symm).2 (List.cons_ne_nil _ _)
  cases x with
  | pointer p =>
    have hp : p.toNat = 0 := Int.ofNat.inj h
    rintro ⟨d, rest, htext, -⟩
    rw [inserted, if_pos hp, List.append_cancel_left_eq] at htext
    exact absurd htext.symm (List.cons_ne_nil _ _)
  | short _ | unsignedShort _ | int _ | unsignedInt _ | long _ | unsignedLong _ | longLong _
  | unsignedLongLong _ => exact hdecimal _ h

end LogNumber

namespace LogStream

variable {s : LogStream}

lemma natAbs_toNat_lt {w : ℕ} (v : BitVec w) (hw : w ≤ 64) : (v.toNat : ℤ).natAbs < 10 ^ 20 := by
  have hlt := v.isLt
  have hpow : 2 ^ w ≤ 2 ^ 64 := Nat.pow_le_pow_right (by decide) hw
  omega

lemma natAbs_toInt_lt {w : ℕ} (v : BitVec w) (hw : w ≤ 64) : v.toInt.natAbs < 10 ^ 20 := by
  have hlt := v.isLt
  have hpow : 2 ^ w ≤ 2 ^ 64 := Nat.pow_le_pow_right (by decide) hw
  have hint := BitVec.toInt_eq_toNat_cond v
  split at hint <;> omega

/-- Every insertion goes through, and appends the digits of its value. -/
lemma insert_spec (hroom : kMaxNumericSize ≤ s.avail) (x : LogNumber) :
    ∃ t, s.insert x = .ok t ∧ t.Fits ∧ t.text = s.text ++ x.inserted := by
  cases x with
  | short v =>
    have hvalue : (v.signExtend 32).toInt = v.toInt := BitVec.toInt_signExtend_of_le (by decide)
    have hsame : s.insert (.short v) = s.formatInteger v.toInt := congrArg s.formatInteger hvalue
    rw [hsame]
    exact formatInteger_spec hroom (natAbs_toInt_lt v (by decide))
  | unsignedShort v =>
    have hvalue : (v.setWidth 32).toNat = v.toNat := BitVec.toNat_setWidth_of_le (by decide)
    have hsame : s.insert (.unsignedShort v) = s.formatInteger v.toNat :=
      congrArg (fun n : ℕ => s.formatInteger n) hvalue
    rw [hsame]
    exact formatInteger_spec hroom (natAbs_toNat_lt v (by decide))
  | int v => exact formatInteger_spec hroom (natAbs_toInt_lt v (by decide))
  | unsignedInt v => exact formatInteger_spec hroom (natAbs_toNat_lt v (by decide))
  | long v => exact formatInteger_spec hroom (natAbs_toInt_lt v (by decide))
  | unsignedLong v => exact formatInteger_spec hroom (natAbs_toNat_lt v (by decide))
  | longLong v => exact formatInteger_spec hroom (natAbs_toInt_lt v (by decide))
  | unsignedLongLong v => exact formatInteger_spec hroom (natAbs_toNat_lt v (by decide))
  | pointer p => exact insertPointer_spec hroom p

/-- Where there is no room for a number, nothing is inserted. -/
lemma insert_of_full (hfull : ¬ kMaxNumericSize ≤ s.avail) (x : LogNumber) :
    s.insert x = .ok s := by
  cases x <;> exact if_neg hfull

/-- The insertion appends a text of canonical shape, which reads back as the value. -/
def Appends (s : LogStream) (x : LogNumber) : Prop :=
  ∃ t text, s.insert x = .ok t ∧ t.text = s.text ++ text ∧ x.HasShape text ∧
    x.readBack text = some x.value

/-- What is appended for 0 has no digit. -/
lemma not_appends_of_zero (hroom : kMaxNumericSize ≤ s.avail) {x : LogNumber}
    (hzero : x.value = 0) : ¬ s.Appends x := by
  obtain ⟨t, ht, -, htext⟩ := insert_spec hroom x
  rintro ⟨u, text, hu, htext', hshape, -⟩
  cases ht.symm.trans hu
  rw [htext, List.append_cancel_left_eq] at htext'
  exact x.inserted_of_zero hzero (htext' ▸ hshape)

/-- **Numbers are logged as what they are**, at every type, exactly when they are not 0. -/
theorem appends_iff (hroom : kMaxNumericSize ≤ s.avail) (x : LogNumber) :
    s.Appends x ↔ x.value ≠ 0 := by
  constructor
  · exact fun happends hzero => not_appends_of_zero hroom hzero happends
  · intro hne
    obtain ⟨t, ht, -, htext⟩ := insert_spec hroom x
    rw [LogNumber.inserted_of_ne_zero hne] at htext
    exact ⟨t, x.canonical, ht, htext, x.canonical_hasShape, x.readBack_canonical⟩

/-- A stream with nothing in it. -/
def empty : LogStream := ⟨⟨List.replicate kSmallBuffer 0, List.length_replicate⟩, 0⟩

/-- The least `int`. -/
theorem appends_iff_minimum : empty.Appends (.int 0x80000000) :=
  (appends_iff (by decide) _).mpr (by decide)

/-- 0 is appended as nothing, and the null pointer as `0x` alone. -/
theorem zero_not_appended :
    (∃ t, empty.insert (.int 0) = .ok t ∧ t.text = []) ∧ ¬ empty.Appends (.int 0) ∧
      (∃ t, empty.insert (.pointer 0) = .ok t ∧ t.text = [48, 120]) ∧
      ¬ empty.Appends (.pointer 0) := by
  have hroom : kMaxNumericSize ≤ empty.avail := by decide
  obtain ⟨t, ht, -, htext⟩ := insert_spec hroom (.int 0)
  obtain ⟨u, hu, -, hutext⟩ := insert_spec hroom (.pointer 0)
  exact ⟨⟨t, ht, htext⟩, not_appends_of_zero hroom rfl, ⟨u, hu, hutext⟩,
    not_appends_of_zero hroom rfl⟩

end LogStream

end Firey
