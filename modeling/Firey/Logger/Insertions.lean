import Firey.Framework.Machine
import Firey.Logger.LogStream

/-!
# What is inserted into a `LogStreamff`

Text is copied as far as there is room for it.  A number is written only where `kMaxNumericSize`
octets are left, whatever its length, and `cur_` is then moved by what the conversion returns.  So
the bound on `cur_` rests on how long a conversion gets: 21 octets for an integer, 18 for a pointer
and, with their NUL, 32 for a `double`.

The text `"%.12g"` gives for a `double` is a parameter, `g12`.
-/

set_option autoImplicit false

namespace Firey

/-- `static_cast<double>(v)`, on the binary representations. -/
def floatToDouble (v : BitVec 32) : BitVec 64 :=
  let sign := v.toNat / 2 ^ 31
  let exponent := v.toNat / 2 ^ 23 % 2 ^ 8
  let fraction := v.toNat % 2 ^ 23
  let magnitude :=
    if exponent = 255 then
      -- an infinity, or a NaN, which becomes a quiet one
      2047 * 2 ^ 52 + if fraction = 0 then 0 else 2 ^ 51 ||| fraction * 2 ^ 29
    else if 0 < exponent then (exponent + 896) * 2 ^ 52 + fraction * 2 ^ 29
    else if fraction = 0 then 0
    else
      -- a denormalized `float` is a normalized `double`
      (Nat.log2 fraction + 874) * 2 ^ 52 + (fraction * 2 ^ (52 - Nat.log2 fraction) - 2 ^ 52)
  BitVec.ofNat 64 (sign * 2 ^ 63 + magnitude)

/-- What `operator<<` takes, and `append`. -/
inductive LogItem
  | bool (v : Bool)
  | number (x : LogNumber)
  | float (v : BitVec 32)
  | double (v : BitVec 64)
  | char (v : Byte)
  /-- `const char*`: the octets in front of the NUL, or a null pointer. -/
  | cString (str : Option Bytes)
  /-- `const unsigned char*`. -/
  | unsignedCString (str : Option Bytes)
  | string (str : Bytes)
  /-- `const Buffer&`. -/
  | buffer (v : LogStream)
  /-- `append(data, len)`. -/
  | data (data : Bytes)

namespace LogStream

/-- The constructor; `data_` is not initialized. -/
def ctor (data_ : CharArray kSmallBuffer) : LogStream := ⟨data_, 0⟩

/-- `length()`. -/
def length (s : LogStream) : ℤ := s.cur_

/-- `static_cast<size_t>(v)`. -/
def toSizeT (v : ℤ) : ℕ := (v % 2 ^ 64).toNat

/-- `FixedBufferff::append(buf, len)`. -/
def append (s : LogStream) (buf : Bytes) : Except Fault LogStream := do
  let len := if toSizeT s.avail < buf.length then toSizeT s.avail else buf.length
  let data ← s.data_.write s.cur_ (buf.take len)
  .ok { data_ := data, cur_ := s.cur_ + len }

/-- `operator<<(const char*)`. -/
def insertCString (s : LogStream) (str : Option Bytes) : Except Fault LogStream :=
  match str with
  | some str => s.append str
  | none => s.append (octets "(null)".toList)

variable (g12 : BitVec 64 → Bytes)

/-- `operator<<(double)`; `snprintf` ends what it writes with a NUL, and returns the length the text
has, even if it does not fit. -/
def insertDouble (s : LogStream) (v : BitVec 64) : Except Fault LogStream :=
  if kMaxNumericSize ≤ s.avail then do
    let data ← s.data_.write s.cur_ (snprintf kMaxNumericSize.toNat (g12 v) ++ [0])
    .ok { data_ := data, cur_ := s.cur_ + (g12 v).length }
  else .ok s

/-- `operator<<`. -/
def insertItem (s : LogStream) : LogItem → Except Fault LogStream
  | .bool v => s.append (octets (if v then "1".toList else "0".toList))
  | .number x => s.insert x
  | .float v => s.insertDouble g12 (floatToDouble v)
  | .double v => s.insertDouble g12 v
  | .char v => s.append [v]
  | .cString str => s.insertCString str
  | .unsignedCString str => s.insertCString str
  | .string str => s.append str
  | .buffer v => s.append v.text
  | .data data => s.append data

/-- A statement that inserts one thing after the other. -/
def machine : Machine LogStream LogItem Fault := ⟨fun s item => s.insertItem g12 item⟩

/-! ## What an insertion comes to -/

variable {s : LogStream}

/-- **Text** is cut off at the end of the array. -/
lemma append_spec (h : s.Fits) (buf : Bytes) :
    ∃ t, s.append buf = .ok t ∧ t.Fits ∧
      t.text = s.text ++ buf.take (kSmallBuffer - s.cur_) := by
  have hfits : s.cur_ ≤ 4000 := h
  have havail : toSizeT s.avail = kSmallBuffer - s.cur_ := by
    unfold toSizeT avail kSmallBuffer
    omega
  have hlen : (if toSizeT s.avail < buf.length then toSizeT s.avail else buf.length) =
      (buf.take (kSmallBuffer - s.cur_)).length := by
    rw [havail, List.length_take]
    split <;> omega
  have htake : buf.take (buf.take (kSmallBuffer - s.cur_)).length =
      buf.take (kSmallBuffer - s.cur_) := by
    rw [List.take_eq_take_iff, List.length_take]
    omega
  have hroom : s.cur_ + (buf.take (kSmallBuffer - s.cur_)).length ≤ kSmallBuffer := by
    rw [List.length_take]
    unfold kSmallBuffer
    omega
  obtain ⟨a, ha, hwindow⟩ := s.data_.write_spec s.cur_ _ hroom
  refine ⟨⟨a, s.cur_ + (buf.take (kSmallBuffer - s.cur_)).length⟩, ?_, hroom, hwindow⟩
  rw [append, hlen, htake, ha, ok_bind]

/-- So text for which there is room is appended whole. -/
lemma append_whole (h : s.Fits) {buf : Bytes} (hbuf : s.cur_ + buf.length ≤ kSmallBuffer) :
    ∃ t, s.append buf = .ok t ∧ t.Fits ∧ t.text = s.text ++ buf := by
  obtain ⟨t, ht, hfits, htext⟩ := append_spec h buf
  rw [List.take_of_length_le (by omega)] at htext
  exact ⟨t, ht, hfits, htext⟩

/-- A **`double`** of at most 31 characters has its NUL inside of the array, too. -/
lemma insertDouble_spec (hroom : kMaxNumericSize ≤ s.avail) {v : BitVec 64}
    (hv : (g12 v).length ≤ 31) :
    ∃ t, s.insertDouble g12 v = .ok t ∧ t.Fits ∧ t.text = s.text ++ g12 v := by
  have hspace := space_of_room hroom
  have hwhole : snprintf kMaxNumericSize.toNat (g12 v) = g12 v :=
    snprintf_of_lt (Nat.lt_succ_of_le hv)
  obtain ⟨a, ha, htext⟩ := s.data_.write_nul s.cur_ (g12 v) (by omega)
  refine ⟨⟨a, s.cur_ + (g12 v).length⟩, ?_, ?_, htext⟩
  · rw [insertDouble, if_pos hroom, hwhole, ha, ok_bind]
  · exact (Nat.add_le_add_left hv _).trans (by omega)

end LogStream

/-- The text of a number, as its conversion has it. -/
def LogItem.numberText (g12 : BitVec 64 → Bytes) : LogItem → Option Bytes
  | .bool v => some (octets (if v then "1".toList else "0".toList))
  | .number x => some x.inserted
  | .float v => some (g12 (floatToDouble v))
  | .double v => some (g12 v)
  | _ => none

namespace LogStream

variable {g12 : BitVec 64 → Bytes} {s : LogStream}

/-- A number has its text appended, or is passed over. -/
def Whole (s t : LogStream) (text : Bytes) : Prop := t.text = s.text ∨ t.text = s.text ++ text

/-- A **number** finds room for the whole of it, or is left out. -/
lemma number_spec (h : s.Fits) {item : LogItem} {text : Bytes}
    (hg12 : ∀ v, (g12 v).length ≤ 31) (htext : item.numberText g12 = some text) :
    ∃ t, s.insertItem g12 item = .ok t ∧ t.Fits ∧ s.Whole t text := by
  have hdouble : ∀ v, ∃ t, s.insertDouble g12 v = .ok t ∧ t.Fits ∧ s.Whole t (g12 v) := by
    intro v
    by_cases hroom : kMaxNumericSize ≤ s.avail
    · obtain ⟨t, ht, hfits, heq⟩ := insertDouble_spec g12 hroom (hg12 v)
      exact ⟨t, ht, hfits, Or.inr heq⟩
    · exact ⟨s, if_neg hroom, h, Or.inl rfl⟩
  cases item with
  | bool v =>
    cases htext
    obtain ⟨t, ht, hfits, heq⟩ := append_spec h (octets (if v then "1".toList else "0".toList))
    refine ⟨t, ht, hfits, ?_⟩
    -- one character is cut off to nothing, or not at all
    have hone : (octets (if v then "1".toList else "0".toList)).length = 1 := by
      cases v <;> rfl
    rcases Nat.eq_zero_or_pos (kSmallBuffer - s.cur_) with hfull | hroom
    · rw [hfull, List.take_zero, List.append_nil] at heq
      exact Or.inl heq
    · rw [List.take_of_length_le (by omega)] at heq
      exact Or.inr heq
  | number x =>
    cases htext
    by_cases hroom : kMaxNumericSize ≤ s.avail
    · obtain ⟨t, ht, hfits, heq⟩ := insert_spec hroom x
      exact ⟨t, ht, hfits, Or.inr heq⟩
    · exact ⟨s, insert_of_full hroom x, h, Or.inl rfl⟩
  | float v =>
    cases htext
    exact hdouble _
  | double v =>
    cases htext
    exact hdouble _
  | char _ | cString _ | unsignedCString _ | string _ | buffer _ | data _ => cases htext

/-- **Every insertion** stays inside of the array. -/
lemma insertItem_fits (h : s.Fits) (hg12 : ∀ v, (g12 v).length ≤ 31) (item : LogItem) :
    ∃ t, s.insertItem g12 item = .ok t ∧ t.Fits := by
  have happend : ∀ buf, ∃ t, s.append buf = .ok t ∧ t.Fits := by
    intro buf
    obtain ⟨t, ht, hfits, -⟩ := append_spec h buf
    exact ⟨t, ht, hfits⟩
  have hcString : ∀ str, ∃ t, s.insertCString str = .ok t ∧ t.Fits := by
    rintro (_ | str)
    · exact happend _
    · exact happend str
  have hnumber : ∀ text, item.numberText g12 = some text →
      ∃ t, s.insertItem g12 item = .ok t ∧ t.Fits := by
    intro text htext
    obtain ⟨t, ht, hfits, -⟩ := number_spec h hg12 htext
    exact ⟨t, ht, hfits⟩
  cases item with
  | bool _ | number _ | float _ | double _ => exact hnumber _ rfl
  | cString str | unsignedCString str => exact hcString str
  | char _ | string _ | buffer _ | data _ => exact happend _

/-- **The stream is never overrun**: whatever is inserted, in any order, each octet is written
inside of the array, the length keeps its bound, and a number is appended whole or not at all. -/
theorem never_overruns (hg12 : ∀ v, (g12 v).length ≤ 31) (data_ : CharArray kSmallBuffer)
    (items : List LogItem) :
    ∃ s, (machine g12).run (ctor data_) items = .ok s ∧ 0 ≤ s.length ∧
      s.length ≤ kSmallBuffer ∧
      ∀ item text, item.numberText g12 = some text →
        ∃ t, s.insertItem g12 item = .ok t ∧ s.Whole t text := by
  have hctor : (ctor data_).Fits := Nat.zero_le _
  obtain ⟨s, hrun, hfits⟩ := (machine g12).run_total
    (fun s item h => insertItem_fits h hg12 item) hctor items
  refine ⟨s, hrun, Int.natCast_nonneg _, Int.ofNat_le.mpr hfits, fun item text htext => ?_⟩
  obtain ⟨t, ht, -, hwhole⟩ := number_spec hfits hg12 htext
  exact ⟨t, ht, hwhole⟩

/-- Two times 3990 octets, and the least `long` and 1.5 in between and behind. -/
theorem never_overruns_full :
    let g12 : BitVec 64 → Bytes := fun _ => octets "1.5".toList
    let text := List.replicate 3990 (120 : Byte)
    ∃ s, (machine g12).run (ctor empty.data_) [.string text, .number (.long (1 <<< 63)),
        .string text, .double 0x3FF8000000000000] = .ok s ∧ 0 ≤ s.length ∧
      s.length ≤ kSmallBuffer ∧
      ∀ item text, item.numberText g12 = some text →
        ∃ t, s.insertItem g12 item = .ok t ∧ s.Whole t text :=
  never_overruns (fun _ => by decide) _ _

end LogStream

end Firey
