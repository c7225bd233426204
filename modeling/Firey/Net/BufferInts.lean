import Firey.Framework.Endian
import Firey.Net.BufferCalls

/-!
# Integers in a buffer

`Bufferff` appends, prepends, peeks at and reads integers of four widths, in network order.  A
value of `intN_t` is a word of `N` bits, read as two's complement (`toInt`).  The functions of one
kind differ in the width alone, but for those of `int8_t`, which call nothing of `endian.h`; in
terms of the readable octets all of them come to `encode` (`appendInt_eq`, `prependInt_eq`,
`readInt_spec`).

The two results are about every host: a stream of integers of mixed widths comes back as it was
appended (`ints_round_trip`), and a length can always be prepended to a message by a program that
has not prepended before (`prependInt_round_trip`).
-/

set_option autoImplicit false

namespace Firey

/-- The integer types the buffer knows. -/
inductive IntWidth
  | int8
  | int16
  | int32
  | int64
  deriving DecidableEq, Repr

/-- `sizeof`. -/
def IntWidth.size : IntWidth → ℕ
  | .int8 => 1
  | .int16 => 2
  | .int32 => 4
  | .int64 => 8

/-- The values of the type. -/
abbrev IntWidth.Value (w : IntWidth) : Type := BitVec (8 * w.size)

/-- An integer together with its type. -/
abbrev TypedInt : Type := (w : IntWidth) × w.Value

/-- The big-endian two's-complement octets of an integer. -/
def TypedInt.encode (x : TypedInt) : Bytes := Endian.twosComplement x.1.size x.2.toInt

lemma TypedInt.encode_eq (x : TypedInt) : x.encode = Endian.big.image x.2 :=
  (Endian.image_big x.2).symm

@[simp] lemma TypedInt.length_encode (x : TypedInt) : x.encode.length = x.1.size := by
  rw [x.encode_eq, Endian.length_image]

namespace Buffer

/-! ## The operations -/

section Host

variable (host : Endian)

def appendNetwork (w : IntWidth) (b : Buffer) (x : w.Value) : Except Fault Buffer :=
  b.append (host.image (host.htobe x))

def appendInt64 (b : Buffer) (x : IntWidth.int64.Value) : Except Fault Buffer :=
  appendNetwork host .int64 b x

def appendInt32 (b : Buffer) (x : IntWidth.int32.Value) : Except Fault Buffer :=
  appendNetwork host .int32 b x

def appendInt16 (b : Buffer) (x : IntWidth.int16.Value) : Except Fault Buffer :=
  appendNetwork host .int16 b x

/-- No conversion: one octet has no order. -/
def appendInt8 (b : Buffer) (x : IntWidth.int8.Value) : Except Fault Buffer :=
  b.append (host.image x)

def prependNetwork (w : IntWidth) (b : Buffer) (x : w.Value) : Except Fault Buffer :=
  b.prepend (host.image (host.htobe x))

def prependInt64 (b : Buffer) (x : IntWidth.int64.Value) : Except Fault Buffer :=
  prependNetwork host .int64 b x

def prependInt32 (b : Buffer) (x : IntWidth.int32.Value) : Except Fault Buffer :=
  prependNetwork host .int32 b x

def prependInt16 (b : Buffer) (x : IntWidth.int16.Value) : Except Fault Buffer :=
  prependNetwork host .int16 b x

def prependInt8 (b : Buffer) (x : IntWidth.int8.Value) : Except Fault Buffer :=
  b.prepend (host.image x)

def peekNetwork (w : IntWidth) (b : Buffer) : Except Fault w.Value := do
  check .peekInt (w.size ≤ b.readableBytes)
  .ok (host.betoh (host.load w.size (b.readable.take w.size)))

def peekInt64 (b : Buffer) : Except Fault IntWidth.int64.Value := peekNetwork host .int64 b

def peekInt32 (b : Buffer) : Except Fault IntWidth.int32.Value := peekNetwork host .int32 b

def peekInt16 (b : Buffer) : Except Fault IntWidth.int16.Value := peekNetwork host .int16 b

/-- `*peek()`. -/
def peekInt8 (b : Buffer) : Except Fault IntWidth.int8.Value := do
  check .peekInt (IntWidth.int8.size ≤ b.readableBytes)
  .ok (b.readable.headD 0).toBitVec

def retrieveInt64 (b : Buffer) : Except Fault Buffer := b.retrieve IntWidth.int64.size

def retrieveInt32 (b : Buffer) : Except Fault Buffer := b.retrieve IntWidth.int32.size

def retrieveInt16 (b : Buffer) : Except Fault Buffer := b.retrieve IntWidth.int16.size

def retrieveInt8 (b : Buffer) : Except Fault Buffer := b.retrieve IntWidth.int8.size

def readInt64 (b : Buffer) : Except Fault (IntWidth.int64.Value × Buffer) := do
  let result ← peekInt64 host b
  let b' ← retrieveInt64 b
  .ok (result, b')

def readInt32 (b : Buffer) : Except Fault (IntWidth.int32.Value × Buffer) := do
  let result ← peekInt32 host b
  let b' ← retrieveInt32 b
  .ok (result, b')

def readInt16 (b : Buffer) : Except Fault (IntWidth.int16.Value × Buffer) := do
  let result ← peekInt16 host b
  let b' ← retrieveInt16 b
  .ok (result, b')

def readInt8 (b : Buffer) : Except Fault (IntWidth.int8.Value × Buffer) := do
  let result ← peekInt8 b
  let b' ← retrieveInt8 b
  .ok (result, b')

/-! ## All widths -/

def appendInt (b : Buffer) : (w : IntWidth) → w.Value → Except Fault Buffer
  | .int8 => appendInt8 host b
  | .int16 => appendInt16 host b
  | .int32 => appendInt32 host b
  | .int64 => appendInt64 host b

def prependInt (b : Buffer) : (w : IntWidth) → w.Value → Except Fault Buffer
  | .int8 => prependInt8 host b
  | .int16 => prependInt16 host b
  | .int32 => prependInt32 host b
  | .int64 => prependInt64 host b

def peekInt (b : Buffer) : (w : IntWidth) → Except Fault w.Value
  | .int8 => peekInt8 b
  | .int16 => peekInt16 host b
  | .int32 => peekInt32 host b
  | .int64 => peekInt64 host b

def readInt (b : Buffer) : (w : IntWidth) → Except Fault (w.Value × Buffer)
  | .int8 => readInt8 b
  | .int16 => readInt16 host b
  | .int32 => readInt32 host b
  | .int64 => readInt64 host b

/-- Append a list of integers. -/
def appendInts (b : Buffer) : List TypedInt → Except Fault Buffer
  | [] => .ok b
  | ⟨w, x⟩ :: xs => do
      let b' ← appendInt host b w x
      appendInts b' xs

/-- Read integers of a list of widths, peeking at each before it is read: what was peeked at,
and what was read. -/
def readInts (b : Buffer) : List IntWidth → Except Fault (List (TypedInt × TypedInt) × Buffer)
  | [] => .ok ([], b)
  | w :: ws => do
      let peeked ← peekInt host b w
      let (x, b') ← readInt host b w
      let (rest, b'') ← readInts b' ws
      .ok ((⟨w, peeked⟩, ⟨w, x⟩) :: rest, b'')

end Host

/-! ## In terms of octets -/

variable {host : Endian} {b : Buffer}

lemma image_eq_encode (x : IntWidth.int8.Value) : host.image x = TypedInt.encode ⟨.int8, x⟩ := by
  rw [TypedInt.encode_eq]
  cases host <;> rfl

lemma appendInt_eq (w : IntWidth) (x : w.Value) :
    appendInt host b w x = b.append (TypedInt.encode ⟨w, x⟩) := by
  have hnet : ∀ (w : IntWidth) (x : w.Value),
      appendNetwork host w b x = b.append (TypedInt.encode ⟨w, x⟩) := by
    intro w x
    rw [appendNetwork, Endian.image_htobe, TypedInt.encode_eq]
  cases w with
  | int8 => exact congrArg b.append (image_eq_encode x)
  | int16 => exact hnet .int16 x
  | int32 => exact hnet .int32 x
  | int64 => exact hnet .int64 x

lemma prependInt_eq (w : IntWidth) (x : w.Value) :
    prependInt host b w x = b.prepend (TypedInt.encode ⟨w, x⟩) := by
  have hnet : ∀ (w : IntWidth) (x : w.Value),
      prependNetwork host w b x = b.prepend (TypedInt.encode ⟨w, x⟩) := by
    intro w x
    rw [prependNetwork, Endian.image_htobe, TypedInt.encode_eq]
  cases w with
  | int8 => exact congrArg b.prepend (image_eq_encode x)
  | int16 => exact hnet .int16 x
  | int32 => exact hnet .int32 x
  | int64 => exact hnet .int64 x

/-- What is peeked at is the integer whose octets come first. -/
lemma peekInt_spec (h : b.WF) {w : IntWidth} {x : w.Value} {rest : Bytes}
    (hread : b.readable = TypedInt.encode ⟨w, x⟩ ++ rest) : peekInt host b w = .ok x := by
  have hlen : (TypedInt.encode ⟨w, x⟩).length = w.size := TypedInt.length_encode _
  have hroom : w.size ≤ b.readableBytes := by
    rw [← h.length_readable, hread, List.length_append, hlen]
    exact Nat.le_add_right _ _
  have htake : b.readable.take w.size = TypedInt.encode ⟨w, x⟩ := by
    rw [hread, List.take_left' hlen]
  have hnet : peekNetwork host w b = .ok x := by
    rw [peekNetwork, check_true hroom, ok_bind, htake, TypedInt.encode_eq,
      Endian.betoh_load _ (Endian.length_image _ _), Endian.load_image]
  cases w with
  | int8 =>
    have hhead : b.readable.headD 0 = UInt8.ofNat x.toNat := by
      rw [hread, TypedInt.encode_eq]
      rfl
    have hword : (UInt8.ofNat x.toNat).toBitVec = x :=
      BitVec.eq_of_toNat_eq (Nat.mod_eq_of_lt x.isLt)
    rw [peekInt, peekInt8, check_true hroom, ok_bind, hhead, hword]
  | int16 => exact hnet
  | int32 => exact hnet
  | int64 => exact hnet

/-- Reading is peeking and retrieving as many octets. -/
lemma readInt_eq (w : IntWidth) : readInt host b w = (do
    let x ← peekInt host b w
    let b' ← b.retrieve w.size
    .ok (x, b')) := by
  cases w <;> rfl

/-- The integer whose octets come first is read, and they are gone. -/
lemma readInt_spec (host : Endian) (h : b.WF) {w : IntWidth} {x : w.Value} {rest : Bytes}
    (hread : b.readable = TypedInt.encode ⟨w, x⟩ ++ rest) :
    ∃ b', readInt host b w = .ok (x, b') ∧ b'.WF ∧ b'.readable = rest := by
  have hlen : (TypedInt.encode ⟨w, x⟩).length = w.size := TypedInt.length_encode _
  have hroom : w.size ≤ b.readableBytes := by
    rw [← h.length_readable, hread, List.length_append, hlen]
    exact Nat.le_add_right _ _
  obtain ⟨b', hret, hwf, hrest⟩ := retrieve_spec h hroom
  refine ⟨b', ?_, hwf, ?_⟩
  · rw [readInt_eq, peekInt_spec h hread, ok_bind, hret, ok_bind]
  · rw [hrest, hread, List.drop_left' hlen]

/-! ## Streams of integers -/

/-- Appending a list of integers appends their octets. -/
lemma appendInts_spec (host : Endian) (h : b.WF) (xs : List TypedInt) :
    ∃ b', appendInts host b xs = .ok b' ∧ b'.WF ∧
      b'.readable = b.readable ++ xs.flatMap TypedInt.encode := by
  induction xs generalizing b with
  | nil => exact ⟨b, rfl, h, (List.append_nil _).symm⟩
  | cons x xs ih =>
    obtain ⟨w, x⟩ := x
    obtain ⟨c, hc, hwf, hread⟩ := append_spec h (TypedInt.encode ⟨w, x⟩)
    obtain ⟨d, hd, hwf', hread'⟩ := ih hwf
    refine ⟨d, ?_, hwf', ?_⟩
    · rw [appendInts, appendInt_eq, hc, ok_bind, hd]
    · rw [hread', hread, List.flatMap_cons, List.append_assoc]

/-- Reading with the same widths takes the list up again, from the front. -/
lemma readInts_spec (host : Endian) (h : b.WF) (xs : List TypedInt) {rest : Bytes}
    (hread : b.readable = xs.flatMap TypedInt.encode ++ rest) :
    ∃ b', readInts host b (xs.map Sigma.fst) = .ok (xs.map fun x => (x, x), b') ∧ b'.WF ∧
      b'.readable = rest := by
  induction xs generalizing b with
  | nil => exact ⟨b, rfl, h, hread⟩
  | cons x xs ih =>
    obtain ⟨w, x⟩ := x
    rw [List.flatMap_cons, List.append_assoc] at hread
    obtain ⟨c, hc, hwf, hread'⟩ := readInt_spec host h hread
    obtain ⟨d, hd, hwf', hrest⟩ := ih hwf hread'
    refine ⟨d, ?_, hwf', hrest⟩
    rw [List.map_cons, readInts, peekInt_spec h hread, ok_bind, hc, ok_bind]
    dsimp only
    rw [hd, ok_bind, List.map_cons]

/-- **Streams of integers come back as they were appended**, on every host: any list of integers
of mixed widths, behind anything that was in the buffer before. -/
theorem ints_round_trip (host : Endian) {b : Buffer} (h : Reachable b) (xs : List TypedInt) :
    ∃ b₁, appendInts host b xs = .ok b₁ ∧
      b₁.readable = b.readable ++ xs.flatMap TypedInt.encode ∧
      ∃ b₂, b₁.retrieve b.readable.length = .ok b₂ ∧
        ∃ b₃, readInts host b₂ (xs.map Sigma.fst) = .ok (xs.map fun x => (x, x), b₃) ∧
          b₃.readable = [] := by
  obtain ⟨b₁, happ, hwf₁, hread₁⟩ := appendInts_spec host h.wf xs
  have hroom : b.readable.length ≤ b₁.readableBytes := by
    rw [← hwf₁.length_readable, hread₁, List.length_append]
    exact Nat.le_add_right _ _
  obtain ⟨b₂, hret, hwf₂, hread₂⟩ := retrieve_spec hwf₁ hroom
  rw [hread₁, List.drop_left] at hread₂
  obtain ⟨b₃, hints, -, hread₃⟩ :=
    readInts_spec host hwf₂ xs (hread₂.trans (List.append_nil _).symm)
  exact ⟨b₁, happ, hread₁, b₂, hret, b₃, hints, hread₃⟩

/-- The least `int16_t`, a negative `int8_t` and an `int64_t`, behind one octet. -/
theorem ints_round_trip_mixed : ∃ b, Reachable b ∧ b.readable = [7] ∧
    ∃ b₁, appendInts .little b [⟨.int16, 0x8000⟩, ⟨.int8, 0xff⟩, ⟨.int64, 258⟩] = .ok b₁ ∧
      b₁.readable = [7, 128, 0, 255, 0, 0, 0, 0, 0, 0, 1, 2] := by
  have hcall : ∃ b, (Op.append [7]).apply (ofInitialSize 4) = .ok b ∧ b.readable = [7] := by
    decide +kernel
  obtain ⟨b, hb, hread⟩ := hcall
  have hreach : Reachable b := .call _ (.ofInitialSize 4) trivial hb
  obtain ⟨b₁, happ, hread₁, -⟩ :=
    ints_round_trip .little hreach [⟨.int16, 0x8000⟩, ⟨.int8, 0xff⟩, ⟨.int64, 258⟩]
  rw [hread] at hread₁
  exact ⟨b, hreach, hread, b₁, happ, hread₁.trans (by decide +kernel)⟩

/-! ## Lengths in front -/

lemma IntWidth.size_le_cheapPrepend (w : IntWidth) : w.size ≤ kCheapPrepend := by
  cases w <;> decide

/-- **A length can always be prepended**, on every host and at every width, by a program that has
not prepended before; it is read back, the message is left as it was, and whatever is called on
the buffer after either of the two calls works. -/
theorem prependInt_round_trip (host : Endian) {b : Buffer} (h : Unprepended b) (w : IntWidth)
    (x : w.Value) :
    kCheapPrepend ≤ b.prependableBytes ∧
      ∃ b₁, prependInt host b w x = .ok b₁ ∧
        b₁.readable = TypedInt.encode ⟨w, x⟩ ++ b.readable ∧ b₁.Works ∧
        ∃ b₂, readInt host b₁ w = .ok (x, b₂) ∧ b₂.readable = b.readable ∧ b₂.Works := by
  have hprep : kCheapPrepend ≤ b.prependableBytes := cheapPrepend_le h
  have hroom : (TypedInt.encode ⟨w, x⟩).length ≤ b.prependableBytes := by
    rw [TypedInt.length_encode]
    exact (IntWidth.size_le_cheapPrepend w).trans hprep
  obtain ⟨b₁, hpre, hwf₁, hread₁⟩ := prepend_spec h.wf hroom
  obtain ⟨b₂, hint, hwf₂, hread₂⟩ := readInt_spec host hwf₁ hread₁
  refine ⟨hprep, b₁, ?_, hread₁, hwf₁.works, b₂, hint, hread₂, hwf₂.works⟩
  rw [prependInt_eq, hpre]

/-- A message of two octets and its length as an `int32_t`. -/
theorem prependInt_round_trip_message : ∃ b, Unprepended b ∧ b.readable = [104, 105] ∧
    ∃ b₁, prependInt .little b .int32 2 = .ok b₁ ∧ b₁.readable = [0, 0, 0, 2, 104, 105] := by
  have hcall : ∃ b, (Op.append [104, 105]).apply (ofInitialSize 4) = .ok b ∧
      b.readable = [104, 105] := by
    decide +kernel
  obtain ⟨b, hb, hread⟩ := hcall
  have hreach : Unprepended b := .call _ (.ofInitialSize 4) id hb
  obtain ⟨-, b₁, hpre, hread₁, -⟩ := prependInt_round_trip .little hreach .int32 2
  rw [hread] at hread₁
  exact ⟨b, hreach, hread, b₁, hpre, hread₁.trans (by decide +kernel)⟩

end Buffer

end Firey
