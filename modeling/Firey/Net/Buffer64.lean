import Firey.Net.BufferCalls

/-!
# `Bufferff` with the `size_t` of the machine

In `Firey.Net.Buffer` a length is a number.  Here it is a word of 64 bits and its arithmetic
wraps, as in the source: the sums `kCheapPrepend + initialSize`, `len + kCheapPrepend`,
`writerIndex_ + len` and `readableBytes() + reserve`, the differences of indices, and the
conversion to `int` and back in `toString`.  `std::vector::resize` throws above its `max_size`, and
what is copied to or from memory outside of the storage is a fault.

`toBuffer` forgets the width, and `Fits` is the condition under which that is right: the length
asked for makes no sum wrap.
-/

set_option autoImplicit false

namespace Firey

abbrev SizeT := BitVec 64

/-- `max_size()`: no object in memory has more octets. -/
def maxSize : ℕ := 2 ^ 63 - 1

/-- The octets of an object: a `std::vector<char>`, a `std::string`, or what a caller points to. -/
@[ext]
structure Block where
  octets : Bytes
  bounded : octets.length ≤ maxSize
  deriving DecidableEq

namespace Block

def size (v : Block) : SizeT := BitVec.ofNat 64 v.octets.length

/-- `std::vector<char>::resize`, and `none` when it throws. -/
def resize (v : Block) (n : SizeT) : Option Block :=
  if h : n.toNat ≤ maxSize then
    some {
      octets := v.octets.take n.toNat ++ List.replicate (n.toNat - v.octets.length) 0
      bounded := by
        rw [List.length_append, List.length_take, List.length_replicate]
        omega }
  else none

/-- Read `len` octets from the index `i` on. -/
def read (v : Block) (i len : ℕ) : Except Fault Block :=
  if len = 0 then .ok ⟨[], Nat.zero_le _⟩
  else if i + len ≤ v.octets.length then
    .ok {
      octets := window v.octets i (i + len)
      bounded := by
        rw [window, List.length_take, List.length_drop]
        exact (Nat.min_le_right _ _).trans ((Nat.sub_le _ _).trans v.bounded) }
  else .error .outOfBounds

/-- Write `data` from the index `i` on. -/
def write (v : Block) (i : ℕ) (data : Bytes) : Except Fault Block :=
  if data = [] then .ok v
  else if h : i + data.length ≤ v.octets.length then
    .ok {
      octets := overwrite v.octets i data
      bounded := by
        rw [length_overwrite h]
        exact v.bounded }
  else .error .outOfBounds

end Block

structure Buffer64 where
  buffer : Block
  readerIndex : SizeT
  writerIndex : SizeT
  deriving DecidableEq

namespace Buffer64

/-- How a call on a buffer comes back, and the buffer it leaves: it returns, or
`std::length_error` leaves it. -/
inductive Outcome
  | returned (b : Buffer64)
  | threw (b : Buffer64)
  deriving DecidableEq

def Outcome.buffer : Outcome → Buffer64
  | .returned b => b
  | .threw b => b

/-! ## The operations -/

def kCheapPrepend : SizeT := 8

def kInitialSize : SizeT := 1024

/-- The constructor; `none` when the vector cannot be that large. -/
def ofInitialSize (initialSize : SizeT) : Option Buffer64 :=
  let n := kCheapPrepend + initialSize
  if h : n.toNat ≤ maxSize then
    some {
      buffer := ⟨List.replicate n.toNat 0, by rwa [List.length_replicate]⟩
      readerIndex := kCheapPrepend
      writerIndex := kCheapPrepend }
  else none

def readableBytes (b : Buffer64) : SizeT := b.writerIndex - b.readerIndex

def writableBytes (b : Buffer64) : SizeT := b.buffer.size - b.writerIndex

def prependableBytes (b : Buffer64) : SizeT := b.readerIndex

/-- The range from `peek()` to `beginWrite()`. -/
def readable (b : Buffer64) : Bytes :=
  window b.buffer.octets b.readerIndex.toNat b.writerIndex.toNat

def retrieveAll (b : Buffer64) : Buffer64 :=
  { b with readerIndex := kCheapPrepend, writerIndex := kCheapPrepend }

def retrieve (b : Buffer64) (len : SizeT) : Except Fault Buffer64 := do
  check .retrieve (len ≤ b.readableBytes)
  if len < b.readableBytes then
    .ok { b with readerIndex := b.readerIndex + len }
  else
    .ok b.retrieveAll

/-- `retrieveUntil`; the pointer is an index into the storage. -/
def retrieveUntil (b : Buffer64) (stop : SizeT) : Except Fault Buffer64 := do
  check .retrieveUntil (b.readerIndex ≤ stop ∧ stop ≤ b.writerIndex)
  b.retrieve (stop - b.readerIndex)

/-- `std::string(peek(), len)`; `none` when it throws. -/
def newString (b : Buffer64) (len : SizeT) : Except Fault (Option Block) :=
  if len.toNat ≤ maxSize then do
    let s ← b.buffer.read b.readerIndex.toNat len.toNat
    .ok (some s)
  else .ok none

def retrieveAsString (b : Buffer64) (len : SizeT) : Except Fault (Option Block × Buffer64) := do
  check .retrieveAsString (len ≤ b.readableBytes)
  match ← b.newString len with
  | none => .ok (none, b)
  | some result => do
      let b' ← b.retrieve len
      .ok (some result, b')

def retrieveAllAsString (b : Buffer64) : Except Fault (Option Block × Buffer64) :=
  b.retrieveAsString b.readableBytes

/-- `toString`: the length becomes an `int`, and a `size_t` again as the argument of the
constructor of `std::string`. -/
def toString (b : Buffer64) : Except Fault (Option Block) :=
  let len : BitVec 32 := b.readableBytes.setWidth 32
  b.newString (len.signExtend 64)

def makeSpace (b : Buffer64) (len : SizeT) : Except Fault Outcome :=
  if b.writableBytes + b.prependableBytes < len + kCheapPrepend then
    match b.buffer.resize (b.writerIndex + len) with
    | some v => .ok (.returned { b with buffer := v })
    | none => .ok (.threw b)
  else do
    check .makeSpaceReader (kCheapPrepend < b.readerIndex)
    let readable := b.readableBytes
    let content ← b.buffer.read b.readerIndex.toNat readable.toNat
    let v ← b.buffer.write kCheapPrepend.toNat content.octets
    let b' : Buffer64 :=
      { buffer := v, readerIndex := kCheapPrepend, writerIndex := kCheapPrepend + readable }
    check .makeSpaceReadable (readable = b'.readableBytes)
    .ok (.returned b')

def ensureWritableBytes (b : Buffer64) (len : SizeT) : Except Fault Outcome :=
  if b.writableBytes < len then do
    match ← b.makeSpace len with
    | .threw b' => .ok (.threw b')
    | .returned b' => do
        check .ensureWritableBytes (len ≤ b'.writableBytes)
        .ok (.returned b')
  else do
    check .ensureWritableBytes (len ≤ b.writableBytes)
    .ok (.returned b)

/-- `data` is copied to `beginWrite()` and `writerIndex_` moved behind it. -/
def store (b : Buffer64) (data : Bytes) : Except Fault Buffer64 := do
  let v ← b.buffer.write b.writerIndex.toNat data
  .ok { b with buffer := v, writerIndex := b.writerIndex + BitVec.ofNat 64 data.length }

/-- `hasWritten(len)` once `data` has been copied to `beginWrite()`. -/
def hasWritten (b : Buffer64) (data : Block) : Except Fault Buffer64 := do
  check .hasWritten (data.size ≤ b.writableBytes)
  b.store data.octets

def append (b : Buffer64) (data : Block) : Except Fault Outcome := do
  match ← b.ensureWritableBytes data.size with
  | .threw b' => .ok (.threw b')
  | .returned b' => do
      let b'' ← b'.hasWritten data
      .ok (.returned b'')

def unwrite (b : Buffer64) (len : SizeT) : Except Fault Buffer64 := do
  check .unwrite (len ≤ b.readableBytes)
  .ok { b with writerIndex := b.writerIndex - len }

def prepend (b : Buffer64) (data : Block) : Except Fault Buffer64 := do
  check .prepend (data.size ≤ b.prependableBytes)
  let readerIndex := b.readerIndex - data.size
  let v ← b.buffer.write readerIndex.toNat data.octets
  .ok { b with buffer := v, readerIndex := readerIndex }

/-- The buffer changes hands with `other` at the end, so an exception leaves it as it was. -/
def shrink (b : Buffer64) (reserve : SizeT) : Except Fault Outcome :=
  match ofInitialSize kInitialSize with
  | none => .ok (.threw b)
  | some other => do
      match ← other.ensureWritableBytes (b.readableBytes + reserve) with
      | .threw _ => .ok (.threw b)
      | .returned other => do
          match ← b.toString with
          | none => .ok (.threw b)
          | some content => do
              match ← other.append content with
              | .threw _ => .ok (.threw b)
              | .returned other => .ok (.returned other)

/-- `sizeof extrabuf` in `readFd`. -/
def extrabufSize : SizeT := 65536

/-- The octets `readFd` offers room for. -/
def readFdOffer (b : Buffer64) : ℕ :=
  b.writableBytes.toNat + if b.writableBytes < extrabufSize then extrabufSize.toNat else 0

/-- What the side buffer of `readFd` holds. -/
def extrabuf (data : Bytes) : Block where
  octets := data.take extrabufSize.toNat
  bounded := (List.length_take_le _ _).trans (by decide)

/-- `readFd`, as in the other model. -/
def readFd (b : Buffer64) : ReadResult → Except Fault Outcome
  | .failed _ => .ok (.returned b)
  | .got data => do
      let arrived := data.take b.readFdOffer
      let writable := b.writableBytes.toNat
      if arrived.length ≤ writable then
        let b' ← b.store arrived
        .ok (.returned b')
      else
        let full ← b.store (arrived.take writable)
        full.append (extrabuf (arrived.drop writable))

/-- A call of one of the operations that change the buffer. -/
inductive Call
  | append (data : Block)
  | prepend (data : Block)
  | retrieve (len : SizeT)
  | retrieveUntil (stop : SizeT)
  | retrieveAll
  | retrieveAsString (len : SizeT)
  | unwrite (len : SizeT)
  | ensureWritableBytes (len : SizeT)
  | hasWritten (data : Block)
  | shrink (reserve : SizeT)
  | readFd (r : ReadResult)
  deriving DecidableEq

/-- The buffer after the call, whether it returned or threw. -/
def step (b : Buffer64) : Call → Except Fault Buffer64
  | .append data => do
      let out ← b.append data
      .ok out.buffer
  | .prepend data => b.prepend data
  | .retrieve len => b.retrieve len
  | .retrieveUntil stop => b.retrieveUntil stop
  | .retrieveAll => .ok b.retrieveAll
  | .retrieveAsString len => do
      let (_, b') ← b.retrieveAsString len
      .ok b'
  | .unwrite len => b.unwrite len
  | .ensureWritableBytes len => do
      let out ← b.ensureWritableBytes len
      .ok out.buffer
  | .hasWritten data => b.hasWritten data
  | .shrink reserve => do
      let out ← b.shrink reserve
      .ok out.buffer
  | .readFd r => do
      let out ← b.readFd r
      .ok out.buffer

def machine : Machine Buffer64 Call Fault := ⟨step⟩

/-! ## Forgetting the width -/

/-- The buffer with numbers for its indices. -/
def toBuffer (b : Buffer64) : Buffer where
  buffer := b.buffer.octets
  readerIndex := b.readerIndex.toNat
  writerIndex := b.writerIndex.toNat

/-- The indices are in order. -/
def Sound (b : Buffer64) : Prop := b.toBuffer.WF

/-- The sums of `ensureWritableBytes(len)` stay below `2^64`. -/
def Fits (b : Buffer64) (len : SizeT) : Prop :=
  len.toNat + max kCheapPrepend.toNat b.writerIndex.toNat < 2 ^ 64

instance (b : Buffer64) (len : SizeT) : Decidable (b.Fits len) :=
  inferInstanceAs (Decidable (_ < _))

end Buffer64

/-! ## Blocks -/

namespace Block

@[simp] lemma toNat_size (v : Block) : v.size.toNat = v.octets.length := by
  have h := v.bounded
  unfold maxSize at h
  rw [size, BitVec.toNat_ofNat, Nat.mod_eq_of_lt (by omega)]

lemma read_ok (v : Block) {i len : ℕ} (h : i + len ≤ v.octets.length) :
    ∃ w, v.read i len = .ok w ∧ w.octets = window v.octets i (i + len) := by
  unfold read
  by_cases hz : len = 0
  · rw [if_pos hz, hz]
    exact ⟨_, rfl, (window_self _ _).symm⟩
  · rw [if_neg hz, if_pos h]
    exact ⟨_, rfl, rfl⟩

lemma write_ok (v : Block) {i : ℕ} (data : Bytes) (h : i + data.length ≤ v.octets.length) :
    ∃ w, v.write i data = .ok w ∧ w.octets = overwrite v.octets i data := by
  unfold write
  by_cases hz : data = []
  · rw [if_pos hz, hz]
    refine ⟨v, rfl, ?_⟩
    rw [overwrite, List.append_nil, List.length_nil, Nat.add_zero, List.take_append_drop]
  · rw [if_neg hz, dif_pos h]
    exact ⟨_, rfl, rfl⟩

/-- Growing keeps what was there. -/
lemma resize_grow {v : Block} {n : SizeT} (hn : v.octets.length ≤ n.toNat) :
    (v.resize n = none ∧ maxSize < n.toNat) ∨ ∃ w, v.resize n = some w ∧
      w.octets = v.octets ++ List.replicate (n.toNat - v.octets.length) 0 := by
  unfold resize
  split
  · exact Or.inr ⟨_, rfl, congrArg (· ++ _) (List.take_of_length_le hn)⟩
  · exact Or.inl ⟨rfl, by omega⟩

end Block

namespace Buffer64

variable {b : Buffer64}

/-! ## Indices in order -/

lemma Sound.reader_le (h : b.Sound) : b.readerIndex.toNat ≤ b.writerIndex.toNat := h.1

lemma Sound.writer_le (h : b.Sound) : b.writerIndex.toNat ≤ b.buffer.octets.length := h.2

lemma Sound.prepend_le (h : b.Sound) : 8 ≤ b.buffer.octets.length := h.3

lemma length_lt (b : Buffer64) : b.buffer.octets.length < 2 ^ 63 := by
  have h := b.buffer.bounded
  unfold maxSize at h
  omega

lemma Sound.toNat_readableBytes (h : b.Sound) :
    b.readableBytes.toNat = b.toBuffer.readableBytes := by
  have hr := h.reader_le
  have hw := b.writerIndex.isLt
  simp only [readableBytes, BitVec.toNat_sub, toBuffer, Buffer.readableBytes]
  omega

lemma Sound.toNat_writableBytes (h : b.Sound) :
    b.writableBytes.toNat = b.toBuffer.writableBytes := by
  have hw := h.writer_le
  have hlen := b.length_lt
  simp only [writableBytes, BitVec.toNat_sub, Block.toNat_size, toBuffer, Buffer.writableBytes]
  omega

lemma Sound.length_readable (h : b.Sound) : b.readable.length = b.readableBytes.toNat := by
  rw [h.toNat_readableBytes]
  exact Buffer.WF.length_readable h

end Buffer64

end Firey
