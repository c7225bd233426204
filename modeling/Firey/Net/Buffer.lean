import Firey.Fault
import Firey.Framework.Search
import Firey.Framework.Window

/-!
# `Bufferff`

The storage is a list of octets with two indices into it,

  `0 ≤ readerIndex ≤ writerIndex ≤ buffer.length`,

and the readable octets are the window between them.  `size_t` is `ℕ` here: the lengths in
play are those of objects in memory, so no sum below wraps.  The one conversion that does
lose something, the `static_cast<int>` of `toString`, is kept.

Each operation is followed by what it does under `WF`, in terms of `readable` alone; later
modules use these lemmas and never unfold an operation.
-/

set_option autoImplicit false

namespace Firey

/-- `Bufferff`. -/
structure Buffer where
  buffer : Bytes
  readerIndex : ℕ
  writerIndex : ℕ
  deriving DecidableEq, Repr

namespace Buffer

def kCheapPrepend : ℕ := 8

def kInitialSize : ℕ := 1024

/-- `sizeof extrabuf` in `readFd`. -/
def extrabufSize : ℕ := 65536

/-- `kCRLF`. -/
def kCRLF : Bytes := [13, 10]

/-! ## The operations -/

/-- The constructor. -/
def ofInitialSize (initialSize : ℕ) : Buffer where
  buffer := List.replicate (kCheapPrepend + initialSize) 0
  readerIndex := kCheapPrepend
  writerIndex := kCheapPrepend

/-- `swap` writes each buffer's fields into the other. -/
def swap (b rhs : Buffer) : Buffer × Buffer := (rhs, b)

def readableBytes (b : Buffer) : ℕ := b.writerIndex - b.readerIndex

def writableBytes (b : Buffer) : ℕ := b.buffer.length - b.writerIndex

def prependableBytes (b : Buffer) : ℕ := b.readerIndex

/-- The range from `peek()` to `beginWrite()`. -/
def readable (b : Buffer) : Bytes := window b.buffer b.readerIndex b.writerIndex

/-- `findCRLF()`, as an index into the storage. -/
def findCRLF (b : Buffer) : Option ℕ := (search kCRLF b.readable).map (b.readerIndex + ·)

def retrieveAll (b : Buffer) : Buffer :=
  { b with readerIndex := kCheapPrepend, writerIndex := kCheapPrepend }

def retrieve (b : Buffer) (len : ℕ) : Except Fault Buffer := do
  check .retrieve (len ≤ b.readableBytes)
  if len < b.readableBytes then
    .ok { b with readerIndex := b.readerIndex + len }
  else
    .ok b.retrieveAll

/-- `retrieveUntil`; the pointer is an index into the storage. -/
def retrieveUntil (b : Buffer) (stop : ℕ) : Except Fault Buffer := do
  check .retrieveUntil (b.readerIndex ≤ stop ∧ stop ≤ b.writerIndex)
  b.retrieve (stop - b.readerIndex)

def retrieveAsString (b : Buffer) (len : ℕ) : Except Fault (Bytes × Buffer) := do
  check .retrieveAsString (len ≤ b.readableBytes)
  let result := b.readable.take len
  let b' ← b.retrieve len
  .ok (result, b')

/-- `toString`: the length goes through an `int`, and a negative one makes the constructor of
`std::string` throw. -/
def toString (b : Buffer) : Except Fault Bytes :=
  let len := Int.bmod b.readableBytes (2 ^ 32)
  if len < 0 then .error .lengthError else .ok (b.readable.take len.toNat)

/-- The storage with the readable octets moved down to the prepend area. -/
def moveToFront (b : Buffer) : Buffer where
  buffer := overwrite b.buffer kCheapPrepend b.readable
  readerIndex := kCheapPrepend
  writerIndex := kCheapPrepend + b.readableBytes

def makeSpace (b : Buffer) (len : ℕ) : Except Fault Buffer :=
  if b.writableBytes + b.prependableBytes < len + kCheapPrepend then
    -- `resize` only ever grows the storage here
    .ok { b with
      buffer := b.buffer ++ List.replicate (b.writerIndex + len - b.buffer.length) 0 }
  else do
    check .makeSpaceReader (kCheapPrepend < b.readerIndex)
    check .makeSpaceReadable (b.readableBytes = b.moveToFront.readableBytes)
    .ok b.moveToFront

def ensureWritableBytes (b : Buffer) (len : ℕ) : Except Fault Buffer := do
  let b' ← if b.writableBytes < len then b.makeSpace len else .ok b
  check .ensureWritableBytes (len ≤ b'.writableBytes)
  .ok b'

/-- `hasWritten(len)` once `data` has been copied to `beginWrite()`. -/
def hasWritten (b : Buffer) (data : Bytes) : Except Fault Buffer := do
  check .hasWritten (data.length ≤ b.writableBytes)
  .ok { b with
    buffer := overwrite b.buffer b.writerIndex data
    writerIndex := b.writerIndex + data.length }

def append (b : Buffer) (data : Bytes) : Except Fault Buffer := do
  let b' ← b.ensureWritableBytes data.length
  b'.hasWritten data

def unwrite (b : Buffer) (len : ℕ) : Except Fault Buffer := do
  check .unwrite (len ≤ b.readableBytes)
  .ok { b with writerIndex := b.writerIndex - len }

def prepend (b : Buffer) (data : Bytes) : Except Fault Buffer := do
  check .prepend (data.length ≤ b.prependableBytes)
  .ok { b with
    buffer := overwrite b.buffer (b.readerIndex - data.length) data
    readerIndex := b.readerIndex - data.length }

def shrink (b : Buffer) (reserve : ℕ) : Except Fault Buffer := do
  let other ← (ofInitialSize kInitialSize).ensureWritableBytes (b.readableBytes + reserve)
  let content ← b.toString
  let other ← other.append content
  .ok (b.swap other).1

/-- The octets `readFd` offers room for: the writable space, and the side buffer when that
space is smaller than it. -/
def readFdOffer (b : Buffer) : ℕ :=
  b.writableBytes + if b.writableBytes < extrabufSize then extrabufSize else 0

/-- What a call of `readFd` returns and leaves. -/
structure ReadFd where
  n : ℤ
  savedErrno : Option Errno
  buffer : Buffer
  deriving DecidableEq, Repr

/-- `readFd`.  `readv` fills the writable space first and the side buffer after it, and never
delivers more than it was offered. -/
def readFd (b : Buffer) : ReadResult → Except Fault ReadFd
  | .failed e => .ok ⟨-1, some e, b⟩
  | .got data => do
      let arrived := data.take b.readFdOffer
      if arrived.length ≤ b.writableBytes then
        .ok ⟨arrived.length, none,
          { b with
            buffer := overwrite b.buffer b.writerIndex arrived
            writerIndex := b.writerIndex + arrived.length }⟩
      else
        let full : Buffer :=
          { b with
            buffer := overwrite b.buffer b.writerIndex (arrived.take b.writableBytes)
            writerIndex := b.buffer.length }
        let b' ← full.append (arrived.drop b.writableBytes)
        .ok ⟨arrived.length, none, b'⟩

/-! ## The representation invariant -/

/-- The indices are in order and the storage has the cheap prepend area. -/
structure WF (b : Buffer) : Prop where
  reader_le : b.readerIndex ≤ b.writerIndex
  writer_le : b.writerIndex ≤ b.buffer.length
  prepend_le : kCheapPrepend ≤ b.buffer.length

lemma WF.length_readable {b : Buffer} (h : b.WF) : b.readable.length = b.readableBytes :=
  length_window h.writer_le

lemma readable_eq_nil_iff {b : Buffer} (h : b.WF) : b.readable = [] ↔ b.readableBytes = 0 := by
  rw [← List.length_eq_zero_iff, h.length_readable]

lemma ofInitialSize_wf (n : ℕ) : (ofInitialSize n).WF := by
  constructor <;> simp [ofInitialSize]

@[simp] lemma readable_ofInitialSize (n : ℕ) : (ofInitialSize n).readable = [] :=
  window_self _ _

/-- The three assertions of the constructor. -/
theorem ofInitialSize_asserts (n : ℕ) :
    (ofInitialSize n).readableBytes = 0 ∧ (ofInitialSize n).writableBytes = n ∧
      (ofInitialSize n).prependableBytes = kCheapPrepend := by
  simp [readableBytes, writableBytes, prependableBytes, ofInitialSize]

/-! ## Removing octets -/

lemma retrieveAll_wf {b : Buffer} (h : b.WF) : b.retrieveAll.WF :=
  ⟨le_refl _, h.prepend_le, h.prepend_le⟩

@[simp] lemma readable_retrieveAll (b : Buffer) : b.retrieveAll.readable = [] :=
  window_self _ _

lemma retrieve_spec {b : Buffer} (h : b.WF) {len : ℕ} (hlen : len ≤ b.readableBytes) :
    ∃ b', b.retrieve len = .ok b' ∧ b'.WF ∧ b'.readable = b.readable.drop len := by
  have hlt : b.readerIndex + b.readableBytes = b.writerIndex :=
    Nat.add_sub_of_le h.reader_le
  rw [retrieve, check_true hlen, ok_bind]
  by_cases hpart : len < b.readableBytes
  · rw [if_pos hpart]
    refine ⟨_, rfl, ⟨?_, h.writer_le, h.prepend_le⟩, ?_⟩
    · show b.readerIndex + len ≤ b.writerIndex
      omega
    · show window b.buffer (b.readerIndex + len) b.writerIndex = _
      rw [readable, window_drop]
  · rw [if_neg hpart]
    refine ⟨_, rfl, retrieveAll_wf h, ?_⟩
    have hall : b.readable.length ≤ len := by
      rw [h.length_readable]
      omega
    rw [readable_retrieveAll, List.drop_eq_nil_of_le hall]

lemma retrieveUntil_spec {b : Buffer} (h : b.WF) {n : ℕ} (hn : n ≤ b.readableBytes) :
    ∃ b', b.retrieveUntil (b.readerIndex + n) = .ok b' ∧ b'.WF ∧
      b'.readable = b.readable.drop n := by
  have hlt : b.readerIndex + b.readableBytes = b.writerIndex :=
    Nat.add_sub_of_le h.reader_le
  rw [retrieveUntil, check_true ⟨by omega, by omega⟩, ok_bind, Nat.add_sub_cancel_left]
  exact retrieve_spec h hn

lemma retrieveAsString_spec {b : Buffer} (h : b.WF) {len : ℕ} (hlen : len ≤ b.readableBytes) :
    ∃ b', b.retrieveAsString len = .ok (b.readable.take len, b') ∧ b'.WF ∧
      b'.readable = b.readable.drop len := by
  obtain ⟨b', hret, hwf, hread⟩ := retrieve_spec h hlen
  refine ⟨b', ?_, hwf, hread⟩
  rw [retrieveAsString, check_true hlen, ok_bind, hret, ok_bind]

lemma unwrite_spec {b : Buffer} (h : b.WF) {len : ℕ} (hlen : len ≤ b.readableBytes) :
    ∃ b', b.unwrite len = .ok b' ∧ b'.WF ∧
      b'.readable = b.readable.take (b.readable.length - len) := by
  have hlt : b.readerIndex + b.readableBytes = b.writerIndex :=
    Nat.add_sub_of_le h.reader_le
  have hw := h.writer_le
  rw [unwrite, check_true hlen, ok_bind]
  refine ⟨_, rfl, ⟨?_, ?_, h.prepend_le⟩, ?_⟩
  · show b.readerIndex ≤ b.writerIndex - len
    omega
  · show b.writerIndex - len ≤ b.buffer.length
    omega
  · show window b.buffer b.readerIndex (b.writerIndex - len) = _
    rw [h.length_readable, readable, window_take (by omega)]
    congr 1
    omega

/-! ## Making room -/

@[simp] lemma readableBytes_moveToFront (b : Buffer) :
    b.moveToFront.readableBytes = b.readableBytes :=
  Nat.add_sub_cancel_left _ _

/-- Moving the octets down changes neither them nor the size of the storage. -/
lemma moveToFront_spec {b : Buffer} (h : b.WF) (hreader : kCheapPrepend ≤ b.readerIndex) :
    b.moveToFront.WF ∧ b.moveToFront.readable = b.readable ∧
      b.moveToFront.writableBytes = b.buffer.length - (kCheapPrepend + b.readableBytes) := by
  have hr := h.reader_le
  have hw := h.writer_le
  have hread := h.length_readable
  have hbytes : b.readableBytes = b.writerIndex - b.readerIndex := rfl
  have hfits : kCheapPrepend + b.readable.length ≤ b.buffer.length := by omega
  have hlen := length_overwrite hfits
  refine ⟨⟨?_, ?_, ?_⟩, ?_, ?_⟩
  · show kCheapPrepend ≤ kCheapPrepend + b.readableBytes
    omega
  · show kCheapPrepend + b.readableBytes ≤ (overwrite b.buffer kCheapPrepend b.readable).length
    omega
  · show kCheapPrepend ≤ (overwrite b.buffer kCheapPrepend b.readable).length
    omega
  · show window (overwrite b.buffer kCheapPrepend b.readable) kCheapPrepend
      (kCheapPrepend + b.readableBytes) = b.readable
    rw [← hread]
    exact window_overwrite_self h.prepend_le
  · show (overwrite b.buffer kCheapPrepend b.readable).length - (kCheapPrepend + b.readableBytes)
      = _
    rw [hlen]

/-- `makeSpace` is only called when the writable space is too small, and then the branch
that moves the octets down is reached with the reader beyond the prepend area. -/
lemma makeSpace_spec {b : Buffer} (h : b.WF) {len : ℕ} (hlen : b.writableBytes < len) :
    ∃ b', b.makeSpace len = .ok b' ∧ b'.WF ∧ b'.readable = b.readable ∧
      len ≤ b'.writableBytes := by
  have hr := h.reader_le
  have hw := h.writer_le
  have hp := h.prepend_le
  have hwritable : b.writableBytes = b.buffer.length - b.writerIndex := rfl
  have hpre : b.prependableBytes = b.readerIndex := rfl
  rw [makeSpace]
  by_cases hgrow : b.writableBytes + b.prependableBytes < len + kCheapPrepend
  · rw [if_pos hgrow]
    refine ⟨_, rfl, ⟨hr, ?_, ?_⟩, window_append_of_le hw _, ?_⟩
    · show b.writerIndex ≤ (b.buffer ++ _).length
      rw [List.length_append]
      omega
    · show kCheapPrepend ≤ (b.buffer ++ _).length
      rw [List.length_append]
      omega
    · show len ≤ (b.buffer ++ _).length - b.writerIndex
      rw [List.length_append, List.length_replicate]
      omega
  · have hreader : kCheapPrepend < b.readerIndex := by omega
    obtain ⟨hwf, hread, hroom⟩ := moveToFront_spec h hreader.le
    rw [if_neg hgrow, check_true hreader, ok_bind, check_true (readableBytes_moveToFront b).symm,
      ok_bind]
    refine ⟨_, rfl, hwf, hread, ?_⟩
    have hbytes : b.readableBytes = b.writerIndex - b.readerIndex := rfl
    omega

lemma ensureWritableBytes_spec {b : Buffer} (h : b.WF) (len : ℕ) :
    ∃ b', b.ensureWritableBytes len = .ok b' ∧ b'.WF ∧ b'.readable = b.readable ∧
      len ≤ b'.writableBytes := by
  by_cases hlen : b.writableBytes < len
  · obtain ⟨b', hspace, hwf, hread, hroom⟩ := makeSpace_spec h hlen
    refine ⟨b', ?_, hwf, hread, hroom⟩
    simp only [ensureWritableBytes, if_pos hlen, hspace, ok_bind, check_true hroom]
  · have hroom : len ≤ b.writableBytes := Nat.le_of_not_lt hlen
    refine ⟨b, ?_, h, rfl, hroom⟩
    simp only [ensureWritableBytes, if_neg hlen, ok_bind, check_true hroom]

/-! ## Adding octets -/

/-- A block copied to `beginWrite()` and counted in is readable after the rest. -/
lemma written_spec {b : Buffer} (h : b.WF) {data : Bytes}
    (hroom : data.length ≤ b.writableBytes) :
    let b' : Buffer :=
      { b with
        buffer := overwrite b.buffer b.writerIndex data
        writerIndex := b.writerIndex + data.length }
    b'.WF ∧ b'.readable = b.readable ++ data := by
  have hr := h.reader_le
  have hw := h.writer_le
  have hwritable : b.writableBytes = b.buffer.length - b.writerIndex := rfl
  have hfits : b.writerIndex + data.length ≤ b.buffer.length := by omega
  have hlen := length_overwrite hfits
  refine ⟨⟨?_, ?_, ?_⟩, window_overwrite_end hr hw⟩
  · show b.readerIndex ≤ b.writerIndex + data.length
    omega
  · show b.writerIndex + data.length ≤ (overwrite b.buffer b.writerIndex data).length
    rw [hlen]
    exact hfits
  · show kCheapPrepend ≤ (overwrite b.buffer b.writerIndex data).length
    rw [hlen]
    exact h.prepend_le

lemma hasWritten_spec {b : Buffer} (h : b.WF) {data : Bytes}
    (hroom : data.length ≤ b.writableBytes) :
    ∃ b', b.hasWritten data = .ok b' ∧ b'.WF ∧ b'.readable = b.readable ++ data := by
  obtain ⟨hwf, hread⟩ := written_spec h hroom
  rw [hasWritten, check_true hroom, ok_bind]
  exact ⟨_, rfl, hwf, hread⟩

lemma append_spec {b : Buffer} (h : b.WF) (data : Bytes) :
    ∃ b', b.append data = .ok b' ∧ b'.WF ∧ b'.readable = b.readable ++ data := by
  obtain ⟨b₁, hens, hwf₁, hread₁, hroom⟩ := ensureWritableBytes_spec h data.length
  obtain ⟨b₂, hhas, hwf₂, hread₂⟩ := hasWritten_spec hwf₁ hroom
  refine ⟨b₂, ?_, hwf₂, ?_⟩
  · rw [append, hens, ok_bind, hhas]
  · rw [hread₂, hread₁]

lemma prepend_spec {b : Buffer} (h : b.WF) {data : Bytes}
    (hroom : data.length ≤ b.prependableBytes) :
    ∃ b', b.prepend data = .ok b' ∧ b'.WF ∧ b'.readable = data ++ b.readable := by
  have hr := h.reader_le
  have hw := h.writer_le
  have hpre : b.prependableBytes = b.readerIndex := rfl
  have hlen : (overwrite b.buffer (b.readerIndex - data.length) data).length =
      b.buffer.length := length_overwrite (by omega)
  rw [prepend, check_true hroom, ok_bind]
  refine ⟨_, rfl, ⟨?_, ?_, ?_⟩, window_overwrite_front (by omega) hr (by omega)⟩
  · show b.readerIndex - data.length ≤ b.writerIndex
    omega
  · show b.writerIndex ≤ (overwrite b.buffer (b.readerIndex - data.length) data).length
    rw [hlen]
    exact hw
  · show kCheapPrepend ≤ (overwrite b.buffer (b.readerIndex - data.length) data).length
    rw [hlen]
    exact h.prepend_le

/-! ## Copies and reads -/

/-- Below `2^31` readable octets the `int` keeps the length. -/
lemma toString_spec {b : Buffer} (h : b.WF) (hsmall : b.readableBytes < 2 ^ 31) :
    b.toString = .ok b.readable := by
  have hcast : Int.bmod b.readableBytes (2 ^ 32) = b.readableBytes :=
    Int.bmod_eq_of_le (by omega) (by omega)
  have hall : b.readable.take b.readableBytes = b.readable := by
    rw [← h.length_readable, List.take_length]
  have hnonneg : ¬ (b.readableBytes : ℤ) < 0 := by omega
  unfold toString
  simp only [hcast, if_neg hnonneg, Int.toNat_natCast, hall]

lemma shrink_spec {b : Buffer} (h : b.WF) (hsmall : b.readableBytes < 2 ^ 31) (reserve : ℕ) :
    ∃ b', b.shrink reserve = .ok b' ∧ b'.WF ∧ b'.readable = b.readable := by
  obtain ⟨o₁, hens, hwf₁, hread₁, -⟩ :=
    ensureWritableBytes_spec (ofInitialSize_wf kInitialSize) (b.readableBytes + reserve)
  obtain ⟨o₂, happ, hwf₂, hread₂⟩ := append_spec hwf₁ b.readable
  refine ⟨o₂, ?_, hwf₂, ?_⟩
  · rw [shrink, hens, ok_bind, toString_spec h hsmall, ok_bind, happ, ok_bind, swap]
  · rw [hread₂, hread₁, readable_ofInitialSize, List.nil_append]

/-- `readFd` appends exactly the octets the kernel delivered, whether they fit into the
writable space or spill into the side buffer. -/
lemma readFd_got_spec {b : Buffer} (h : b.WF) (data : Bytes) :
    ∃ b', b.readFd (.got data) = .ok ⟨(data.take b.readFdOffer).length, none, b'⟩ ∧ b'.WF ∧
      b'.readable = b.readable ++ data.take b.readFdOffer := by
  generalize hdata : data.take b.readFdOffer = arrived
  rw [readFd]
  simp only [hdata]
  by_cases hfits : arrived.length ≤ b.writableBytes
  · obtain ⟨hwf, hread⟩ := written_spec h hfits
    rw [if_pos hfits]
    exact ⟨_, rfl, hwf, hread⟩
  · have hhead : (arrived.take b.writableBytes).length = b.writableBytes := by
      rw [List.length_take]
      omega
    have hfull : b.writerIndex + (arrived.take b.writableBytes).length = b.buffer.length := by
      have hw := h.writer_le
      have hwritable : b.writableBytes = b.buffer.length - b.writerIndex := rfl
      omega
    obtain ⟨hwf, hread⟩ := written_spec h hhead.le
    rw [hfull] at hwf hread
    obtain ⟨b', happ, hwf', hread'⟩ := append_spec hwf (arrived.drop b.writableBytes)
    refine ⟨b', ?_, hwf', ?_⟩
    · rw [if_neg hfits, happ, ok_bind]
    · rw [hread', hread, List.append_assoc, List.take_append_drop]

end Buffer

end Firey
