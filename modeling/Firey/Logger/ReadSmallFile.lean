import Firey.Framework.Machine
import Firey.Logger.LogStream

/-!
# `ReadSmallFileff`

`readToString` reads a file through `buffer_`, at most `kBufferSize` octets at a time, until it has
`maxSize` of them, or the file is at its end, or a call fails.  The answers of `fstat` and `read`
are inputs; `failures` is history, the errors that the calls on an open file have returned.

The octets are read from where the file stands.  That is its front in the first call, and so
`readToString` gets a prefix of the file (`reads_front`); a later call on the same object goes on
behind it (`reads_in_order`).
-/

set_option autoImplicit false

namespace Firey

/-! ## Files -/

/-- What `S_ISREG` and `S_ISDIR` tell apart. -/
inductive FileMode
  | regular
  | directory
  | other
  deriving DecidableEq, Repr

/-- A file; `off_t`, which has 64 bits, counts its octets. -/
structure File where
  mode : FileMode
  data : Bytes
  bounded : data.length < 2 ^ 63
  mtime : ℤ
  ctime : ℤ
  deriving DecidableEq

structure Stat where
  st_mode : FileMode
  st_size : ℤ
  st_mtime : ℤ
  st_ctime : ℤ
  deriving DecidableEq, Repr

def EISDIR : Errno := .other 21

/-- What a call of `read` is ready for: one octet or more, as far as they are asked for and the file
has them, or an error. -/
inductive ReadAnswer
  | delivers (n : ℕ) (pos : 0 < n)
  | failed (e : Errno)
  deriving DecidableEq

/-- A file the process has open. -/
structure FileDescription where
  file : File
  offset : ℕ
  failures : List Errno
  deriving DecidableEq

namespace FileDescription

/-- What `read` has not come to yet. -/
def rest (f : FileDescription) : Bytes := f.file.data.drop f.offset

/-- A call on the file fails. -/
def fails (f : FileDescription) (e : Errno) : FileDescription :=
  { f with failures := f.failures ++ [e] }

/-- `fstat`, which may fail. -/
def fstat (f : FileDescription) : Option Errno → Except Errno Stat × FileDescription
  | none => (.ok ⟨f.file.mode, f.file.data.length, f.file.mtime, f.file.ctime⟩, f)
  | some e => (.error e, f.fails e)

/-- `pread`, which leaves the offset alone. -/
def pread (f : FileDescription) (answer : ReadAnswer) (count offset : ℕ) :
    ReadResult × FileDescription :=
  match answer with
  | .delivers n _ => (.got ((f.file.data.drop offset).take (min n count)), f)
  | .failed e => (.failed e, f.fails e)

def read (f : FileDescription) (answer : ReadAnswer) (count : ℕ) : ReadResult × FileDescription :=
  match f.pread answer count f.offset with
  | (.got data, f) => (.got data, { f with offset := f.offset + data.length })
  | (.failed e, f) => (.failed e, f)

end FileDescription

/-! ## The reader -/

namespace ReadSmallFile

def kBufferSize : ℕ := 64 * 1024

end ReadSmallFile

/-- `none` is a negative `fd_`, and 0 as an `err_`. -/
structure ReadSmallFile where
  fd_ : Option FileDescription
  err_ : Option Errno
  buffer_ : CharArray ReadSmallFile.kBufferSize

/-- What the last three arguments of `readToString` point to; `none` is a null pointer. -/
structure FileInfo where
  fileSize : Option ℤ
  modifyTime : Option ℤ
  createTime : Option ℤ
  deriving DecidableEq, Repr

/-- The answers a call of `readToString` gets: an error of `fstat`, if there is one, and the answer
of the `i`-th `read`. -/
structure FileCalls where
  fstat : Option Errno
  read : ℕ → ReadAnswer

/-- What `readToString` works on in its loop. -/
structure Reading where
  file : FileDescription
  err : Option Errno
  buffer_ : CharArray ReadSmallFile.kBufferSize
  content : Bytes

/-- What `readToString` leaves behind, and what it returns: `none` is 0. -/
structure ReadOutcome where
  err : Option Errno
  content : Bytes
  info : FileInfo
  reader : ReadSmallFile

namespace ReadSmallFile

/-- The constructor, with what `open` says; `buffer_` is not initialised. -/
def ctor (opened : Except Errno File) (buffer : CharArray kBufferSize) :
    Except Fault ReadSmallFile := do
  let buffer ← buffer.write 0 [0]
  match opened with
  | .ok file => .ok ⟨some ⟨file, 0, []⟩, none, buffer⟩
  | .error e => .ok ⟨none, some e, buffer⟩

/-- `std::string::reserve`, as far as it throws. -/
def reserve (n : BitVec 64) : Except Fault Unit :=
  if n.toNat < 2 ^ 63 then .ok () else .error .lengthError

/-- The error and the size that `readToString` takes from `statbuf`. -/
def sizeFile (maxSize : BitVec 32) (statbuf : Stat) (err : Option Errno) (fileSize : Option ℤ) :
    Except Fault (Option Errno × Option ℤ) :=
  match statbuf.st_mode with
  | .regular => do
    reserve ((BitVec.ofInt 32 (min maxSize.toInt statbuf.st_size)).signExtend 64)
    .ok (err, some statbuf.st_size)
  | .directory => .ok (some EISDIR, fileSize)
  | .other => .ok (err, fileSize)

/-- What `readToString` does before it reads. -/
def statFile (maxSize : BitVec 32) (f : FileDescription) (answer err : Option Errno)
    (info : FileInfo) : Except Fault (FileDescription × Option Errno × FileInfo) :=
  if info.fileSize.isSome then
    match f.fstat answer with
    | (.ok statbuf, f) => do
      let (err, fileSize) ← sizeFile maxSize statbuf err info.fileSize
      let modifyTime := info.modifyTime.map fun _ => statbuf.st_mtime
      let createTime := info.createTime.map fun _ => statbuf.st_ctime
      .ok (f, err, ⟨fileSize, modifyTime, createTime⟩)
    | (.error e, f) => .ok (f, some e, info)
  else .ok (f, err, info)

/-- The loop of `readToString`, from the `i`-th `read` on. -/
def readLoop (maxSize : ℕ) (answers : ℕ → ReadAnswer) (i : ℕ) (s : Reading) :
    Except Fault Reading :=
  if s.content.length < maxSize then
    let toRead := min (maxSize - s.content.length) kBufferSize
    match s.file.read (answers i) toRead with
    | (.got data, file) =>
      match s.buffer_.write 0 data with
      | .error e => .error e
      | .ok buffer =>
        if 0 < data.length then
          readLoop maxSize answers (i + 1)
            ⟨file, s.err, buffer, s.content ++ window buffer.octets 0 data.length⟩
        else .ok { s with file := file, buffer_ := buffer }
    | (.failed e, file) => .ok { s with file := file, err := some e }
  else .ok s
termination_by maxSize - s.content.length
decreasing_by
  have hbuffer : kBufferSize = buffer.octets.length := buffer.length_eq.symm
  have hpos : 0 < kBufferSize := by decide
  rw [List.length_append, window, List.length_take, List.drop_zero]
  omega

/-- `readToString(maxSize, content, fileSize, modifyTime, createTime)`. -/
def readToString (r : ReadSmallFile) (calls : FileCalls) (maxSize : BitVec 32)
    (content : Option Bytes) (info : FileInfo) : Except Fault ReadOutcome :=
  match content with
  | none => .error (.assertion .readToString)
  | some content =>
    match r.fd_ with
    | none => .ok ⟨r.err_, content, info, r⟩
    | some f => do
      let (f, err, info) ← statFile maxSize f calls.fstat r.err_ info
      let s ← readLoop (maxSize.signExtend 64).toNat calls.read 0 ⟨f, err, r.buffer_, []⟩
      .ok ⟨s.err, s.content, info, { r with fd_ := some s.file, buffer_ := s.buffer_ }⟩

/-- `readToBuffer(size)`: what it returns, and what is behind `size` then. -/
def readToBuffer (r : ReadSmallFile) (answer : ReadAnswer) (size : Option ℤ) :
    Except Fault (Option Errno × Option ℤ × ReadSmallFile) :=
  match r.fd_ with
  | none => .ok (r.err_, size, r)
  | some f =>
    match f.pread answer (kBufferSize - 1) 0 with
    | (.got data, f) => do
      let buffer ← r.buffer_.write 0 data
      let buffer ← buffer.write data.length [0]
      .ok (r.err_, size.map fun _ => (data.length : ℤ),
        { r with fd_ := some f, buffer_ := buffer })
    | (.failed e, f) => .ok (some e, size, { r with fd_ := some f })

end ReadSmallFile

/-- `readFile(filename, maxSize, content, fileSize, modifyTime, createTime)`. -/
def readFile (opened : Except Errno File) (buffer : CharArray ReadSmallFile.kBufferSize)
    (calls : FileCalls) (maxSize : BitVec 32) (content : Option Bytes) (info : FileInfo) :
    Except Fault ReadOutcome := do
  let file ← ReadSmallFile.ctor opened buffer
  file.readToString calls maxSize content info

/-! ## One read -/

namespace FileDescription

/-- A read that is answered takes octets from the front of the rest, and gets none at the end of the
file alone. -/
lemma read_delivers (f : FileDescription) {n : ℕ} (hn : 0 < n) (count : ℕ) :
    ∃ data g, f.read (.delivers n hn) count = (.got data, g) ∧
      g.failures = f.failures ∧ data ++ g.rest = f.rest ∧ data.length ≤ count ∧
      (data = [] → count = 0 ∨ g.rest = []) := by
  have htake : f.rest.take (f.rest.take (min n count)).length = f.rest.take (min n count) :=
    (List.prefix_iff_eq_take.mp (List.take_prefix _ _)).symm
  have hkept : f.rest.take (min n count) ++
      f.file.data.drop (f.offset + (f.rest.take (min n count)).length) = f.rest := by
    rw [← List.drop_drop]
    nth_rewrite 1 [← htake]
    exact List.take_append_drop _ f.rest
  refine ⟨f.rest.take (min n count), _, rfl, rfl, hkept, ?_, fun hempty => ?_⟩
  · exact (List.length_take_le _ _).trans (Nat.min_le_right _ _)
  · rcases List.take_eq_nil_iff.mp hempty with hcount | hrest
    · left
      omega
    · exact Or.inr (List.append_eq_nil_iff.mp (hkept.trans hrest)).2

end FileDescription

/-! ## Errors -/

/-- From `f` to `g` calls on a file have failed with the errors `new`, and an `err` that was there
before has become `err'`. -/
structure FileDescription.Reports (f g : FileDescription) (err err' : Option Errno)
    (new : List Errno) : Prop where
  failures_eq : g.failures = f.failures ++ new
  err_eq : err' = new.getLast?.or err

namespace FileDescription.Reports

variable {f g k : FileDescription} {err err' err'' : Option Errno} {new new' : List Errno}

lemma nothing (h : g.failures = f.failures) : f.Reports g err err [] :=
  ⟨by simp [h], by simp⟩

lemma failed (f : FileDescription) (err : Option Errno) (e : Errno) :
    f.Reports (f.fails e) err (some e) [e] :=
  ⟨rfl, by simp⟩

/-- The last error is the one that is left. -/
lemma trans (hfirst : f.Reports g err err' new) (hsecond : g.Reports k err' err'' new') :
    f.Reports k err err'' (new ++ new') where
  failures_eq := by rw [hsecond.failures_eq, hfirst.failures_eq, List.append_assoc]
  err_eq := by
    rw [hsecond.err_eq, hfirst.err_eq, List.getLast?_append]
    exact (Option.or_assoc ..).symm

end FileDescription.Reports

/-! ## The loop -/

/-- `t` has the octets of `s` and then the ones behind them in the file; it is at `maxSize` or at
the end of the file, unless a call has failed. -/
structure Reading.EndsIn (maxSize : ℕ) (s t : Reading) (new : List Errno) : Prop where
  reports : s.file.Reports t.file s.err t.err new
  kept : t.content ++ t.file.rest = s.content ++ s.file.rest
  bounded : t.content.length ≤ maxSize
  stops : new = [] → t.content.length = maxSize ∨ t.file.rest = []

namespace ReadSmallFile

/-- **The loop**, which gives up only where a call fails. -/
lemma readLoop_spec (maxSize : ℕ) (answers : ℕ → ReadAnswer) (i : ℕ) {s : Reading}
    (hs : s.content.length ≤ maxSize) :
    ∃ t new, readLoop maxSize answers i s = .ok t ∧ s.EndsIn maxSize t new := by
  induction hleft : maxSize - s.content.length using Nat.strong_induction_on generalizing i s with
  | _ left ih =>
    subst hleft
    rw [readLoop]
    split
    next hlt =>
      dsimp only
      cases hanswer : answers i with
      | failed e => exact ⟨_, [e], rfl, .failed _ _ e, rfl, hs, by simp⟩
      | delivers n hn =>
        obtain ⟨data, g, hread, hfailures, hkept, hcount, hend⟩ :=
          s.file.read_delivers hn (min (maxSize - s.content.length) kBufferSize)
        obtain ⟨buffer, hwrite, hfront⟩ := s.buffer_.write_spec 0 data (by omega)
        rw [Nat.zero_add, window_self, List.nil_append] at hfront
        rw [hread]
        dsimp only
        rw [hwrite]
        dsimp only
        rw [hfront]
        split
        next hsome =>
          have hlength : (s.content ++ data).length = s.content.length + data.length :=
            List.length_append
          obtain ⟨t, new, ht, hends⟩ := ih (maxSize - (s.content ++ data).length) (by omega)
            (i + 1) (s := ⟨g, s.err, buffer, s.content ++ data⟩) (by dsimp only; omega) rfl
          have hreports := FileDescription.Reports.trans (.nothing hfailures) hends.reports
          refine ⟨t, new, ht, hreports, ?_, hends.bounded, hends.stops⟩
          rw [hends.kept, List.append_assoc, hkept]
        next hnone =>
          have hempty : data = [] := List.length_eq_zero_iff.mp (by omega)
          have hatEnd : g.rest = [] := by
            rcases hend hempty with hzero | hatEnd
            · have hpos : 0 < kBufferSize := by decide
              omega
            · exact hatEnd
          refine ⟨_, [], rfl, .nothing hfailures, ?_, hs, fun _ => Or.inr hatEnd⟩
          rw [← hkept, hempty]
          rfl
    next hfull =>
      exact ⟨s, [], rfl, .nothing rfl, rfl, hs, fun _ => Or.inl (by omega)⟩

/-! ## `readToString` -/

/-- An `int` that is not negative keeps its value as a `size_t`. -/
lemma toNat_signExtend {v : BitVec 32} (hv : 0 ≤ v.toInt) :
    ((v.signExtend 64).toNat : ℤ) = v.toInt := by
  have hwide : (v.signExtend 64).toInt = v.toInt := BitVec.toInt_signExtend_of_le (by decide)
  rw [← hwide] at hv ⊢
  rw [BitVec.toInt_eq_toNat_of_msb]
  exact BitVec.msb_eq_false_iff_two_mul_lt.mpr (BitVec.toInt_pos_iff.mp hv)

/-- For a regular file `reserve` is asked for no more than `maxSize` octets. -/
lemma sizeFile_regular {maxSize : BitVec 32} (hmax : 0 ≤ maxSize.toInt) {statbuf : Stat}
    (hmode : statbuf.st_mode = .regular) (hsize : 0 ≤ statbuf.st_size) (err : Option Errno)
    (fileSize : Option ℤ) :
    sizeFile maxSize statbuf err fileSize = .ok (err, some statbuf.st_size) := by
  have hlt : maxSize.toInt < 2 ^ 31 := BitVec.toInt_lt
  have hint : (BitVec.ofInt 32 (min maxSize.toInt statbuf.st_size)).toInt =
      min maxSize.toInt statbuf.st_size :=
    BitVec.toInt_ofInt_eq_self (by decide) (by omega) (by omega)
  have hwide := toNat_signExtend (v := BitVec.ofInt 32 (min maxSize.toInt statbuf.st_size))
    (by omega)
  rw [sizeFile, hmode]
  dsimp only
  rw [reserve, if_pos (by omega), ok_bind]

variable {maxSize : BitVec 32} {f g : FileDescription}

/-- `fstat` leaves the file where it is. -/
lemma statFile_rest {answer err err' : Option Errno} {info info' : FileInfo}
    (h : statFile maxSize f answer err info = .ok (g, err', info')) : g.rest = f.rest := by
  unfold statFile at h
  split at h
  next =>
    cases answer with
    | none =>
      obtain ⟨_, -, hrest⟩ := bind_eq_ok h
      cases hrest
      rfl
    | some e =>
      cases h
      rfl
  next =>
    cases h
    rfl

/-- What `fstat` comes to for a regular file. -/
lemma statFile_spec (hfile : f.file.mode = .regular) (hmax : 0 ≤ maxSize.toInt)
    (answer err : Option Errno) (info : FileInfo) :
    ∃ g err' info' new, statFile maxSize f answer err info = .ok (g, err', info') ∧
      f.Reports g err err' new ∧ g.rest = f.rest := by
  unfold statFile
  split
  next =>
    cases answer with
    | none =>
      dsimp only [FileDescription.fstat]
      rw [sizeFile_regular hmax hfile (Int.natCast_nonneg _), ok_bind]
      exact ⟨f, err, _, [], rfl, .nothing rfl, rfl⟩
    | some e => exact ⟨_, _, _, [e], rfl, .failed f err e, rfl⟩
  next => exact ⟨f, err, info, [], rfl, .nothing rfl, rfl⟩

/-- **`readToString`** takes octets from the front of the rest of the file, up to `maxSize` or the
end of the file unless a call fails, and returns the last error. -/
lemma readToString_spec {r : ReadSmallFile} (hfd : r.fd_ = some f) (herr : r.err_ = none)
    (hfile : f.file.mode = .regular) (hmax : 0 ≤ maxSize.toInt) (calls : FileCalls)
    (content : Bytes) (info : FileInfo) :
    ∃ s g new, r.readToString calls maxSize (some content) info = .ok s ∧
      s.reader.fd_ = some g ∧ g.failures = f.failures ++ new ∧ s.err = new.getLast? ∧
      s.content ++ g.rest = f.rest ∧ (s.content.length : ℤ) ≤ maxSize.toInt ∧
      (new = [] → (s.content.length : ℤ) = maxSize.toInt ∨ g.rest = []) := by
  have hsize := toNat_signExtend hmax
  obtain ⟨g, err, info', first, hstat, hfirst, hrest⟩ :=
    statFile_spec hfile hmax calls.fstat r.err_ info
  obtain ⟨t, second, hloop, hends⟩ := readLoop_spec (maxSize.signExtend 64).toNat
    calls.read 0 (s := ⟨g, err, r.buffer_, []⟩) (Nat.zero_le _)
  have hreports := hfirst.trans hends.reports
  refine ⟨⟨t.err, t.content, info', { r with fd_ := some t.file, buffer_ := t.buffer_ }⟩, t.file,
    first ++ second, ?_, rfl, hreports.failures_eq, ?_, ?_, ?_, fun hnew => ?_⟩
  · rw [readToString, hfd]
    dsimp only
    rw [hstat, ok_bind]
    dsimp only
    rw [hloop, ok_bind]
  · rw [hreports.err_eq, herr, Option.or_none]
  · rw [hends.kept, List.nil_append, hrest]
  · have hbounded := hends.bounded
    dsimp only
    omega
  · rcases hends.stops (List.append_eq_nil_iff.mp hnew).2 with hfull | hatEnd
    · left
      dsimp only
      omega
    · exact Or.inr hatEnd

/-- The errors that calls on the file have returned. -/
def failures (r : ReadSmallFile) : List Errno := r.fd_.elim [] FileDescription.failures

/-- **A file that was just opened** is read from its front: `content` is a prefix of it, of
`maxSize` octets or all there are unless a call fails, and the error of a call that fails is
returned. -/
theorem reads_front {file : File} (hfile : file.mode = .regular) {maxSize : BitVec 32}
    (hmax : 0 ≤ maxSize.toInt) (buffer : CharArray kBufferSize) (calls : FileCalls)
    (content : Bytes) (info : FileInfo) :
    ∃ r s, ctor (.ok file) buffer = .ok r ∧
      r.readToString calls maxSize (some content) info = .ok s ∧
      readFile (.ok file) buffer calls maxSize (some content) info = .ok s ∧
      s.content <+: file.data ∧ (s.content.length : ℤ) ≤ maxSize.toInt ∧
      (s.reader.failures = [] →
        (s.content.length : ℤ) = min maxSize.toInt file.data.length ∧ s.err = none) ∧
      ∀ h : s.reader.failures ≠ [], s.err = some (s.reader.failures.getLast h) := by
  obtain ⟨buffer', hwrite, -⟩ := buffer.write_spec 0 [0] (by decide)
  obtain ⟨s, g, new, hread, hfd, hfailures, herr, hkept, hbounded, hstops⟩ :=
    readToString_spec (r := ⟨some ⟨file, 0, []⟩, none, buffer'⟩) rfl rfl hfile hmax calls content
      info
  have hnew : s.reader.failures = new := by
    simpa [failures, hfd] using hfailures
  have hlength : s.content.length + g.rest.length = file.data.length := by
    rw [← List.length_append, hkept]
    rfl
  have hctor : ctor (.ok file) buffer = .ok ⟨some ⟨file, 0, []⟩, none, buffer'⟩ := by
    rw [ctor, hwrite, ok_bind]
  have hreadFile : readFile (.ok file) buffer calls maxSize (some content) info = .ok s := by
    rw [readFile, hctor, ok_bind, hread]
  refine ⟨_, s, hctor, hread, hreadFile, ⟨g.rest, hkept⟩, hbounded, ?_, ?_⟩
  · rw [hnew]
    rintro rfl
    refine ⟨?_, herr⟩
    rcases hstops rfl with hfull | hatEnd
    · omega
    · rw [hatEnd, List.length_nil] at hlength
      omega
  · rw [hnew]
    intro hsome
    rw [herr, List.getLast?_eq_some_getLast hsome]

/-- Three octets of five, two at a time. -/
theorem reads_front_three :
    ∃ r s, ctor (.ok ⟨.regular, octets "firey".toList, by decide, 0, 0⟩)
        ⟨List.replicate kBufferSize 0, List.length_replicate⟩ = .ok r ∧
      r.readToString ⟨none, fun _ => .delivers 2 (by decide)⟩ 3 (some [])
        ⟨some 0, none, none⟩ = .ok s ∧
      s.content <+: octets "firey".toList ∧
      (s.reader.failures = [] → (s.content.length : ℤ) = 3 ∧ s.err = none) := by
  obtain ⟨r, s, hctor, hread, -, hprefix, -, hexact, -⟩ :=
    @reads_front ⟨.regular, octets "firey".toList, by decide, 0, 0⟩ rfl 3 (by decide)
      ⟨List.replicate kBufferSize 0, List.length_replicate⟩ ⟨none, fun _ => .delivers 2 (by decide)⟩
      [] ⟨some 0, none, none⟩
  exact ⟨r, s, hctor, hread, hprefix, hexact⟩

/-! ## Calls one after the other -/

variable {r : ReadSmallFile}

/-- `readToString` leaves what it has not read. -/
lemma readToString_rest (hfd : r.fd_ = some f) {calls : FileCalls} {content : Option Bytes}
    {info : FileInfo} {s : ReadOutcome}
    (h : r.readToString calls maxSize content info = .ok s) :
    ∃ g, s.reader.fd_ = some g ∧ s.content ++ g.rest = f.rest := by
  cases content with
  | none => cases h
  | some content =>
    rw [readToString, hfd] at h
    obtain ⟨⟨g, err, info'⟩, hstat, h⟩ := bind_eq_ok h
    obtain ⟨t, _, hloop, hends⟩ := readLoop_spec (maxSize.signExtend 64).toNat
      calls.read 0 (s := ⟨g, err, r.buffer_, []⟩) (Nat.zero_le _)
    dsimp only at h
    rw [hloop] at h
    cases h
    refine ⟨t.file, rfl, ?_⟩
    rw [hends.kept, List.nil_append, statFile_rest hstat]

/-- **`readToBuffer`** puts the front of the file in `buffer_`, with a NUL behind it, and leaves the
file where it is. -/
lemma readToBuffer_delivers (hfd : r.fd_ = some f) {n : ℕ} (hn : 0 < n) {data : Bytes}
    (hdata : data = f.file.data.take (min n (kBufferSize - 1))) (size : Option ℤ) :
    ∃ s, r.readToBuffer (.delivers n hn) size =
        .ok (r.err_, size.map fun _ => (data.length : ℤ), s) ∧
      s.fd_ = some f ∧ window s.buffer_.octets 0 (data.length + 1) = data ++ [0] := by
  have hroom : data.length + 1 ≤ kBufferSize := by
    have hpos : 0 < kBufferSize := by decide
    rw [hdata, List.length_take]
    omega
  obtain ⟨b, hwrite, hfront⟩ := r.buffer_.write_spec 0 data (by omega)
  obtain ⟨c, hnul, hwhole⟩ := b.write_spec data.length [0] hroom
  rw [Nat.zero_add, window_self, List.nil_append] at hfront
  rw [hfront] at hwhole
  refine ⟨{ r with fd_ := some f, buffer_ := c }, ?_, rfl, hwhole⟩
  rw [readToBuffer, hfd]
  dsimp only [FileDescription.pread]
  rw [List.drop_zero, ← hdata, hwrite, ok_bind, hnul, ok_bind]

lemma readToBuffer_rest (hfd : r.fd_ = some f) {answer : ReadAnswer} {err : Option Errno}
    {size size' : Option ℤ} {s : ReadSmallFile}
    (h : r.readToBuffer answer size = .ok (err, size', s)) :
    ∃ g, s.fd_ = some g ∧ g.rest = f.rest := by
  cases answer with
  | failed e =>
    rw [readToBuffer, hfd] at h
    cases h
    exact ⟨f.fails e, rfl, rfl⟩
  | delivers n hn =>
    obtain ⟨t, ht, htfd, -⟩ := readToBuffer_delivers hfd hn rfl size
    cases ht.symm.trans h
    exact ⟨f, htfd, rfl⟩

end ReadSmallFile

/-- A call on a `ReadSmallFileff`. -/
inductive ReadCall
  | readToString (calls : FileCalls) (maxSize : BitVec 32) (content : Option Bytes)
      (info : FileInfo)
  | readToBuffer (answer : ReadAnswer) (size : Option ℤ)

/-- A reader, with what its calls of `readToString` have read so far. -/
structure ReadHistory where
  reader : ReadSmallFile
  contents : Bytes

namespace ReadHistory

def step (h : ReadHistory) : ReadCall → Except Fault ReadHistory
  | .readToString calls maxSize content info => do
    let s ← h.reader.readToString calls maxSize content info
    .ok ⟨s.reader, h.contents ++ s.content⟩
  | .readToBuffer answer size => do
    let (_, _, reader) ← h.reader.readToBuffer answer size
    .ok ⟨reader, h.contents⟩

def machine : Machine ReadHistory ReadCall Fault := ⟨step⟩

/-- What was read and what is left make the file. -/
def Inv (file : File) (h : ReadHistory) : Prop :=
  ∃ f, h.reader.fd_ = some f ∧ h.contents ++ f.rest = file.data

lemma step_inv {file : File} {h h' : ReadHistory} {call : ReadCall} (hinv : h.Inv file)
    (hstep : h.step call = .ok h') : h'.Inv file := by
  obtain ⟨f, hfd, hfile⟩ := hinv
  cases call with
  | readToString calls maxSize content info =>
    obtain ⟨s, hread, hs⟩ := bind_eq_ok hstep
    obtain ⟨g, hg, hkept⟩ := ReadSmallFile.readToString_rest hfd hread
    cases hs
    refine ⟨g, hg, ?_⟩
    rw [List.append_assoc, hkept, hfile]
  | readToBuffer answer size =>
    obtain ⟨⟨err, size', s⟩, hread, hs⟩ := bind_eq_ok hstep
    obtain ⟨g, hg, hrest⟩ := ReadSmallFile.readToBuffer_rest hfd hread
    cases hs
    refine ⟨g, hg, ?_⟩
    rw [hrest, hfile]

/-- **Calls of `readToString` go on where the last one stopped**: one behind the other, whatever
calls of `readToBuffer` come between them, what they read is a prefix of the file. -/
theorem reads_in_order {file : File} {buffer : CharArray ReadSmallFile.kBufferSize}
    {r : ReadSmallFile} (hr : ReadSmallFile.ctor (.ok file) buffer = .ok r)
    {calls : List ReadCall} {h : ReadHistory} (hrun : machine.run ⟨r, []⟩ calls = .ok h) :
    h.contents <+: file.data := by
  have hstart : Inv file ⟨r, []⟩ := by
    obtain ⟨_, -, hr⟩ := bind_eq_ok hr
    cases hr
    exact ⟨_, rfl, rfl⟩
  obtain ⟨f, -, hfile⟩ := machine.run_invariant (fun _ _ _ hs ht => step_inv hs ht) hstart hrun
  exact ⟨f.rest, hfile⟩

end ReadHistory

end Firey
