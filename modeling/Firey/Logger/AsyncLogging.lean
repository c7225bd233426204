import Firey.Fault
import Firey.Framework.Machine
import Firey.Framework.Numeral

/-!
# `AsyncLoggingff`

The threads that log call `append`, which is one critical section and so one step; its place in
a run is the order of the lock.  The logging thread goes through `threadFunc`: the test of
`running_`, the critical section, which `waitForSeconds` takes in two where there is nothing to
write, and the writing of `bufferToWrite` one buffer a step.  The wait may end at any time, by
`notify`, by its deadline, or for no reason.

A buffer remembers the lines it was given (`lines`), `appended` is all of them in the order of
the lock, and an `Iteration` is what became of the buffers of one swap.  They are history; what
the code has are the octets (`data`, `output`).
-/

set_option autoImplicit false

namespace Firey

/-! ## `FixedBufferff` -/

def kLargeBuffer : ℕ := 4000 * 1000

/-- `data` is what lies between `data_` and `cur_`. -/
structure FixedBuffer (SIZE : ℕ) where
  data : Bytes
  fits : data.length ≤ SIZE

namespace FixedBuffer

variable {SIZE : ℕ}

def empty : FixedBuffer SIZE := ⟨[], Nat.zero_le _⟩

def avail (b : FixedBuffer SIZE) : ℕ := SIZE - b.data.length

def length (b : FixedBuffer SIZE) : ℕ := b.data.length

/-- What does not fit is cut off. -/
def append (b : FixedBuffer SIZE) (buf : Bytes) : FixedBuffer SIZE where
  data := b.data ++ buf.take (if b.avail < buf.length then b.avail else buf.length)
  fits := by
    have hfits := b.fits
    rw [List.length_append, List.length_take, avail]
    by_cases h : SIZE - b.data.length < buf.length
    · rw [if_pos h]
      omega
    · rw [if_neg h]
      omega

/-- A line for which there is room is not cut. -/
lemma append_data {b : FixedBuffer SIZE} {buf : Bytes} (h : buf.length ≤ b.avail) :
    (b.append buf).data = b.data ++ buf := by
  unfold append
  dsimp only
  rw [if_neg (by omega), List.take_length]

end FixedBuffer

/-! ## The state -/

/-- `FixedBufferff<kLargeBuffer>`, with the lines it was given. -/
structure LogBuffer where
  buffer : FixedBuffer kLargeBuffer
  lines : List Bytes

namespace LogBuffer

/-- A new buffer, or one after `reset()`. -/
def empty : LogBuffer := ⟨.empty, []⟩

def append (b : LogBuffer) (line : Bytes) : LogBuffer := ⟨b.buffer.append line, b.lines ++ [line]⟩

end LogBuffer

/-- `std::unique_ptr<Buffer>`. -/
abbrev BufferPtr := Option LogBuffer

/-- Follow the pointer. -/
def BufferPtr.get (p : BufferPtr) : Except Fault LogBuffer :=
  match p with
  | some b => .ok b
  | none => .error .nullPointer

/-- The octets of the buffers, one after the other. -/
def octetsOf (bs : List BufferPtr) : Bytes := bs.flatMap fun p => p.elim [] fun b => b.buffer.data

def linesOf (bs : List BufferPtr) : List Bytes := bs.flatMap fun p => p.elim [] LogBuffer.lines

/-- What became of the buffers of one swap: the drop notice, the lines that were kept, and those
that were dropped, buffer by buffer. -/
structure Iteration where
  notice : Option Bytes
  kept : List BufferPtr
  dropped : List BufferPtr

/-- Where the logging thread is. -/
inductive LogPhase
  /-- Before the test of `running_`. -/
  | testRunning
  /-- Before the critical section. -/
  | lock
  /-- In `waitForSeconds`. -/
  | waiting
  /-- After the critical section. -/
  | swapped
  /-- In the loop over `bufferToWrite`, with so many of them written. -/
  | writing (done : ℕ)
  | finished
  deriving DecidableEq, Repr

/-- Where the call of `stop()` is. -/
inductive StopPhase
  | notCalled
  | joining
  | returned
  deriving DecidableEq, Repr

structure AsyncLogging where
  running : Bool
  currentBuffer : BufferPtr
  nextBuffer : BufferPtr
  buffers : List BufferPtr
  newBuffer1 : BufferPtr
  newBuffer2 : BufferPtr
  bufferToWrite : List BufferPtr
  phase : LogPhase
  stop : StopPhase
  /-- The octets passed to `outputFile.append`. -/
  output : Bytes
  appended : List Bytes
  iterations : List Iteration

inductive LogInput
  | append (line : Bytes)
  /-- The logging thread goes on; a drop notice carries this time. -/
  | next (time : Bytes)
  | stop
  /-- `join` returns. -/
  | joined
  deriving DecidableEq, Repr

namespace AsyncLogging

/-- `start()` has returned. -/
def start : AsyncLogging where
  running := true
  currentBuffer := some .empty
  nextBuffer := some .empty
  buffers := []
  newBuffer1 := some .empty
  newBuffer2 := some .empty
  bufferToWrite := []
  phase := .testRunning
  stop := .notCalled
  output := []
  appended := []
  iterations := []

/-! ## `append` -/

def append (s : AsyncLogging) (logline : Bytes) : Except Fault AsyncLogging := do
  let current ← s.currentBuffer.get
  if logline.length < current.buffer.avail then
    .ok { s with
      currentBuffer := some (current.append logline), appended := s.appended ++ [logline] }
  else
    let fresh ← (if s.nextBuffer.isSome then s.nextBuffer else some .empty : BufferPtr).get
    check .asyncAppend (logline.length ≤ fresh.buffer.avail)
    .ok { s with
      buffers := s.buffers ++ [some current]
      currentBuffer := some (fresh.append logline)
      nextBuffer := none
      appended := s.appended ++ [logline] }

/-! ## `threadFunc` -/

/-- The head of the loop. -/
def testRunning (s : AsyncLogging) : Except Fault AsyncLogging :=
  if s.running then do
    check .newBuffers (s.newBuffer1.any (fun b => b.buffer.length = 0) = true)
    check .newBuffers (s.newBuffer2.any (fun b => b.buffer.length = 0) = true)
    check .newBuffers (s.bufferToWrite.length = 0)
    .ok { s with phase := .lock }
  else .ok { s with phase := .finished }

/-- The critical section, without the wait. -/
def swap (s : AsyncLogging) : AsyncLogging :=
  { s with
    buffers := s.bufferToWrite
    bufferToWrite := s.buffers ++ [s.currentBuffer]
    currentBuffer := s.newBuffer1
    newBuffer1 := none
    nextBuffer := if s.nextBuffer.isSome then s.nextBuffer else s.newBuffer2
    newBuffer2 := if s.nextBuffer.isSome then s.newBuffer2 else none
    phase := .swapped }

/-- `buf` after the `snprintf`, up to its length. -/
def dropNotice (time : Bytes) (buffers : ℕ) : Bytes :=
  snprintf 256 (octets "Dropped log message at ".toList ++ time ++ octets ", ".toList ++
    unsignedText buffers ++ octets " larger buffers\n".toList)

/-- Too many buffers are dropped but for two. -/
def drop (s : AsyncLogging) (time : Bytes) : Except Fault AsyncLogging := do
  check .bufferToWrite (s.bufferToWrite ≠ [])
  if 25 < s.bufferToWrite.length then
    let buf := dropNotice time (s.bufferToWrite.length - 2)
    .ok { s with
      output := s.output ++ buf
      bufferToWrite := s.bufferToWrite.take 2
      phase := .writing 0
      iterations := s.iterations ++
        [{ notice := some buf, kept := s.bufferToWrite.take 2
           dropped := s.bufferToWrite.drop 2 }] }
  else
    .ok { s with
      phase := .writing 0
      iterations := s.iterations ++
        [{ notice := none, kept := s.bufferToWrite, dropped := [] }] }

/-- A buffer is taken from the end of `bufferToWrite`, to be used again. -/
def recycle (p : BufferPtr) (bufferToWrite : List BufferPtr) :
    Except Fault (BufferPtr × List BufferPtr) :=
  match p with
  | some b => .ok (some b, bufferToWrite)
  | none => do
      check .bufferToWrite (bufferToWrite ≠ [])
      let _ ← (bufferToWrite.getLast?.getD none).get
      .ok (some .empty, bufferToWrite.dropLast)

/-- The end of the loop's body. -/
def endIteration (s : AsyncLogging) : Except Fault AsyncLogging := do
  let toWrite := if 2 < s.bufferToWrite.length then s.bufferToWrite.take 2 else s.bufferToWrite
  let (newBuffer1, toWrite) ← recycle s.newBuffer1 toWrite
  let (newBuffer2, _) ← recycle s.newBuffer2 toWrite
  .ok { s with
    newBuffer1 := newBuffer1
    newBuffer2 := newBuffer2
    bufferToWrite := []
    phase := .testRunning }

def next (s : AsyncLogging) (time : Bytes) : Except Fault AsyncLogging :=
  match s.phase with
  | .testRunning => s.testRunning
  | .lock => if s.buffers = [] then .ok { s with phase := .waiting } else .ok s.swap
  | .waiting => .ok s.swap
  | .swapped => s.drop time
  | .writing done =>
      match s.bufferToWrite[done]? with
      | some p => do
          let b ← p.get
          .ok { s with output := s.output ++ b.buffer.data, phase := .writing (done + 1) }
      | none => s.endIteration
  | .finished => .ok s

/-! ## The machine -/

def step (s : AsyncLogging) : LogInput → Except Fault AsyncLogging
  | .append line => s.append line
  | .next time => s.next time
  | .stop =>
      if s.stop = .notCalled then .ok { s with running := false, stop := .joining } else .ok s
  | .joined =>
      if s.stop = .joining ∧ s.phase = .finished then .ok { s with stop := .returned } else .ok s

def machine : Machine AsyncLogging LogInput Fault := ⟨step⟩

end AsyncLogging

end Firey
