import Firey.Framework.Machine
import Firey.Logger.FileUtil
import Firey.Logger.Timestamp

/-!
# `LogFileff`

A `LogFileff` hands its lines to an `AppendFileff`, and makes a new one, of another name, when the
old one has got too long or its day is over.  The clock is read only when this is to be decided, and
for the name.

What the system answers is a parameter, `LogSystem`; `readings` counts how often the clock has been
read.  A file that has the name already is opened for appending, so `fopen` may come back to an old
one.  A base name is made of a C string (`setAsyncLogger`), and so is a host name, so that no NUL
cuts the name that `fopen` is given.  `opened` is history.  The mutex only puts the calls one behind
the other.
-/

set_option autoImplicit false

namespace Firey

/-- What the system answers around the `i`-th reading of the clock. -/
structure LogSystem where
  time : ℕ → ℕ
  gethostname : ℕ → Option Bytes
  getpid : ℕ → ℕ
  fopen : ℕ → Bool

structure DiskFile where
  name : Bytes
  contents : Bytes
  deriving DecidableEq, Repr

/-- What an `AppendFileff` has: the file, by its place on the disk, and `writtenBytes_`. -/
structure LogHandle where
  file : ℕ
  writtenBytes : ℕ
  deriving DecidableEq, Repr

structure LogFile where
  basename_ : Bytes
  rollSize_ : ℤ
  flushInterval_ : ℤ
  checkEveryN_ : ℤ
  count_ : ℤ
  startOfPeriod_ : ℕ
  lastRoll_ : ℕ
  lastFlush_ : ℕ
  file_ : Option LogHandle
  deriving DecidableEq, Repr

/-- Each `fopen` that a `LogFileff` has made: the name, and the second. -/
structure LogOpening where
  name : Bytes
  second : ℕ
  deriving DecidableEq, Repr

/-- The files stand in the order in which they were made. -/
structure LogDisk where
  log : LogFile
  disk : List DiskFile
  readings : ℕ
  opened : List LogOpening
  deriving DecidableEq, Repr

/-- A call of `append`, with the results of `fwrite_unlocked` in it. -/
structure LogAppend where
  logline : Bytes
  answers : ℕ → ℕ

namespace ProcessInfo

/-- `hostname()`; the name ends at the NUL, which `gethostname` may have had no room for. -/
def hostname (answer : Option Bytes) : Bytes :=
  match answer with
  | some buf => buf.take 255
  | none => octets "unkownhost".toList

/-- `pidToString()`. -/
def pidToString (pid : ℕ) : Bytes := snprintf 32 (octets ".".toList ++ decimalText pid)

end ProcessInfo

namespace LogFile

def kRollPerSecond_ : ℕ := 60 * 60 * 24

/-- `timebuf`. -/
def timebuf (now : ℕ) : Bytes :=
  snprintf 32 (octets ".".toList ++ dateTimeText [] (octets "-".toList) [] (gmtime now) ++
    octets ".".toList)

/-- The array has room for the text. -/
lemma timebuf_eq {now : ℕ} (h : FourDigitYear now) :
    timebuf now = octets ".".toList ++
      (fieldsText (dateTimeFields [] (octets "-".toList) []) (shownFields now) ++
        octets ".".toList) := by
  have hlen := length_dateTimeText h [] (octets "-".toList) []
  have hparts : 14 + 2 * ([] : Bytes).length + (octets "-".toList).length +
      2 * ([] : Bytes).length = 15 := rfl
  have hdot : (octets ".".toList).length = 1 := rfl
  rw [timebuf, snprintf_of_lt (by
    rw [List.length_append, List.length_append, hlen, hparts, hdot]
    decide), dateTimeText_eq h, List.append_assoc]

lemma length_timebuf {now : ℕ} (h : FourDigitYear now) : (timebuf now).length = 17 := by
  rw [timebuf_eq h, List.length_append, List.length_append,
    length_fieldsText (fitFields_shown h [] (octets "-".toList) [])]
  rfl

/-- `getLogFileName(basename, now)`, at the `i`-th reading of the clock. -/
def getLogFileName (sys : LogSystem) (basename : Bytes) (i : ℕ) : Bytes :=
  basename ++ timebuf (sys.time i) ++ ProcessInfo.hostname (sys.gethostname i) ++
    ProcessInfo.pidToString (sys.getpid i) ++ octets ".log".toList

end LogFile

namespace LogDisk

variable (sys : LogSystem)

/-- `::time(NULL)`. -/
def time (d : LogDisk) : ℕ × LogDisk := (sys.time d.readings, { d with readings := d.readings + 1 })

/-- `fopen(filename, "ae")`. -/
def openFile (d : LogDisk) (filename : Bytes) : ℕ × LogDisk :=
  let place := d.disk.findIdx fun f => f.name = filename
  if place < d.disk.length then (place, d)
  else (d.disk.length, { d with disk := d.disk ++ [⟨filename, []⟩] })

/-- `rollFile()`. -/
def rollFile (d : LogDisk) : Except Fault (Bool × LogDisk) :=
  let filename := LogFile.getLogFileName sys d.log.basename_ d.readings
  let opens := sys.fopen d.readings
  let (now, d) := d.time sys
  let start := now / LogFile.kRollPerSecond_ * LogFile.kRollPerSecond_
  if d.log.lastRoll_ < now then do
    check .appendFile opens
    let (place, d) := d.openFile filename
    .ok (true, { d with
      log := { d.log with
        lastRoll_ := now
        lastFlush_ := now
        startOfPeriod_ := start
        file_ := some ⟨place, 0⟩ }
      opened := d.opened ++ [⟨filename, now⟩] })
  else .ok (false, d)

/-- `file_->append(logline, len)`. -/
def write (d : LogDisk) (h : LogHandle) (call : LogAppend) : Except Fault (LogHandle × LogDisk) := do
  let f := d.disk.getD h.file ⟨[], []⟩
  let g ← AppendFile.append ⟨f.contents, h.writtenBytes⟩ call.answers call.logline
  let h := { h with writtenBytes := g.writtenBytes }
  .ok (h, { d with
    log := { d.log with file_ := some h }
    disk := d.disk.set h.file { f with contents := g.contents } })

/-- What `append_unlocked` does every `checkEveryN_` calls. -/
def checkPeriod (d : LogDisk) : Except Fault LogDisk :=
  let d := { d with log := { d.log with count_ := 0 } }
  let (now, d) := d.time sys
  let thisPeriod_ := now / LogFile.kRollPerSecond_ * LogFile.kRollPerSecond_
  if thisPeriod_ ≠ d.log.startOfPeriod_ then do
    let (_, d) ← d.rollFile sys
    .ok d
  else if d.log.flushInterval_ < (now : ℤ) - d.log.lastFlush_ then
    .ok { d with log := { d.log with lastFlush_ := now } }
  else .ok d

/-- `append_unlocked(logline, len)`. -/
def append_unlocked (d : LogDisk) (call : LogAppend) : Except Fault LogDisk :=
  match d.log.file_ with
  | none => .error .nullPointer
  | some h => do
    let (h, d) ← d.write h call
    if d.log.rollSize_ < h.writtenBytes then do
      let (_, d) ← d.rollFile sys
      .ok d
    else
      let d := { d with log := { d.log with count_ := d.log.count_ + 1 } }
      if d.log.checkEveryN_ ≤ d.log.count_ then d.checkPeriod sys else .ok d

/-- The constructor, in an empty directory. -/
def ctor (basename : Bytes) (rollSize flushInterval checkEveryN : ℤ) : Except Fault LogDisk := do
  check .logBasename (47 ∉ basename)
  let (_, d) ← rollFile sys
    { log :=
        { basename_ := basename
          rollSize_ := rollSize
          flushInterval_ := flushInterval
          checkEveryN_ := checkEveryN
          count_ := 0
          startOfPeriod_ := 0
          lastRoll_ := 0
          lastFlush_ := 0
          file_ := none }
      disk := []
      readings := 0
      opened := [] }
  .ok d

/-- Calls of `append`. -/
def machine : Machine LogDisk LogAppend Fault := ⟨append_unlocked sys⟩

end LogDisk

end Firey
