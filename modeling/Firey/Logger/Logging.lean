import Firey.Logger.Insertions
import Firey.Logger.Timestamp
import Firey.Thread.CurrentThread

/-!
# `Loggerff`

A log statement makes a `Loggerff`, inserts into its stream, and destroys it.  The constructor
writes the time, the thread and the level in front, `finish` the source line behind, all of it into
the one stream, and the destructor passes what the stream has to `g_output`.

The time up to the second is written once a second and kept in thread-local variables.
-/

set_option autoImplicit false

namespace Firey

/-- The thread-local `t_time`, as the C string in the array, and `t_lastSecond`. -/
structure TimeCache where
  t_time : Bytes
  t_lastSecond : ℕ
  deriving DecidableEq, Repr

/-- As a thread begins. -/
def TimeCache.initial : TimeCache := ⟨[], 0⟩

inductive LogLevel
  | TRACE
  | DEBUG
  | INFO
  | WARN
  | ERROR
  | FATAL
  deriving DecidableEq, Repr

/-- `LogLevelName`. -/
def LogLevel.name : LogLevel → Bytes
  | TRACE => octets "TRACE ".toList
  | DEBUG => octets "DEBUG ".toList
  | INFO => octets "INFO  ".toList
  | WARN => octets "WARN  ".toList
  | ERROR => octets "ERROR ".toList
  | FATAL => octets "FATAL ".toList

/-- `Loggerff::SourceFile`: what stands behind the last slash. -/
def sourceFile (filename : Bytes) : Bytes := (filename.reverse.takeWhile fun c => c ≠ 47).reverse

/-- What a constructor of `Loggerff` finds: the thread-local variables, the number of the thread,
the current time, `errno` with its text, and the storage of the stream. -/
structure LogContext where
  times : TimeCache
  locals : ThreadLocals
  gettid : ℕ
  now : ℕ
  errno : BitVec 32
  strerror : Bytes
  data_ : CharArray kSmallBuffer

structure Logger where
  stream : LogStream
  level : LogLevel
  line : BitVec 32
  basename : Bytes

/-- What comes of a log statement: the octets passed to `g_output`, and whether it aborts. -/
structure LogRecord where
  output : Bytes
  aborts : Bool

namespace Logger

/-- `Fmt::Fmt(fmt, val)`, with the text that `fmt` makes of `val`: `data()` and `length()`. -/
def fmt (text : Bytes) : Except Fault (Bytes × ℕ) := do
  check .fmt (text.length < 32)
  .ok (snprintf 32 text, text.length)

/-- `stream_<<Helper(str, len)`. -/
def insertHelper (s : LogStream) (str : Bytes) (len : ℕ) : Except Fault LogStream := do
  check .helper (str.length = len)
  s.append (str.take len)

/-- `"%4d%02d%02d %02d:%02d:%02d"`. -/
def secondsText (seconds : ℕ) : Bytes :=
  dateTimeText [] (octets " ".toList) (octets ":".toList) (gmtime seconds)

/-- `".%06d "`. -/
def microsecondsText (microseconds : ℕ) : Bytes :=
  octets ".".toList ++ zeroPadded 6 microseconds ++ octets " ".toList

/-- The time is formatted up to the second, unless it is the second of the last time. -/
def refresh (times : TimeCache) (seconds : ℕ) : Except Fault TimeCache :=
  if seconds ≠ times.t_lastSecond then do
    check .formatTimeSeconds ((secondsText seconds).length = 17)
    .ok ⟨snprintf 64 (secondsText seconds), seconds⟩
  else .ok times

/-- `formatTime()`. -/
def formatTime (times : TimeCache) (s : LogStream) (microSecondsSinceEpoch : ℕ) :
    Except Fault (TimeCache × LogStream) := do
  let times ← refresh times (microSecondsSinceEpoch / Timestamp.kusPerSecond)
  let (data, length) ← fmt (microsecondsText (microSecondsSinceEpoch % Timestamp.kusPerSecond))
  check .formatTimeMicroseconds (length = 8)
  let s ← insertHelper s times.t_time 17
  let s ← insertHelper s data 8
  .ok (times, s)

/-- `Impl::Impl(level, savedErrno, file, line)`. -/
def impl (ctx : LogContext) (level : LogLevel) (savedErrno : BitVec 32) (file : Bytes)
    (line : BitVec 32) : Except Fault (LogContext × Logger) := do
  let (times, s) ← formatTime ctx.times (.ctor ctx.data_) ctx.now
  let locals := ctx.locals.afterTid ctx.gettid
  let s ← insertHelper s locals.tidString locals.tidStringLength
  let s ← insertHelper s level.name 6
  let s ← if savedErrno ≠ 0 then do
      let s ← s.insertCString (some ctx.strerror)
      let s ← s.insertCString (some (octets "(errno=".toList))
      let s ← s.insertInt savedErrno
      s.insertCString (some (octets ")".toList))
    else .ok s
  .ok ({ ctx with times := times, locals := locals },
    { stream := s, level := level, line := line, basename := sourceFile file })

/-- `Impl::finish()`. -/
def finish (l : Logger) : Except Fault Logger := do
  let s ← l.stream.insertCString (some (octets " - ".toList))
  let s ← s.append l.basename
  let s ← s.append (octets ":".toList)
  let s ← s.insertInt l.line
  let s ← s.append (octets "\n".toList)
  .ok { l with stream := s }

/-- `~Loggerff()`. -/
def destructor (l : Logger) : Except Fault LogRecord := do
  let l ← l.finish
  .ok { output := l.stream.text, aborts := l.level = .FATAL }

end Logger

/-- A call of one of the constructors of `Loggerff`. -/
inductive LoggerCall
  | info (file : Bytes) (line : BitVec 32)
  | leveled (file : Bytes) (line : BitVec 32) (level : LogLevel)
  | inFunction (file : Bytes) (line : BitVec 32) (level : LogLevel) (func : Bytes)
  | withErrno (file : Bytes) (line : BitVec 32) (toAbort : Bool)

/-- `Loggerff::Loggerff`. -/
def LoggerCall.construct (ctx : LogContext) : LoggerCall → Except Fault (LogContext × Logger)
  | info file line => Logger.impl ctx .INFO 0 file line
  | leveled file line level => Logger.impl ctx level 0 file line
  | inFunction file line level func => do
      let (ctx, l) ← Logger.impl ctx level 0 file line
      let s ← l.stream.insertCString (some func)
      let s ← s.append (octets " ".toList)
      .ok (ctx, { l with stream := s })
  | withErrno file line toAbort =>
      Logger.impl ctx (if toAbort then .FATAL else .ERROR) ctx.errno file line

end Firey
