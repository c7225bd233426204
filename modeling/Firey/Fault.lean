import Mathlib.Algebra.Group.Nat.Defs
import Mathlib.Data.Int.Notation
import Mathlib.Data.List.Basic
import Mathlib.Tactic.Lemma

/-!
# Bytes, kernel answers, and the ways the process goes down

The default build is `Debug`, so a failed `assert` ends the process; so do `LOG_SYSFATAL` and
an exception nobody catches.  `Fault` lists these ends, and a failed assertion is named by
the function that makes it.  Functions of the source that can reach one return `Except
Fault`, with `check` for the assertions themselves.
-/

set_option autoImplicit false

namespace Firey

/-- `char`, read as an octet. -/
abbrev Byte := UInt8

/-- A string of octets: the contents of a `std::string` or of a pointer range. -/
abbrev Bytes := List Byte

/-- The octets of a C string. -/
def octets (cs : List Char) : Bytes := cs.map fun c => UInt8.ofNat c.toNat

/-- `Timestampff`, in microseconds. -/
abbrev Timestamp := ℤ

/-- The error codes the source looks at. -/
inductive Errno
  | EAGAIN
  | EWOULDBLOCK
  | EPIPE
  | ECONNRESET
  | other (code : ℕ)
  deriving DecidableEq, Repr

/-- What `write(2)` answers: a count, or an error. -/
inductive WriteResult
  | wrote (n : ℕ)
  | failed (e : Errno)
  deriving DecidableEq, Repr

/-- What `readv(2)` answers: the octets it delivered (none of them at end of stream), or an
error. -/
inductive ReadResult
  | got (data : Bytes)
  | failed (e : Errno)
  deriving DecidableEq, Repr

/-- The assertions of the modelled functions. -/
inductive Assertion
  /-- `Bufferff::retrieve`: `len<=readableBytes()`. -/
  | retrieve
  /-- `Bufferff::retrieveUntil`: `peek()<=end` and `end<=beginWrite()`. -/
  | retrieveUntil
  /-- `Bufferff::retrieveAsString`: `len<=readableBytes()`. -/
  | retrieveAsString
  /-- `Bufferff::ensureWritableBytes`: `writableBytes()>=len`. -/
  | ensureWritableBytes
  /-- `Bufferff::hasWritten`: `len<=writableBytes()`. -/
  | hasWritten
  /-- `Bufferff::unwrite`: `len<=readableBytes()`. -/
  | unwrite
  /-- `Bufferff::prepend`: `len<=prependableBytes()`. -/
  | prepend
  /-- `Bufferff::peekInt64` and its siblings: `readableBytes()>=sizeof(int64_t)`. -/
  | peekInt
  /-- `Bufferff::makeSpace`: `kCheapPrepend<readerIndex_`. -/
  | makeSpaceReader
  /-- `Bufferff::makeSpace`: `readable==readableBytes()`. -/
  | makeSpaceReadable
  /-- `Pollerff::updateChannel`: what `channels_` holds for the descriptor. -/
  | updateChannel
  /-- `Pollerff::removeChannel`: `channels_`, the interest and `index_` of the channel. -/
  | removeChannel
  /-- `Channelff::remove`: `isNoneEvent()`. -/
  | channelRemove
  /-- `TcpConnectionff::sendInLoop`: `remaining<len`. -/
  | sendInLoop
  /-- `TcpConnectionff::connectionEstablished`: `state_==kConnecting`. -/
  | connectionEstablished
  /-- `TcpConnectionff::handleClose`: `state_==kConnected||state_==kDisconnecting`. -/
  | handleClose
  /-- `TcpServerff::removeConnectionInLoop`: `n==1`. -/
  | removeConnectionInLoop
  /-- `Socket::toIp`: `size>=INET_ADDRSTRLEN`. -/
  | toIp
  /-- `Socket::toIpPort`: `size>end`. -/
  | toIpPort
  /-- `TcpConnectionff::~TcpConnectionff`: `state_==kDisconnected`. -/
  | connectionDestructor
  /-- `Channelff::~Channelff`: `!addToLoop_`. -/
  | channelDestructor
  /-- `HttpRequestff::setMethod`: `method_==kInvalid`. -/
  | setMethod
  /-- `TimerQueueff::getExpiredTimer`: `timers_.size()==activeTimers_.size()`. -/
  | getExpiredTimerSize
  /-- `TimerQueueff::getExpiredTimer`: `it==timers_.end()||it->first>now`. -/
  | getExpiredTimerBound
  /-- `TimerQueueff::insertTimer`: `timers_.size()==activeTimers_.size()`. -/
  | insertTimerSize
  /-- `TimerQueueff::cancelInLoop`: `timers_.size()==activeTimers_.size()`. -/
  | cancelInLoopSize
  /-- `EventLoopff::quit`: `!quit_`. -/
  | quit
  /-- `AsyncLoggingff::append`: `currentBuffer_->avail()>=len`. -/
  | asyncAppend
  /-- `AsyncLoggingff::threadFunc`: the two new buffers are there and empty, and
  `bufferToWrite.size()==0`. -/
  | newBuffers
  /-- `AsyncLoggingff::threadFunc`: `!bufferToWrite.empty()`. -/
  | bufferToWrite
  /-- `ThreadPoolff::run`: `!isFull()`. -/
  | threadPoolRun
  /-- `Fmt::Fmt`: `length_<sizeof buf_`. -/
  | fmt
  /-- `Helper::Helper`: `strlen(str)==len_`. -/
  | helper
  /-- `Loggerff::Impl::formatTime`: `len==17`. -/
  | formatTimeSeconds
  /-- `Loggerff::Impl::formatTime`: `us.length()==8`. -/
  | formatTimeMicroseconds
  /-- `AppendFileff::AppendFileff`: `fp_`. -/
  | appendFile
  /-- `LogFileff::LogFileff`: `basename.find('/')==std::string::npos`. -/
  | logBasename
  /-- `Acceptorff::Acceptorff`: `idleFd_>=0`. -/
  | acceptor
  /-- `ReadSmallFileff::readToString`: `content!=nullptr`. -/
  | readToString
  deriving DecidableEq, Repr

/-- How the process ends. -/
inductive Fault
  /-- An assertion fails. -/
  | assertion (a : Assertion)
  /-- `LOG_SYSFATAL` aborts. -/
  | sysFatal
  /-- `LOG_FATAL` aborts. -/
  | logFatal
  /-- `std::length_error` is thrown. -/
  | lengthError
  /-- Memory that was deleted is read, or deleted again. -/
  | dangling
  /-- A loop makes no progress and never exits. -/
  | diverges
  /-- A null pointer is followed. -/
  | nullPointer
  /-- Memory outside of an object is read or written. -/
  | outOfBounds
  /-- A signed number leaves its type. -/
  | overflow
  deriving DecidableEq, Repr

/-- `assert(p)`. -/
def check (a : Assertion) (p : Prop) [Decidable p] : Except Fault Unit :=
  if p then .ok () else .error (.assertion a)

lemma check_true {a : Assertion} {p : Prop} [Decidable p] (h : p) : check a p = .ok () :=
  if_pos h

lemma check_false {a : Assertion} {p : Prop} [Decidable p] (h : ¬ p) :
    check a p = .error (.assertion a) :=
  if_neg h

@[simp] lemma ok_bind {ε α β : Type} (a : α) (f : α → Except ε β) :
    (Except.ok a >>= f) = f a := rfl

@[simp] lemma error_bind {ε α β : Type} (e : ε) (f : α → Except ε β) :
    (Except.error e >>= f) = .error e := rfl

/-- A sequence succeeds only if both of its parts do. -/
lemma bind_eq_ok {ε α β : Type} {x : Except ε α} {f : α → Except ε β} {b : β}
    (h : (x >>= f) = .ok b) : ∃ a, x = .ok a ∧ f a = .ok b := by
  cases x with
  | error e => cases h
  | ok a => exact ⟨a, rfl, h⟩

/-- A check that passes holds. -/
lemma check_eq_ok {a : Assertion} {p : Prop} [Decidable p] {u : Unit}
    (h : check a p = .ok u) : p := by
  by_contra hp
  rw [check_false hp] at h
  cases h

end Firey
