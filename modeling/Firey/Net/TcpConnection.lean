import Firey.Net.Buffer
import Firey.Net.Channel

/-!
# `TcpConnectionff`

Each member function of a connection is a function of the connection and of what the kernel
answers, and returns the connection it leaves with the list of its *effects*, in order: the
octets `write(2)` took, a `SHUT_WR`, a functor given to `queueInLoop`, a user callback that is
invoked.  A user callback runs after everything the function has done to its own connection,
so what the callback does in turn is left to the loop that performs the effects
(`Firey.Net.EventLoop`).  Where a function goes on after a callback, the rest of it is an
effect too: `closeCallback` after `handleClose`, `channelRemove` after `connectionDestroy`.

A call is made in the loop thread or in another one; `runInLoop` then runs its second half at
once or queues it.  A functor queued by `send` holds the caller's pointer and a length, so
only the length is recorded: what the octets are when it runs is up to the caller.

`TcpConnection.step` collects the functions; it is the only way a connection changes.
-/

set_option autoImplicit false

namespace Firey

inductive ConnState
  | kDisconnected
  | kConnecting
  | kConnected
  | kDisconnecting
  deriving DecidableEq, Repr

/-- The user callbacks whose order a connection promises. -/
inductive Callback
  | up
  | message
  | down
  deriving DecidableEq, Repr

/-- What a connection puts into `pendingFunctors_`. -/
inductive Functor
  | sendInLoop (len : ℕ)
  | shutdownInLoop
  | forceCloseInLoop
  | startReadInLoop
  | stopReadInLoop
  | writeComplete
  | highWater
  deriving DecidableEq, Repr

/-- What a member function does outside its connection. -/
inductive Effect
  /-- `write(2)` was offered `data` and took its first `n` octets. -/
  | write (data : Bytes) (n : ℕ)
  /-- `Socketff::shutdown`. -/
  | shutdownWrite
  | queueInLoop (f : Functor)
  | callback (c : Callback)
  /-- The rest of `handleClose`: `closeCallback_`. -/
  | closeCallback
  /-- The rest of `connectionDestroy`: `connChannel_->remove()`. -/
  | channelRemove
  deriving DecidableEq, Repr

/-- `TcpConnectionff`; of the two optional callbacks only whether they are set. -/
structure TcpConnection where
  state : ConnState
  reading : Bool
  connChannel : Channel
  writeCompleteCallback : Bool
  highWaterCallback : Bool
  highWaterMark : ℕ
  inputBuffer : Buffer
  outputBuffer : Buffer
  deriving DecidableEq, Repr

namespace TcpConnection

/-- The constructor. -/
def ctor : TcpConnection where
  state := .kConnecting
  reading := false
  connChannel := Channel.ctor
  writeCompleteCallback := false
  highWaterCallback := false
  highWaterMark := 64 * 1024 * 1024
  inputBuffer := Buffer.ofInitialSize Buffer.kInitialSize
  outputBuffer := Buffer.ofInitialSize Buffer.kInitialSize

/-- What a member function leaves: the connection, and its effects in order. -/
abbrev Outcome := Except Fault (TcpConnection × List Effect)

/-- `state_==kConnected||state_==kDisconnecting`. -/
def isOpen (c : TcpConnection) : Bool :=
  c.state == .kConnected || c.state == .kDisconnecting

/-- `ownerLoop_->runInLoop(f)`: at once in the loop thread, queued in another. -/
def runInLoop (c : TcpConnection) (inLoop : Bool) (f : Functor) (now : Outcome) : Outcome :=
  if inLoop then now else .ok (c, [.queueInLoop f])

/-! ## Sending -/

/-- The locals of `sendInLoop` after its attempt to write directly. -/
structure Attempt where
  nwrite : ℕ
  remaining : ℕ
  faultError : Bool
  effects : List Effect

/-- The first half of `sendInLoop`: write directly if nothing is pending. -/
def attempt (c : TcpConnection) (data : Bytes) (w : WriteResult) : Attempt :=
  if !c.connChannel.isWriting && c.outputBuffer.readableBytes == 0 then
    match w with
    | .wrote n =>
        let nwrite := min n data.length
        { nwrite := nwrite
          remaining := data.length - nwrite
          faultError := false
          effects := .write data nwrite ::
            if data.length - nwrite = 0 ∧ c.writeCompleteCallback = true then
              [.queueInLoop .writeComplete]
            else [] }
    | .failed e =>
        { nwrite := 0
          remaining := data.length
          faultError := e ≠ .EWOULDBLOCK ∧ e ≠ .EAGAIN ∧ (e = .EPIPE ∨ e = .ECONNRESET)
          effects := [] }
  else
    { nwrite := 0, remaining := data.length, faultError := false, effects := [] }

/-- The notice that the output has reached the high water mark. -/
def highWaterEffects (c : TcpConnection) (remaining : ℕ) : List Effect :=
  let oldLen := c.outputBuffer.readableBytes
  if c.highWaterMark ≤ oldLen + remaining ∧ oldLen < c.highWaterMark ∧
      c.highWaterCallback = true then
    [.queueInLoop .highWater]
  else []

def sendInLoop (c : TcpConnection) (data : Bytes) (w : WriteResult) : Outcome :=
  if c.state = .kDisconnected then .ok (c, [])
  else do
    let t := c.attempt data w
    check .sendInLoop (t.remaining < data.length)
    if t.faultError = false ∧ 0 < t.remaining then
      let output ← c.outputBuffer.append (data.drop t.nwrite)
      let channel ←
        if c.connChannel.isWriting then .ok c.connChannel else c.connChannel.enableWriting
      .ok ({ c with outputBuffer := output, connChannel := channel },
        t.effects ++ c.highWaterEffects t.remaining)
    else
      .ok (c, t.effects)

def send (c : TcpConnection) (inLoop : Bool) (data : Bytes) (w : WriteResult) : Outcome :=
  if c.state = .kConnected then
    c.runInLoop inLoop (.sendInLoop data.length) (c.sendInLoop data w)
  else .ok (c, [])

/-! ## Closing -/

def shutdownInLoop (c : TcpConnection) : Outcome :=
  if c.connChannel.isWriting then .ok (c, []) else .ok (c, [.shutdownWrite])

def shutdown (c : TcpConnection) (inLoop : Bool) : Outcome :=
  if c.state = .kConnected then
    let c := { c with state := .kDisconnecting }
    c.runInLoop inLoop .shutdownInLoop c.shutdownInLoop
  else .ok (c, [])

def handleClose (c : TcpConnection) : Outcome := do
  check .handleClose (c.isOpen = true)
  let channel ← c.connChannel.disableAll
  .ok ({ c with state := .kDisconnected, connChannel := channel },
    [.callback .down, .closeCallback])

def forceCloseInLoop (c : TcpConnection) : Outcome :=
  if c.isOpen then c.handleClose else .ok (c, [])

def forceClose (c : TcpConnection) (inLoop : Bool) : Outcome :=
  if c.isOpen then
    let c := { c with state := .kDisconnecting }
    c.runInLoop inLoop .forceCloseInLoop c.forceCloseInLoop
  else .ok (c, [])

/-! ## Reading interest -/

def startReadInLoop (c : TcpConnection) : Outcome :=
  if c.reading = false ∨ c.connChannel.isReading = false then do
    let channel ← c.connChannel.enableReading
    .ok ({ c with connChannel := channel, reading := true }, [])
  else .ok (c, [])

def stopReadInLoop (c : TcpConnection) : Outcome :=
  if c.reading = true ∨ c.connChannel.isReading = true then do
    let channel ← c.connChannel.disableReading
    .ok ({ c with connChannel := channel, reading := false }, [])
  else .ok (c, [])

def startRead (c : TcpConnection) (inLoop : Bool) : Outcome :=
  c.runInLoop inLoop .startReadInLoop c.startReadInLoop

def stopRead (c : TcpConnection) (inLoop : Bool) : Outcome :=
  c.runInLoop inLoop .stopReadInLoop c.stopReadInLoop

/-! ## The ends of a connection -/

def connectionEstablished (c : TcpConnection) : Outcome := do
  check .connectionEstablished (c.state = .kConnecting)
  let channel ← c.connChannel.enableReading
  .ok ({ c with state := .kConnected, connChannel := channel }, [.callback .up])

def connectionDestroy (c : TcpConnection) : Outcome :=
  if c.state = .kConnected then do
    let channel ← c.connChannel.disableAll
    .ok ({ c with state := .kDisconnected, connChannel := channel },
      [.callback .down, .channelRemove])
  else .ok (c, [.channelRemove])

/-- The rest of `connectionDestroy`, after the user callback. -/
def channelRemove (c : TcpConnection) : Outcome := do
  let channel ← c.connChannel.remove
  .ok ({ c with connChannel := channel }, [])

/-! ## Events -/

/-- `handleError` only logs. -/
def handleError (c : TcpConnection) : Outcome := .ok (c, [])

def handleRead (c : TcpConnection) (r : ReadResult) : Outcome := do
  let result ← c.inputBuffer.readFd r
  let c := { c with inputBuffer := result.buffer }
  if 0 < result.n then .ok (c, [.callback .message])
  else if result.n = 0 then c.handleClose
  else c.handleError

def handleWrite (c : TcpConnection) (w : WriteResult) : Outcome :=
  if c.connChannel.isWriting then
    match w with
    | .wrote n =>
        let nwrite := min n c.outputBuffer.readableBytes
        if 0 < nwrite then do
          let output ← c.outputBuffer.retrieve nwrite
          let wrote := Effect.write c.outputBuffer.readable nwrite
          let c := { c with outputBuffer := output }
          if output.readableBytes = 0 then do
            let channel ← c.connChannel.disableWriting
            let c := { c with connChannel := channel }
            let complete : List Effect :=
              if c.writeCompleteCallback then [.queueInLoop .writeComplete] else []
            if c.state = .kDisconnecting then do
              let (c, shut) ← c.shutdownInLoop
              .ok (c, wrote :: complete ++ shut)
            else .ok (c, wrote :: complete)
          else .ok (c, [wrote])
        else .ok (c, [])
    | .failed _ => .ok (c, [])
  else .ok (c, [])

/-! ## All of it -/

/-- A member function with its arguments and the kernel's answers.  The flag of a call says
whether it is made in the loop thread. -/
inductive Input
  | connectionEstablished
  | connectionDestroy
  | channelRemove
  | send (inLoop : Bool) (data : Bytes) (w : WriteResult)
  | sendInLoop (data : Bytes) (w : WriteResult)
  | shutdown (inLoop : Bool)
  | shutdownInLoop
  | forceClose (inLoop : Bool)
  | forceCloseInLoop
  | startRead (inLoop : Bool)
  | startReadInLoop
  | stopRead (inLoop : Bool)
  | stopReadInLoop
  | handleRead (r : ReadResult)
  | handleWrite (w : WriteResult)
  | handleError
  | setWriteCompleteCallback
  | setHighWaterCallback (mark : ℕ)
  /-- A message callback takes octets out of the input buffer it is given. -/
  | retrieveInput (len : ℕ)
  deriving DecidableEq, Repr

def step (c : TcpConnection) : Input → Outcome
  | .connectionEstablished => c.connectionEstablished
  | .connectionDestroy => c.connectionDestroy
  | .channelRemove => c.channelRemove
  | .send inLoop data w => c.send inLoop data w
  | .sendInLoop data w => c.sendInLoop data w
  | .shutdown inLoop => c.shutdown inLoop
  | .shutdownInLoop => c.shutdownInLoop
  | .forceClose inLoop => c.forceClose inLoop
  | .forceCloseInLoop => c.forceCloseInLoop
  | .startRead inLoop => c.startRead inLoop
  | .startReadInLoop => c.startReadInLoop
  | .stopRead inLoop => c.stopRead inLoop
  | .stopReadInLoop => c.stopReadInLoop
  | .handleRead r => c.handleRead r
  | .handleWrite w => c.handleWrite w
  | .handleError => c.handleError
  | .setWriteCompleteCallback => .ok ({ c with writeCompleteCallback := true }, [])
  | .setHighWaterCallback mark =>
      .ok ({ c with highWaterCallback := true, highWaterMark := mark }, [])
  | .retrieveInput len => do
      let input ← c.inputBuffer.retrieve len
      .ok ({ c with inputBuffer := input }, [])

end TcpConnection

end Firey
