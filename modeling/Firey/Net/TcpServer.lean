import Mathlib.Logic.Function.Basic
import Firey.Net.EventLoop
import Firey.Net.Owners

/-!
# `TcpServerff` with the loops of its pool, and its destructor

`Firey.Net.EventLoop` has one loop that never ends and a server that is never destroyed.  Here a
server has a loop of its own, `serverLoop`, and gives each connection to a loop, its own or one
of the pool (the round robin of `getNextLoop` is left to the input).  The loops take their steps
in any order.  A member function of a connection is run in the loop of the connection; what is
left to do when its callback returns is a `Frame` on top of that thread, and what other threads
ask for is a functor in its queue.

The destructor runs in the thread of `serverLoop`, in user code or after `loop` has returned.  It
calls `connectionDestroy` of the connections of that loop itself and queues the others, and when
its body is done the loops of the pool are told to quit: `exit` is the end of a loop together
with the destructor of its `EventLoopff`, which destroys the functors that have not run.

The channels that are ready are handled before the functors, in an order that is left to the
inputs, and since an entry of `activeChannels_` can be out of date by then, an event is not asked
to be one that `epoll_wait` would report now.
-/

set_option autoImplicit false

namespace Firey

/-- A functor of a loop, by the function that is bound. -/
inductive ServerTask
  | connection (id : ConnId) (f : Functor)
  | connectionEstablished (id : ConnId)
  | connectionDestroy (id : ConnId)
  | removeConnectionInLoop (id : ConnId)
  deriving DecidableEq, Repr

namespace ServerTask

/-- The `TcpConnectionPtr` that is bound. -/
def holds : ServerTask → Option ConnId
  | .connection id .forceCloseInLoop => some id
  | .connection id .writeComplete => some id
  | .connection id .highWater => some id
  | .connection _ _ => none
  | .connectionEstablished id => some id
  | .connectionDestroy id => some id
  | .removeConnectionInLoop id => some id

/-- The connection of which a member function is run. -/
def ofConn : ServerTask → Option ConnId
  | .connection id _ => some id
  | .connectionEstablished id => some id
  | .connectionDestroy id => some id
  | .removeConnectionInLoop _ => none

end ServerTask

/-- What a thread goes on with, when what it is doing returns. -/
inductive Frame
  /-- A user callback that has not returned. -/
  | user
  /-- The rest of `handleClose`, after the user callback. -/
  | closeCallback (id : ConnId)
  /-- The rest of `connectionDestroy`, after the user callback. -/
  | channelRemove (id : ConnId)
  /-- The rest of the `for` of the server's destructor. -/
  | destructor (order : List ConnId)
  deriving DecidableEq, Repr

/-- A loop: what its thread is doing, innermost first, the vector of `doPendingFunctors`, and
`pendingFunctors_`. -/
structure LoopThread where
  frames : List Frame
  batch : List ServerTask
  pendingFunctors : List ServerTask
  exited : Bool
  deriving DecidableEq, Repr

/-- A connection object with the callbacks made for it.  `removed` is set when
`connectionDestroy` has returned. -/
structure ServerConn where
  conn : TcpConnection
  loop : LoopId
  trace : List Callback
  removed : Bool
  deleted : Bool
  deriving DecidableEq, Repr

/-- `connections` are the entries of the map that hold a pointer, `delayed` the timers of
`forceCloseWithDelay`, which hold one too. -/
structure TcpServer where
  peers : List ServerConn
  connections : List ConnId
  loops : LoopId → LoopThread
  delayed : List ConnId
  phase : ServerPhase

/-- A callback of the channel of a connection, with what the kernel answers. -/
inductive ChannelEvent
  | read (r : ReadResult)
  | write (w : WriteResult)
  | error
  deriving DecidableEq, Repr

def ChannelEvent.toInput : ChannelEvent → TcpConnection.Input
  | .read r => .handleRead r
  | .write w => .handleWrite w
  | .error => .handleError

inductive ServerInput
  /-- The server accepts a connection for the loop. -/
  | accept (l : LoopId) (writeComplete : Bool)
  | handleEvent (id : ConnId) (e : ChannelEvent)
  /-- `doPendingFunctors` takes the queue. -/
  | swap (l : LoopId)
  /-- The thread goes on, with the innermost frame or the next functor. -/
  | next (l : LoopId) (a : Answers)
  /-- A timer or a functor of the user's own is run. -/
  | userCode (l : LoopId)
  /-- The user code that is running in the loop calls a function of a connection. -/
  | call (l : LoopId) (id : ConnId) (a : Action)
  /-- It takes octets out of an input buffer. -/
  | consume (l : LoopId) (id : ConnId) (len : ℕ)
  | ret (l : LoopId)
  /-- A thread that runs no loop calls a function of a connection. -/
  | remote (id : ConnId) (a : Action)
  | forceCloseWithDelay (id : ConnId)
  /-- The timer of `forceCloseWithDelay` is run. -/
  | delayOver (id : ConnId)
  /-- The destructor is entered; `order` is that of the map. -/
  | destroyServer (order : List ConnId)
  /-- The loop is left and destroyed. -/
  | exit (l : LoopId)
  /-- The last pointer to a connection goes. -/
  | release (id : ConnId)
  deriving DecidableEq, Repr

/-- The functors among the effects. -/
def functorsOf (id : ConnId) (es : List Effect) : List ServerTask :=
  es.filterMap fun
    | .queueInLoop f => some (.connection id f)
    | _ => none

/-- What is left to do before the caller goes on. -/
def framesOf (id : ConnId) (es : List Effect) : List Frame :=
  es.filterMap fun
    | .callback _ => some .user
    | .closeCallback => some (.closeCallback id)
    | .channelRemove => some (.channelRemove id)
    | _ => none

def ServerConn.after (p : ServerConn) (i : TcpConnection.Input) (c : TcpConnection)
    (es : List Effect) : ServerConn :=
  { p with
    conn := c
    trace := p.trace ++ callbacksOf es
    removed := p.removed || decide (i = .channelRemove) }

def LoopThread.after (t : LoopThread) (id : ConnId) (es : List Effect) : LoopThread :=
  { t with
    frames := framesOf id es ++ t.frames
    pendingFunctors := t.pendingFunctors ++ functorsOf id es }

namespace TcpServer

/-- A server that has started, with no connection yet. -/
def start : TcpServer where
  peers := []
  connections := []
  loops := fun _ => { frames := [], batch := [], pendingFunctors := [], exited := false }
  delayed := []
  phase := .alive

/-! ## Loops -/

/-- The thread is between two events, or between two functors. -/
def atRest (s : TcpServer) (l : LoopId) : Bool :=
  (s.loops l).frames = [] ∧ (s.loops l).exited = false

/-- It is done with the functors too. -/
def idle (s : TcpServer) (l : LoopId) : Bool := s.atRest l ∧ (s.loops l).batch = []

/-- User code is running. -/
def inUser (s : TcpServer) (l : LoopId) : Bool := (s.loops l).frames.head? = some .user

def setLoop (s : TcpServer) (l : LoopId) (t : LoopThread) : TcpServer :=
  { s with loops := Function.update s.loops l t }

def setFrames (s : TcpServer) (l : LoopId) (frames : List Frame) : TcpServer :=
  s.setLoop l { s.loops l with frames := frames }

def queueInLoop (s : TcpServer) (l : LoopId) (t : ServerTask) : TcpServer :=
  s.setLoop l { s.loops l with pendingFunctors := (s.loops l).pendingFunctors ++ [t] }

/-! ## Calling a connection -/

/-- Call a member function of a connection. -/
def exec (s : TcpServer) (id : ConnId) (i : TcpConnection.Input) : Except Fault TcpServer :=
  match s.peers[id]? with
  | none => .ok s
  | some p =>
      if p.deleted then .error .dangling
      else do
        let (c, es) ← p.conn.step i
        .ok { s with
          peers := s.peers.set id (p.after i c es)
          loops := Function.update s.loops p.loop ((s.loops p.loop).after id es) }

/-- Somebody can have a pointer to the connection. -/
def live (s : TcpServer) (id : ConnId) : Bool := s.peers[id]?.any fun p => !p.deleted

def loopOf (s : TcpServer) (id : ConnId) : Option LoopId := s.peers[id]?.map ServerConn.loop

/-! ## `TcpServerff` -/

def newConnection (s : TcpServer) (l : LoopId) (writeComplete : Bool) : Except Fault TcpServer :=
  let id := s.peers.length
  let conn := { TcpConnection.ctor with writeCompleteCallback := writeComplete }
  let p : ServerConn :=
    { conn := conn, loop := l, trace := [], removed := false, deleted := false }
  let s' : TcpServer := { s with peers := s.peers ++ [p], connections := id :: s.connections }
  if l = serverLoop then s'.exec id .connectionEstablished
  else .ok (s'.queueInLoop l (.connectionEstablished id))

def removeConnectionInLoop (s : TcpServer) (id : ConnId) : Except Fault TcpServer :=
  if s.phase = .dead then .error .dangling
  else do
    check .removeConnectionInLoop (id ∈ s.connections)
    let s' : TcpServer := { s with connections := s.connections.filter (· ≠ id) }
    .ok (match s.loopOf id with
      | some l => s'.queueInLoop l (.connectionDestroy id)
      | none => s')

/-- `closeCallback_`, in the loop `l`. -/
def removeConnection (s : TcpServer) (l : LoopId) (id : ConnId) : Except Fault TcpServer :=
  if l = serverLoop then s.removeConnectionInLoop id
  else .ok (s.queueInLoop serverLoop (.removeConnectionInLoop id))

/-- One round of the `for` of the destructor. -/
def destructNext (s : TcpServer) (id : ConnId) : Except Fault TcpServer :=
  let s' : TcpServer := { s with connections := s.connections.filter (· ≠ id) }
  match s.loopOf id with
  | some l =>
      if l = serverLoop then s'.exec id .connectionDestroy
      else .ok (s'.queueInLoop l (.connectionDestroy id))
  | none => .ok s'

/-! ## The end of a connection object -/

/-- Nobody but a user can still have a pointer. -/
def unheld (s : TcpServer) (id : ConnId) (p : ServerConn) : Bool :=
  id ∉ s.connections ∧ id ∉ s.delayed ∧
    (∀ l ∈ [p.loop, serverLoop], ∀ t ∈ (s.loops l).batch ++ (s.loops l).pendingFunctors,
      t.holds ≠ some id) ∧
    ∀ f ∈ (s.loops p.loop).frames, f ≠ .closeCallback id ∧ f ≠ .channelRemove id

/-- `TcpConnectionff::~TcpConnectionff`, and that of its channel. -/
def release (s : TcpServer) (id : ConnId) : Except Fault TcpServer :=
  match s.peers[id]? with
  | none => .ok s
  | some p =>
      if p.deleted = false ∧ s.unheld id p then do
        check .connectionDestructor (p.conn.state = .kDisconnected)
        check .channelDestructor (p.conn.connChannel.addToLoop = false)
        .ok { s with peers := s.peers.set id { p with deleted := true } }
      else .ok s

/-! ## The machine -/

def runTask (s : TcpServer) (l : LoopId) (a : Answers) : ServerTask → Except Fault TcpServer
  | .connectionEstablished id => s.exec id .connectionEstablished
  | .connectionDestroy id => s.exec id .connectionDestroy
  | .removeConnectionInLoop id => s.removeConnectionInLoop id
  | .connection id f =>
      match f with
      | .sendInLoop len => s.exec id (.sendInLoop (a.data.takeD len 0) a.write)
      | .shutdownInLoop => s.exec id .shutdownInLoop
      | .forceCloseInLoop => s.exec id .forceCloseInLoop
      | .startReadInLoop => s.exec id .startReadInLoop
      | .stopReadInLoop => s.exec id .stopReadInLoop
      | .writeComplete => .ok (s.setFrames l (.user :: (s.loops l).frames))
      | .highWater => .ok (s.setFrames l (.user :: (s.loops l).frames))

def next (s : TcpServer) (l : LoopId) (a : Answers) : Except Fault TcpServer :=
  match (s.loops l).frames with
  | .user :: _ => .ok s
  | .closeCallback id :: rest => (s.setFrames l rest).removeConnection l id
  | .channelRemove id :: rest => (s.setFrames l rest).exec id .channelRemove
  | .destructor [] :: rest => .ok { s.setFrames l rest with phase := .dead }
  | .destructor (id :: ids) :: rest =>
      let s' := s.setFrames l (.destructor ids :: rest)
      -- a callback of the destructor can have closed the connection
      if id ∈ s.connections then s'.destructNext id else .ok s'
  | [] =>
      match (s.loops l).batch with
      | [] => .ok s
      | t :: ts => (s.setLoop l { s.loops l with batch := ts }).runTask l a t

def step (s : TcpServer) : ServerInput → Except Fault TcpServer
  | .accept l writeComplete =>
      if s.phase = .alive ∧ s.idle serverLoop ∧ (s.loops l).exited = false then
        s.newConnection l writeComplete
      else .ok s
  | .handleEvent id e =>
      if s.live id ∧ (s.loopOf id).any s.idle then s.exec id e.toInput else .ok s
  | .swap l =>
      if s.idle l then
        .ok (s.setLoop l { s.loops l with
          batch := (s.loops l).pendingFunctors, pendingFunctors := [] })
      else .ok s
  | .next l a => s.next l a
  | .userCode l => if s.atRest l then .ok (s.setFrames l [.user]) else .ok s
  | .call l id a =>
      if s.inUser l ∧ s.live id then s.exec id (a.toInput (s.loopOf id = some l)) else .ok s
  | .consume l id len =>
      if s.inUser l ∧ s.live id ∧ s.loopOf id = some l then s.exec id (.retrieveInput len)
      else .ok s
  | .ret l => if s.inUser l then .ok (s.setFrames l (s.loops l).frames.tail) else .ok s
  | .remote id a => if s.live id then s.exec id (a.toInput false) else .ok s
  | .forceCloseWithDelay id =>
      match s.peers[id]? with
      | some p =>
          if p.deleted = false ∧ p.conn.isOpen then
            .ok { s with
              peers := s.peers.set id { p with conn := { p.conn with state := .kDisconnecting } }
              delayed := id :: s.delayed }
          else .ok s
      | none => .ok s
  | .delayOver id =>
      if id ∈ s.delayed ∧ (s.loopOf id).any s.idle then
        { s with delayed := s.delayed.erase id }.exec id (.forceClose true)
      else .ok s
  | .destroyServer order =>
      if s.phase = .alive ∧ (s.idle serverLoop ∨ s.inUser serverLoop) ∧
          order.Perm s.connections then
        .ok { s.setFrames serverLoop (.destructor order :: (s.loops serverLoop).frames) with
          phase := .destructing }
      else .ok s
  | .exit l =>
      if s.idle l ∧ (l = serverLoop → s.phase = .dead) then
        .ok { s.setLoop l { s.loops l with pendingFunctors := [], exited := true } with
          delayed := s.delayed.filter fun id => s.loopOf id ≠ some l }
      else .ok s
  | .release id => s.release id

def machine : Machine TcpServer ServerInput Fault := ⟨step⟩

end TcpServer

end Firey
