import Firey.Framework.Machine
import Firey.Net.TcpConnection

/-!
# `EventLoopff` with a `TcpServerff`

One loop thread that runs a server and all of its connections.  What the thread has left to do
is a stack of `Work`: the rest of the batch of ready channels with `doPendingFunctors` behind
it, and on top of it whatever the callbacks in progress still have to do.  A user callback is a
`user` item: while it is on top, the inputs are the calls the user makes, on any connection,
and at last its return.  A call can close a connection, and so call back another time, before
the callback it is made in has returned.

A connection object stays as long as anything can refer to it, so nothing is modelled about
who holds the last pointer, and `tie_` is never found expired.
-/

set_option autoImplicit false

namespace Firey

/-- A connection, by its place in the order of `newConnection`.  `connections_` has it under its
name, which stands for it as long as names are unique. -/
abbrev ConnId := ℕ

/-- The channels of the loop. -/
inductive ChannelId
  | connection (id : ConnId)
  | acceptor
  | timer
  deriving DecidableEq, Repr

/-- An entry of `activeChannels_`. -/
structure Ready where
  channel : ChannelId
  revents : Mask
  deriving DecidableEq, Repr

/-- An entry of `pendingFunctors_`. -/
inductive Task
  | connection (id : ConnId) (f : Functor)
  | connectionDestroy (id : ConnId)
  deriving DecidableEq, Repr

/-- What the loop thread has left to do. -/
inductive Work
  | handleEvent (r : Ready)
  | errorCallback (ch : ChannelId)
  | readCallback (ch : ChannelId)
  | writeCallback (ch : ChannelId)
  /-- A user callback that has not returned. -/
  | user
  /-- The rest of `handleClose`, after the user callback. -/
  | closeCallback (id : ConnId)
  /-- The rest of `connectionDestroy`, after the user callback. -/
  | channelRemove (id : ConnId)
  | doPendingFunctors
  | task (t : Task)
  deriving DecidableEq, Repr

/-- A connection object with its history: the callbacks made for it, how often `handleClose`
has closed it, and how often the server has erased it. -/
structure Peer where
  conn : TcpConnection
  trace : List Callback
  closes : ℕ
  erased : ℕ
  deriving DecidableEq, Repr

/-- `connections` is the server's map, by the keys it holds. -/
structure EventLoop where
  peers : List Peer
  connections : List ConnId
  writeCompleteCallback : Bool
  pendingFunctors : List Task
  stack : List Work
  deriving DecidableEq, Repr

/-- What the environment answers in one step: `accept(2)`, `readv(2)`, `write(2)`, and what a
queued `send` finds behind its pointer. -/
structure Answers where
  accepts : Bool := true
  read : ReadResult := .failed .EAGAIN
  write : WriteResult := .failed .EAGAIN
  data : Bytes := []
  deriving DecidableEq, Repr

/-- What a user calls on a connection. -/
inductive Action
  | send (data : Bytes) (w : WriteResult)
  | shutdown
  | forceClose
  | startRead
  | stopRead
  deriving DecidableEq, Repr

def Action.toInput (inLoop : Bool) : Action → TcpConnection.Input
  | .send data w => .send inLoop data w
  | .shutdown => .shutdown inLoop
  | .forceClose => .forceClose inLoop
  | .startRead => .startRead inLoop
  | .stopRead => .stopRead inLoop

/-- One step of the loop. -/
inductive LoopInput
  /-- `poll` returns a batch. -/
  | poll (batch : List Ready)
  /-- The loop thread does what is next. -/
  | next (a : Answers)
  /-- The user code that is running calls a function of a connection. -/
  | call (id : ConnId) (a : Action)
  /-- The user code that is running takes octets out of an input buffer. -/
  | consume (id : ConnId) (len : ℕ)
  /-- The user code that is running returns. -/
  | ret
  /-- Another thread calls a function of a connection. -/
  | remote (id : ConnId) (a : Action)
  deriving DecidableEq, Repr

/-! ## What the effects of a call come to -/

/-- The callbacks among the effects. -/
def callbacksOf (es : List Effect) : List Callback :=
  es.filterMap fun
    | .callback c => some c
    | _ => none

/-- The functors among the effects. -/
def tasksOf (id : ConnId) (es : List Effect) : List Task :=
  es.filterMap fun
    | .queueInLoop f => some (.connection id f)
    | _ => none

/-- What is left to do before the caller goes on. -/
def workOf (id : ConnId) (es : List Effect) : List Work :=
  es.filterMap fun
    | .callback _ => some .user
    | .closeCallback => some (.closeCallback id)
    | .channelRemove => some (.channelRemove id)
    | _ => none

def Peer.after (p : Peer) (c : TcpConnection) (es : List Effect) : Peer :=
  { p with
    conn := c
    trace := p.trace ++ callbacksOf es
    closes := p.closes + es.count .closeCallback }

namespace EventLoop

/-- A server that has started, with no connection yet. -/
def start (writeCompleteCallback : Bool) : EventLoop where
  peers := []
  connections := []
  writeCompleteCallback := writeCompleteCallback
  pendingFunctors := []
  stack := []

/-! ## Calling a connection -/

/-- Call a member function of a connection. -/
def exec (s : EventLoop) (id : ConnId) (i : TcpConnection.Input) : Except Fault EventLoop :=
  match s.peers[id]? with
  | none => .ok s
  | some p => do
      let (c, es) ← p.conn.step i
      .ok { s with
        peers := s.peers.set id (p.after c es)
        pendingFunctors := s.pendingFunctors ++ tasksOf id es
        stack := workOf id es ++ s.stack }

/-! ## `TcpServerff` -/

/-- `newConnection`; its loop is the server's, so `connectionEstablished` runs at once. -/
def newConnection (s : EventLoop) : Except Fault EventLoop :=
  let id := s.peers.length
  let conn := { TcpConnection.ctor with writeCompleteCallback := s.writeCompleteCallback }
  exec { s with
    peers := s.peers ++ [{ conn := conn, trace := [], closes := 0, erased := 0 }]
    connections := id :: s.connections } id .connectionEstablished

def removeConnectionInLoop (s : EventLoop) (id : ConnId) : Except Fault EventLoop := do
  check .removeConnectionInLoop (id ∈ s.connections)
  .ok { s with
    peers := s.peers.modify id fun p => { p with erased := p.erased + 1 }
    connections := s.connections.filter (· ≠ id)
    pendingFunctors := s.pendingFunctors ++ [.connectionDestroy id] }

/-! ## `EventLoopff` -/

/-- The channel is in the epoll set. -/
def isRegistered (s : EventLoop) : ChannelId → Bool
  | .connection id => s.peers[id]?.any fun p => p.conn.connChannel.registered.isSome
  | .acceptor => true
  | .timer => true

/-- `epoll_wait` reports registered descriptors, each of them once. -/
def Pollable (s : EventLoop) (batch : List Ready) : Prop :=
  (batch.map Ready.channel).Nodup ∧ ∀ r ∈ batch, s.isRegistered r.channel = true

instance (s : EventLoop) (batch : List Ready) : Decidable (s.Pollable batch) :=
  inferInstanceAs (Decidable (_ ∧ _))

/-- One turn of `loop`: the batch, and then the pending functors. -/
def poll (s : EventLoop) (batch : List Ready) : EventLoop :=
  if s.stack = [] ∧ s.Pollable batch then
    { s with stack := batch.map .handleEvent ++ [.doPendingFunctors] }
  else s

/-- `Channelff::handleEventWithGuard`. -/
def handleEventWithGuard (r : Ready) : List Work :=
  (if r.revents.has EPOLLERR then [.errorCallback r.channel] else []) ++
    (if r.revents.has (EPOLLIN ||| EPOLLPRI ||| EPOLLRDHUP) then [.readCallback r.channel]
      else []) ++
      if r.revents.has EPOLLOUT then [.writeCallback r.channel] else []

/-- A functor is called. -/
def runTask (s : EventLoop) (a : Answers) : Task → Except Fault EventLoop
  | .connectionDestroy id => s.exec id .connectionDestroy
  | .connection id f =>
      match f with
      | .sendInLoop len => s.exec id (.sendInLoop (a.data.takeD len 0) a.write)
      | .shutdownInLoop => s.exec id .shutdownInLoop
      | .forceCloseInLoop => s.exec id .forceCloseInLoop
      | .startReadInLoop => s.exec id .startReadInLoop
      | .stopReadInLoop => s.exec id .stopReadInLoop
      | .writeComplete => .ok { s with stack := .user :: s.stack }
      | .highWater => .ok { s with stack := .user :: s.stack }

/-- What is next is done in the state it leaves behind it.  Only a connection has error and
write callbacks; the timers run user code. -/
def perform (s : EventLoop) (a : Answers) : Work → Except Fault EventLoop
  | .handleEvent r => .ok { s with stack := handleEventWithGuard r ++ s.stack }
  | .errorCallback (.connection id) => s.exec id .handleError
  | .errorCallback _ => .ok s
  | .readCallback (.connection id) => s.exec id (.handleRead a.read)
  | .readCallback .acceptor => if a.accepts then s.newConnection else .ok s
  | .readCallback .timer => .ok { s with stack := .user :: s.stack }
  | .writeCallback (.connection id) => s.exec id (.handleWrite a.write)
  | .writeCallback _ => .ok s
  | .user => .ok { s with stack := .user :: s.stack }
  | .closeCallback id => s.removeConnectionInLoop id
  | .channelRemove id => s.exec id .channelRemove
  | .doPendingFunctors =>
      .ok { s with stack := s.pendingFunctors.map .task ++ s.stack, pendingFunctors := [] }
  | .task t => s.runTask a t

def next (s : EventLoop) (a : Answers) : Except Fault EventLoop :=
  match s.stack with
  | [] => .ok s
  | w :: rest => perform { s with stack := rest } a w

/-- User code is running. -/
def inUser (s : EventLoop) : Bool := s.stack.head? == some .user

def step (s : EventLoop) : LoopInput → Except Fault EventLoop
  | .poll batch => .ok (s.poll batch)
  | .next a => s.next a
  | .call id a => if s.inUser then s.exec id (a.toInput true) else .ok s
  | .consume id len => if s.inUser then s.exec id (.retrieveInput len) else .ok s
  | .ret => if s.inUser then .ok { s with stack := s.stack.tail } else .ok s
  | .remote id a => s.exec id (a.toInput false)

def machine : Machine EventLoop LoopInput Fault := ⟨step⟩

end EventLoop

end Firey
