import Mathlib.Logic.Function.Basic
import Firey.Framework.Machine
import Firey.Net.EventLoop
import Firey.Net.FunctorQueue

/-!
# Who keeps a connection alive

A connection object lives as long as somebody holds a `TcpConnectionPtr` to it: the server's map,
a user, a functor that has one bound, or `handleEvent`, which locks `tie_` for as long as it
runs.  Of a call made outside its loop thread, only `forceClose` binds `shared_from_this()`; the
functors of the other four bind `this`.  A functor is gone, and with it what it has bound, when
the batch it was run in ends.

The server runs in the loop `serverLoop` and each connection in a loop of its own choice, the same
one or another; any number of other threads hold copies and make calls.  The test of the state
and the push of a call are two steps.  `ran` is the history of the calls that were run, and
whether the connection was alive then.

Pointers are given up in four steps: a user drops a copy, `handleEvent` returns, a batch ends, the
destructor of the server comes to an entry of the map.  Everywhere else a pointer is passed on
before it is given up.
-/

set_option autoImplicit false

namespace Firey

abbrev LoopId := ℕ

/-- The loop of the server. -/
def serverLoop : LoopId := 0

/-- The functions of a connection that other threads call. -/
inductive UserCall
  | send
  | shutdown
  | forceClose
  | startRead
  | stopRead
  deriving DecidableEq, Repr

/-- A functor of a loop, by the function that is bound. -/
inductive Deferred
  /-- The second half of a call. -/
  | inLoop (c : UserCall) (id : ConnId)
  | connectionEstablished (id : ConnId)
  | connectionDestroy (id : ConnId)
  | removeConnectionInLoop (id : ConnId)
  /-- `writeCompleteCallback_` or `highWaterCallback_`. -/
  | notice (id : ConnId)
  deriving DecidableEq, Repr

namespace Deferred

/-- The `TcpConnectionPtr` that is bound. -/
def holds : Deferred → Option ConnId
  | .inLoop .forceClose id => some id
  | .inLoop _ _ => none
  | .connectionEstablished id => some id
  | .connectionDestroy id => some id
  | .removeConnectionInLoop id => some id
  | .notice id => some id

/-- The connection of which only the address is bound. -/
def refersTo : Deferred → Option ConnId
  | .inLoop .forceClose _ => none
  | .inLoop _ id => some id
  | _ => none

end Deferred

/-- Where a functor is: in `pendingFunctors_`, or in the vector of `doPendingFunctors`. -/
inductive Stage
  | pending
  | inBatch
  | ran
  deriving DecidableEq, Repr

structure Queued where
  loop : LoopId
  functor : Deferred
  stage : Stage
  deriving DecidableEq, Repr

/-- A connection, as far as the calls look at it. -/
structure OwnedConn where
  state : ConnState
  loop : LoopId
  deriving DecidableEq, Repr

/-- Who holds a `TcpConnectionPtr`. -/
inductive Owner
  | serverMap
  | user (t : ThreadId)
  | functor (f : Deferred)
  | guard (l : LoopId)
  deriving DecidableEq, Repr

inductive ServerPhase
  | alive
  | destructing
  | dead
  deriving DecidableEq, Repr

/-- Where another thread is: in no call, or between the test of the state and the push. -/
inductive CallPhase
  | idle
  | tested (c : UserCall) (id : ConnId)
  deriving DecidableEq, Repr

/-- A call that was run, and whether its connection had an owner. -/
structure RanCall where
  call : UserCall
  id : ConnId
  alive : Bool
  deriving DecidableEq, Repr

/-- `connections` are the entries of the map that hold a pointer. -/
structure Ownership where
  conns : List OwnedConn
  connections : List ConnId
  copies : List (ThreadId × ConnId)
  callers : ThreadId → CallPhase
  functors : List Queued
  guards : List (LoopId × ConnId)
  server : ServerPhase
  ran : List RanCall

inductive OwnerInput
  /-- The server accepts a connection for the loop. -/
  | newConnection (l : LoopId)
  /-- A user copies a pointer. -/
  | copy (t : ThreadId) (id : ConnId)
  | drop (t : ThreadId) (id : ConnId)
  /-- A thread calls a function of the connection, up to the test of the state. -/
  | call (t : ThreadId) (c : UserCall) (id : ConnId)
  | push (t : ThreadId)
  /-- The loop handles an event of the connection. -/
  | handleEvent (l : LoopId) (id : ConnId)
  | eventDone (l : LoopId)
  /-- What the loop thread is running, a handler or user code, closes the connection. -/
  | handleClose (l : LoopId) (id : ConnId)
  /-- It calls `shutdown` or `forceCloseWithDelay`. -/
  | disconnect (l : LoopId) (id : ConnId)
  /-- It queues one of the two notices. -/
  | notice (l : LoopId) (id : ConnId)
  | swap (l : LoopId)
  | runFunctor (l : LoopId)
  /-- `doPendingFunctors` returns. -/
  | endBatch (l : LoopId)
  | destroyServer
  /-- The destructor comes to an entry of the map. -/
  | destructNext (id : ConnId)
  | serverDestroyed
  deriving DecidableEq, Repr

namespace Ownership

/-- A server that has started, with no connection yet. -/
def start : Ownership where
  conns := []
  connections := []
  copies := []
  callers := fun _ => .idle
  functors := []
  guards := []
  server := .alive
  ran := []

/-! ## Owners -/

/-- The strong references to a connection. -/
def owners (s : Ownership) (id : ConnId) : List Owner :=
  ((s.connections.filter (· = id)).map fun _ => .serverMap) ++
    ((s.copies.filter (·.2 = id)).map fun c => .user c.1) ++
    ((s.functors.filter (·.functor.holds = some id)).map fun q => .functor q.functor) ++
    (s.guards.filter (·.2 = id)).map fun g => .guard g.1

/-- The connections to which a functor that has yet to run refers by address alone. -/
def waiting (s : Ownership) : List ConnId :=
  (s.functors.filter (·.stage ≠ .ran)).filterMap (·.functor.refersTo)

/-! ## Loops -/

/-- The thread of the loop is in the server's destructor. -/
def inDestructor (s : Ownership) (l : LoopId) : Bool := l = serverLoop ∧ s.server = .destructing

/-- It is there, or in an event, or in a batch. -/
def busy (s : Ownership) (l : LoopId) : Bool :=
  s.inDestructor l || s.guards.any (·.1 = l) ||
    s.functors.any fun q => q.loop = l ∧ q.stage ≠ .pending

def setState (s : Ownership) (id : ConnId) (state : ConnState) : Ownership :=
  { s with conns := s.conns.modify id fun c => { c with state := state } }

def queueInLoop (s : Ownership) (l : LoopId) (f : Deferred) : Ownership :=
  { s with functors := s.functors ++ [{ loop := l, functor := f, stage := .pending }] }

/-- The first functor of the loop's batch has been called. -/
def markRan (l : LoopId) : List Queued → List Queued
  | [] => []
  | q :: qs =>
      if q.loop = l ∧ q.stage = .inBatch then { q with stage := .ran } :: qs
      else q :: markRan l qs

/-! ## The server and the connections -/

def newConnection (s : Ownership) (l : LoopId) : Ownership :=
  let id := s.conns.length
  let s' : Ownership := { s with
    conns := s.conns ++ [{ state := .kConnecting, loop := l }]
    connections := s.connections ++ [id] }
  if l = serverLoop then s'.setState id .kConnected
  else s'.queueInLoop l (.connectionEstablished id)

/-- `removeConnectionInLoop`; `connectionDestroy` is queued even in the same loop. -/
def removeConnectionInLoop (s : Ownership) (id : ConnId) : Except Fault Ownership := do
  check .removeConnectionInLoop (id ∈ s.connections)
  match s.conns[id]? with
  | some c =>
      let s' := { s with connections := s.connections.filter (· ≠ id) }
      .ok (s'.queueInLoop c.loop (.connectionDestroy id))
  | none => .ok s

/-- `handleClose` in the loop `l`, with the close callback of the server. -/
def handleClose (s : Ownership) (l : LoopId) (id : ConnId) : Except Fault Ownership :=
  let s' := s.setState id .kDisconnected
  if l = serverLoop then
    if s.server = .dead then .error .dangling else s'.removeConnectionInLoop id
  else .ok (s'.queueInLoop serverLoop (.removeConnectionInLoop id))

def isOpen (c : OwnedConn) : Bool := c.state == .kConnected || c.state == .kDisconnecting

/-- `handleClose`, where the connection is open. -/
def closeIfOpen (s : Ownership) (l : LoopId) (id : ConnId) : Except Fault Ownership :=
  if s.conns[id]?.any (fun c => isOpen c ∧ c.loop = l) then s.handleClose l id else .ok s

def connectionDestroy (s : Ownership) (id : ConnId) : Ownership :=
  if s.conns[id]?.any (·.state = .kConnected) then s.setState id .kDisconnected else s

/-! ## Calls -/

/-- The test of the state, and what is set with it. -/
def call (s : Ownership) (t : ThreadId) (c : UserCall) (id : ConnId) : Ownership :=
  let s' := { s with callers := Function.update s.callers t (.tested c id) }
  match c with
  | .send => if s.conns[id]?.any (·.state = .kConnected) then s' else s
  | .shutdown =>
      if s.conns[id]?.any (·.state = .kConnected) then s'.setState id .kDisconnecting else s
  | .forceClose => if s.conns[id]?.any isOpen then s'.setState id .kDisconnecting else s
  | .startRead => s'
  | .stopRead => s'

def push (s : Ownership) (t : ThreadId) : Ownership :=
  match s.callers t with
  | .idle => s
  | .tested c id =>
      match s.conns[id]? with
      | some conn =>
          { s with callers := Function.update s.callers t .idle }.queueInLoop conn.loop
            (.inLoop c id)
      | none => s

/-- The second half of a call.  On a connection that is gone nothing can be said of it. -/
def runCall (s : Ownership) (l : LoopId) (c : UserCall) (id : ConnId) : Except Fault Ownership :=
  let alive := decide (s.owners id ≠ [])
  let s' := { s with ran := s.ran ++ [{ call := c, id := id, alive := alive }] }
  match c with
  | .forceClose => if alive then s'.closeIfOpen l id else .ok s'
  | _ => .ok s'

def perform (s : Ownership) (l : LoopId) : Deferred → Except Fault Ownership
  | .inLoop c id => s.runCall l c id
  | .connectionEstablished id => do
      check .connectionEstablished (s.conns[id]?.all (·.state = .kConnecting) = true)
      .ok (s.setState id .kConnected)
  | .connectionDestroy id => .ok (s.connectionDestroy id)
  | .removeConnectionInLoop id =>
      if s.server = .dead then .error .dangling else s.removeConnectionInLoop id
  | .notice _ => .ok s

def runFunctor (s : Ownership) (l : LoopId) : Except Fault Ownership :=
  match s.functors.find? (fun q => q.loop = l ∧ q.stage = .inBatch) with
  | none => .ok s
  | some q => { s with functors := markRan l s.functors }.perform l q.functor

/-! ## The machine -/

/-- The destructor takes the pointer out of the map and destroys the connection in its loop. -/
def destructNext (s : Ownership) (id : ConnId) : Ownership :=
  let s' := { s with connections := s.connections.filter (· ≠ id) }
  match s.conns[id]? with
  | none => s'
  | some c =>
      if c.loop = serverLoop then s'.connectionDestroy id
      else s'.queueInLoop c.loop (.connectionDestroy id)

def step (s : Ownership) : OwnerInput → Except Fault Ownership
  | .newConnection l => if s.server = .alive then .ok (s.newConnection l) else .ok s
  | .copy t id =>
      if s.owners id ≠ [] then .ok { s with copies := s.copies ++ [(t, id)] } else .ok s
  | .drop t id =>
      if s.callers t = .idle then .ok { s with copies := s.copies.erase (t, id) } else .ok s
  | .call t c id =>
      if (t, id) ∈ s.copies ∧ s.callers t = .idle then .ok (s.call t c id) else .ok s
  | .push t => .ok (s.push t)
  | .handleEvent l id =>
      -- an expired `tie_` handles nothing
      if s.busy l = false ∧ s.conns[id]?.any (·.loop = l) = true ∧ s.owners id ≠ [] then
        .ok { s with guards := s.guards ++ [(l, id)] }
      else .ok s
  | .eventDone l =>
      if s.inDestructor l then .ok s else .ok { s with guards := s.guards.filter (·.1 ≠ l) }
  | .handleClose l id => if s.owners id ≠ [] then s.closeIfOpen l id else .ok s
  | .disconnect l id =>
      if s.owners id ≠ [] ∧ s.conns[id]?.any (fun c => isOpen c ∧ c.loop = l) then
        .ok (s.setState id .kDisconnecting)
      else .ok s
  | .notice l id =>
      if s.owners id ≠ [] then .ok (s.queueInLoop l (.notice id)) else .ok s
  | .swap l =>
      if s.busy l then .ok s
      else
        .ok { s with
          functors := s.functors.map fun q =>
            if q.loop = l ∧ q.stage = .pending then { q with stage := .inBatch } else q }
  | .runFunctor l => if s.inDestructor l then .ok s else s.runFunctor l
  | .endBatch l =>
      if s.inDestructor l || s.functors.any (fun q => q.loop = l ∧ q.stage = .inBatch) then .ok s
      else .ok { s with functors := s.functors.filter fun q => ¬ (q.loop = l ∧ q.stage = .ran) }
  | .destroyServer => if s.server = .alive then .ok { s with server := .destructing } else .ok s
  | .destructNext id =>
      if s.server = .destructing ∧ id ∈ s.connections then .ok (s.destructNext id) else .ok s
  | .serverDestroyed =>
      if s.server = .destructing ∧ s.connections = [] then .ok { s with server := .dead } else .ok s

def machine : Machine Ownership OwnerInput Fault := ⟨step⟩

/-- The pointers to a connection that a step gives up, with none in their place. -/
def released (s : Ownership) (i : OwnerInput) (id : ConnId) : ℕ :=
  match i with
  | .drop t j => if s.callers t = .idle ∧ (t, j) ∈ s.copies ∧ j = id then 1 else 0
  | .eventDone l => if s.inDestructor l then 0 else s.guards.count (l, id)
  | .endBatch l =>
      if s.inDestructor l || s.functors.any (fun q => q.loop = l ∧ q.stage = .inBatch) then 0
      else s.functors.countP fun q => q.functor.holds = some id ∧ q.loop = l ∧ q.stage = .ran
  | .destructNext j =>
      -- in another loop `connectionDestroy` is queued with the pointer of the map
      if s.server = .destructing ∧ j = id ∧ s.conns[j]?.all (·.loop = serverLoop) = true then
        s.connections.count id
      else 0
  | _ => 0

end Ownership

end Firey
