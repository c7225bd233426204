import Firey.Fault
import Firey.Framework.Machine
import Firey.Framework.Numeral
import Firey.Framework.RoundRobin

/-!
# `EventLoopThreadPoolff`, and how `TcpServerff` gives out its connections

`start` makes the threads, and `getNextLoop` goes round their loops with a counter, `next_`.  The
server asks it once for each new connection; but `threadPool()` gives the pool to its users, who can
ask as well, and who can start it behind the server's back.

Whatever the order of these calls, the loops are given out in turn, so no loop is given out twice
more often than another; but a user who asks takes the turn of a connection, and so the connections
alone are spread evenly only up to what the users have taken.  Each loop is initialised once, in a
thread with a name of its own.  And `deals_in_turn_iff` says when none of the assertions fails.

All these calls are made in the thread of the base loop, which `start`, `getNextLoop`,
`getLoopForHash` and `getAllLoops` assert.  A loop is known by the thread that runs it, and
`startLoop` returns when that thread has published it (`Firey.Net.EventLoopThread`).
-/

set_option autoImplicit false

namespace Firey

/-- `EventLoopff*`: the loop of the server, or the one that the `i`-th thread of the pool runs. -/
inductive IoLoop
  | base
  | thread (i : ℕ)
  deriving DecidableEq, Repr

/-- The assertions of the pool and of the server's `start`. -/
inductive LoopPoolFault
  /-- `EventLoopThreadPoolff::start`: `!started_`. -/
  | start
  /-- `EventLoopThreadPoolff::getNextLoop` and `getAllLoops`: `started_`. -/
  | started
  /-- `TcpServerff::setThreadNum`: `threadNum>=0`. -/
  | threadNum
  /-- `TcpServerff::start`: `!acceptor_->listening()`. -/
  | listening
  deriving DecidableEq, Repr

/-- `threads_` by their names; `inits` are the loops for which the init callback was called. -/
structure EventLoopThreadPool where
  name_ : Bytes
  started_ : Bool
  numThreads_ : ℤ
  next_ : ℕ
  threads_ : List Bytes
  loops_ : List IoLoop
  inits : List IoLoop
  deriving DecidableEq, Repr

namespace EventLoopThreadPool

/-- The constructor. -/
def ctor (name : Bytes) : EventLoopThreadPool where
  name_ := name
  started_ := false
  numThreads_ := 0
  next_ := 0
  threads_ := []
  loops_ := []
  inits := []

/-- The name of the `i`-th thread: `%s` takes `name_.c_str()`, and `buf` has 32 characters more than
`name_`. -/
def threadName (name : Bytes) (i : ℕ) : Bytes :=
  snprintf (name.length + 32) (cString name ++ decimalText (i + 1))

/-- The body of the loop in `start`; the thread calls `cb`, if there is one, with its loop. -/
def startThread (cb : Bool) (s : EventLoopThreadPool) (i : ℕ) : EventLoopThreadPool :=
  { s with
    threads_ := s.threads_ ++ [threadName s.name_ i]
    loops_ := s.loops_ ++ [.thread i]
    inits := if cb then s.inits ++ [.thread i] else s.inits }

/-- `start(cb)`. -/
def start (s : EventLoopThreadPool) (cb : Bool) : Except LoopPoolFault EventLoopThreadPool :=
  if s.started_ = false then
    let t := (List.range s.numThreads_.toNat).foldl (startThread cb) { s with started_ := true }
    .ok { t with inits := if t.numThreads_ = 0 ∧ cb then t.inits ++ [.base] else t.inits }
  else .error .start

/-- `getNextLoop()`. -/
def getNextLoop (s : EventLoopThreadPool) : Except LoopPoolFault (IoLoop × EventLoopThreadPool) :=
  if s.started_ then
    if s.loops_ = [] then .ok (.base, s)
    else
      let next := s.next_ + 1
      .ok (s.loops_.getD s.next_ .base,
        { s with next_ := if s.loops_.length ≤ next then 0 else next })
  else .error .started

/-- `getLoopForHash(hashCode)`. -/
def getLoopForHash (s : EventLoopThreadPool) (hashCode : ℕ) : IoLoop :=
  if s.loops_ = [] then .base else s.loops_.getD (hashCode % s.loops_.length) .base

/-- `getAllLoops()`. -/
def getAllLoops (s : EventLoopThreadPool) : Except LoopPoolFault (List IoLoop) :=
  if s.started_ then .ok (if s.loops_ = [] then [.base] else s.loops_) else .error .started

end EventLoopThreadPool

/-- A call of `getLoopForHash`: whether the pool was started, and what came of it. -/
structure HashCall where
  started : Bool
  hashCode : ℕ
  loop : IoLoop
  deriving DecidableEq, Repr

/-- `TcpServerff`, as far as it deals with its pool.  `dealt`, `connections`, `asked` and `hashed`
are history: what `getNextLoop` has returned, of that what the connections and what the users have
got, and the calls of `getLoopForHash`. -/
structure PooledServer where
  pool : EventLoopThreadPool
  threadInitCallback : Bool
  isRuning : Bool
  listening : Bool
  dealt : List IoLoop
  connections : List IoLoop
  asked : List IoLoop
  hashed : List HashCall
  deriving DecidableEq, Repr

/-- The calls of the server, and those of its users on the pool itself. -/
inductive PooledServerInput
  | setThreadNum (threadNum : BitVec 32)
  | setThreadInitCallback
  | start
  /-- `newConnection`, which the acceptor calls while it listens. -/
  | newConnection
  | poolSetThreadNum (numThread : BitVec 32)
  | poolStart (cb : Bool)
  | getNextLoop
  | getLoopForHash (hashCode : ℕ)
  | getAllLoops
  deriving DecidableEq, Repr

namespace PooledServer

/-- The constructor. -/
def ctor (name : Bytes) : PooledServer where
  pool := .ctor name
  threadInitCallback := false
  isRuning := false
  listening := false
  dealt := []
  connections := []
  asked := []
  hashed := []

/-- `TcpServerff::start()`; `Acceptorff::listen` is run at once. -/
def start (s : PooledServer) : Except LoopPoolFault PooledServer :=
  if s.isRuning = false then do
    let pool ← s.pool.start s.threadInitCallback
    if s.listening = false then .ok { s with pool := pool, isRuning := true, listening := true }
    else .error .listening
  else .ok s

def getNextLoop (s : PooledServer) : Except LoopPoolFault (IoLoop × PooledServer) := do
  let (loop, pool) ← s.pool.getNextLoop
  .ok (loop, { s with pool := pool, dealt := s.dealt ++ [loop] })

/-- The loop that `newConnection` gives to a connection. -/
def newConnection (s : PooledServer) : Except LoopPoolFault PooledServer := do
  let (loop, s) ← s.getNextLoop
  .ok { s with connections := s.connections ++ [loop] }

/-- A user asks the pool for a loop. -/
def askNextLoop (s : PooledServer) : Except LoopPoolFault PooledServer := do
  let (loop, s) ← s.getNextLoop
  .ok { s with asked := s.asked ++ [loop] }

def step (s : PooledServer) : PooledServerInput → Except LoopPoolFault PooledServer
  | .setThreadNum threadNum =>
      if 0 ≤ threadNum.toInt then
        .ok { s with pool := { s.pool with numThreads_ := threadNum.toInt } }
      else .error .threadNum
  | .setThreadInitCallback => .ok { s with threadInitCallback := true }
  | .start => s.start
  | .newConnection => if s.listening then s.newConnection else .ok s
  | .poolSetThreadNum numThread =>
      .ok { s with pool := { s.pool with numThreads_ := numThread.toInt } }
  | .poolStart cb => do
      let pool ← s.pool.start cb
      .ok { s with pool := pool }
  | .getNextLoop => s.askNextLoop
  | .getLoopForHash hashCode =>
      .ok { s with hashed :=
        s.hashed ++ [⟨s.pool.started_, hashCode, s.pool.getLoopForHash hashCode⟩] }
  | .getAllLoops => do
      let _ ← s.pool.getAllLoops
      .ok s

def machine : Machine PooledServer PooledServerInput LoopPoolFault := ⟨step⟩

/-! ## The invariant -/

/-- The loops that connections are given to. -/
def dealing (s : PooledServer) : List IoLoop :=
  if s.pool.loops_ = [] then [.base] else s.pool.loops_

/-- What a hash code is answered with: before the start the loop of the server, and from then on
always the same one. -/
def Hashes (s : PooledServer) (h : HashCall) : Prop :=
  if h.started then some h.loop = s.dealing[h.hashCode % s.dealing.length]? else h.loop = .base

/-- A server that deals in turn.  Its loops are distinct, and their threads have distinct names;
each loop was initialised once, or none was; `dealt` goes round the loops, and the connections have
got what the users have not; from the start on a hash code belongs to one loop. -/
structure Deals (s : PooledServer) : Prop where
  loops : s.dealing.Nodup
  names : s.pool.threads_.Nodup ∧ s.pool.threads_.length = s.pool.loops_.length
  inits : s.pool.inits = [] ∨ s.pool.inits = s.dealing
  turns : s.dealt.map some = RoundRobin.turns s.dealing s.dealt.length
  balanced : ∀ x ∈ s.dealing, ∀ y ∈ s.dealing, s.dealt.count x ≤ s.dealt.count y + 1
  given : ∀ x, s.dealt.count x = s.connections.count x + s.asked.count x
  shares : ∀ x ∈ s.dealing, ∀ y ∈ s.dealing,
    s.connections.count x ≤ s.connections.count y + s.asked.count y + 1
  hashed : ∀ h ∈ s.hashed, s.Hashes h
  listening : s.listening = true → s.pool.started_ = true

/-- What the asserts ask for. -/
def Proper (s : PooledServer) : PooledServerInput → Prop
  | .setThreadNum threadNum => 0 ≤ threadNum.toInt
  | .start => s.isRuning = true ∨ s.pool.started_ = false
  | .poolStart _ => s.pool.started_ = false
  | .getNextLoop => s.pool.started_ = true
  | .getAllLoops => s.pool.started_ = true
  | _ => True

instance (s : PooledServer) (i : PooledServerInput) : Decidable (s.Proper i) :=
  match i with
  | .setThreadNum _ => inferInstanceAs (Decidable (_ ≤ _))
  | .start => inferInstanceAs (Decidable (_ ∨ _))
  | .poolStart _ => inferInstanceAs (Decidable (_ = _))
  | .getNextLoop => inferInstanceAs (Decidable (_ = _))
  | .getAllLoops => inferInstanceAs (Decidable (_ = _))
  | .setThreadInitCallback => .isTrue trivial
  | .newConnection => .isTrue trivial
  | .poolSetThreadNum _ => .isTrue trivial
  | .getLoopForHash _ => .isTrue trivial

structure Inv (s : PooledServer) : Prop where
  unstarted : s.pool.started_ = false → s.pool.loops_ = [] ∧ s.pool.threads_ = [] ∧
    s.pool.inits = [] ∧ s.pool.next_ = 0 ∧ s.dealt = [] ∧
      (∀ h ∈ s.hashed, h.started = false) ∧ s.isRuning = false
  running : s.listening = s.isRuning
  int : s.pool.numThreads_ < 2 ^ 31
  threads : ∃ n < 2 ^ 31, s.pool.loops_ = (List.range n).map IoLoop.thread ∧
    s.pool.threads_ = (List.range n).map (EventLoopThreadPool.threadName s.pool.name_)
  inits : s.pool.inits = [] ∨ s.pool.inits = s.dealing
  next : s.pool.loops_ ≠ [] → s.pool.next_ = s.dealt.length % s.pool.loops_.length
  turns : s.dealt.map some = RoundRobin.turns s.dealing s.dealt.length
  given : ∀ x, s.dealt.count x = s.connections.count x + s.asked.count x
  hashed : ∀ h ∈ s.hashed, s.Hashes h

lemma ctor_inv (name : Bytes) : (ctor name).Inv where
  unstarted := fun _ => ⟨rfl, rfl, rfl, rfl, rfl, nofun, rfl⟩
  running := rfl
  int := by
    show (0 : ℤ) < 2 ^ 31
    decide
  threads := ⟨0, by decide, rfl, rfl⟩
  inits := Or.inl rfl
  next := fun h => absurd rfl h
  turns := rfl
  given := fun _ => rfl
  hashed := nofun

variable {s : PooledServer}

/-- A thread number that is an `int` has its whole text in the name. -/
lemma threadName_eq {name : Bytes} {i : ℕ} (h : i + 1 < 2 ^ 31) :
    EventLoopThreadPool.threadName name i = cString name ++ decimalText (i + 1) := by
  have hlen : (decimalText ((i : ℤ) + 1)).length ≤ 10 := by
    have hbound := length_decimalText_le (v := (i : ℤ) + 1) (k := 10) (by decide) (by omega)
    rwa [if_neg (by omega), Nat.zero_add] at hbound
  have hname := length_cString_le name
  refine snprintf_of_lt ?_
  rw [List.length_append]
  omega

lemma nodup_threads {name : Bytes} {n : ℕ} (h : n < 2 ^ 31) :
    ((List.range n).map (EventLoopThreadPool.threadName name)).Nodup := by
  refine List.Nodup.map_on (fun i hi j hj heq => ?_) List.nodup_range
  rw [List.mem_range] at hi hj
  rw [threadName_eq (by omega), threadName_eq (by omega)] at heq
  have hnumber := decimalText_inj (List.append_cancel_left heq)
  omega

lemma Inv.nodup_dealing (h : s.Inv) : s.dealing.Nodup := by
  obtain ⟨n, -, hloops, -⟩ := h.threads
  unfold dealing
  split
  · exact List.nodup_singleton _
  · rw [hloops]
    exact List.nodup_range.map fun i j heq => by cases heq; rfl

lemma Inv.balanced (h : s.Inv) {x y : IoLoop} (hx : x ∈ s.dealing) (hy : y ∈ s.dealing) :
    s.dealt.count x ≤ s.dealt.count y + 1 := by
  have hfair := RoundRobin.balanced_of_turns h.nodup_dealing hx hy s.dealt.length
  rw [← h.turns] at hfair
  rwa [List.count_map_of_injective _ _ (Option.some_injective _),
    List.count_map_of_injective _ _ (Option.some_injective _)] at hfair

lemma Inv.deals (h : s.Inv) : s.Deals where
  loops := h.nodup_dealing
  names := by
    obtain ⟨n, hn, hloops, hthreads⟩ := h.threads
    rw [hthreads, hloops]
    exact ⟨nodup_threads hn, by rw [List.length_map, List.length_map]⟩
  inits := h.inits
  turns := h.turns
  balanced _ hx _ hy := h.balanced hx hy
  given := h.given
  shares := by
    intro x hx y hy
    have hbalanced := h.balanced hx hy
    rw [h.given x, h.given y] at hbalanced
    omega
  hashed := h.hashed
  listening := by
    intro hlistening
    by_contra hnot
    have hrunning := (h.unstarted (Bool.eq_false_iff.mpr hnot)).2.2.2.2.2.2
    rw [h.running, hrunning] at hlistening
    cases hlistening

/-! ## One lemma a call -/

/-- **The loop in `start`.** -/
lemma startThreads (cb : Bool) (t : EventLoopThreadPool) (n : ℕ) :
    (List.range n).foldl (EventLoopThreadPool.startThread cb) t =
      { t with
        threads_ := t.threads_ ++
          (List.range n).map (EventLoopThreadPool.threadName t.name_)
        loops_ := t.loops_ ++ (List.range n).map IoLoop.thread
        inits := if cb then t.inits ++ (List.range n).map IoLoop.thread else t.inits } := by
  induction n with
  | zero => cases cb <;> simp
  | succ n ih =>
    rw [List.range_succ, List.foldl_append, ih]
    cases cb <;> simp [EventLoopThreadPool.startThread]

/-- **`start`** makes the loops. -/
lemma Inv.poolStart (h : s.Inv) (hstarted : s.pool.started_ = false) (cb b : Bool) :
    ∃ t, s.pool.start cb = .ok t ∧
      ({ s with pool := t, isRuning := b || s.isRuning, listening := b || s.listening }).Inv := by
  obtain ⟨hloops, hthreads, hinits, hnext, hdealt, hhashed, hrunning⟩ := h.unstarted hstarted
  have hlistening := h.running.trans hrunning
  refine ⟨_, by rw [EventLoopThreadPool.start, if_pos hstarted], ?_⟩
  rw [startThreads]
  dsimp only
  rw [hloops, hthreads, hinits, List.nil_append, List.nil_append]
  refine ⟨nofun, by rw [hrunning, hlistening], h.int,
    ⟨s.pool.numThreads_.toNat, ?_, rfl, rfl⟩, ?_, ?_, ?_, h.given, fun x hx => ?_⟩
  · have hint := h.int
    omega
  · unfold dealing
    dsimp only
    by_cases hnone : s.pool.numThreads_ = 0
    · cases cb <;> simp [hnone]
    · cases cb with
      | false => simp
      | true =>
        rw [if_neg fun hc => hnone hc.1, if_pos rfl]
        by_cases hneg : s.pool.numThreads_.toNat = 0
        · exact Or.inl (by rw [hneg]; rfl)
        · refine Or.inr (if_neg ?_).symm
          rw [List.map_eq_nil_iff, List.range_eq_nil]
          exact hneg
  · intro _
    dsimp only
    rw [hnext, hdealt, List.length_nil, Nat.zero_mod]
  · dsimp only
    rw [hdealt]
    rfl
  · -- what was asked before the start stays
    have hbase := h.hashed x hx
    rw [Hashes, hhashed x hx, if_neg Bool.false_ne_true] at hbase ⊢
    exact hbase

/-- **`getNextLoop`** deals one loop more, to whomever it goes. -/
lemma Inv.getNextLoop (h : s.Inv) (hstarted : s.pool.started_ = true) :
    ∃ loop pool, s.getNextLoop = .ok (loop, { s with pool := pool, dealt := s.dealt ++ [loop] }) ∧
      ∀ cs us : List IoLoop, (∀ x, (s.dealt ++ [loop]).count x = cs.count x + us.count x) →
        ({ s with
          pool := pool, dealt := s.dealt ++ [loop], connections := cs, asked := us }).Inv := by
  obtain ⟨n, hn, hloops, hthreads⟩ := h.threads
  by_cases hnil : s.pool.loops_ = []
  · have hpool : s.pool.getNextLoop = .ok (.base, s.pool) := by
      rw [EventLoopThreadPool.getNextLoop, if_pos hstarted, if_pos hnil]
    refine ⟨.base, s.pool, ?_, fun cs us hgiven => ?_⟩
    · rw [PooledServer.getNextLoop, hpool]
      rfl
    · refine ⟨fun hf => ?_, h.running, h.int, h.threads, h.inits, fun hne => absurd hnil hne, ?_,
        hgiven, h.hashed⟩
      · exact absurd (hstarted.symm.trans hf) (by decide)
      · have hturns := h.turns
        have hdealing : s.dealing = [.base] := if_pos hnil
        change (s.dealt ++ [IoLoop.base]).map some =
          RoundRobin.turns s.dealing (s.dealt ++ [IoLoop.base]).length
        rw [List.length_append, List.length_singleton, RoundRobin.turns_succ, ← hturns, hdealing,
          List.map_append, List.length_singleton, Nat.mod_one]
        rfl
  · have hpos : 0 < s.pool.loops_.length := List.length_pos_iff.mpr hnil
    have hnext := h.next hnil
    have hlt : s.pool.next_ < s.pool.loops_.length := hnext ▸ Nat.mod_lt _ hpos
    have hdealing : s.dealing = s.pool.loops_ := if_neg hnil
    have hget : some (s.pool.loops_.getD s.pool.next_ .base) =
        s.dealing[s.dealt.length % s.dealing.length]? := by
      rw [hdealing, ← hnext, List.getD_eq_getElem?_getD, List.getElem?_eq_getElem hlt,
        Option.getD_some]
    have hpool := show s.pool.getNextLoop = .ok (s.pool.loops_.getD s.pool.next_ .base, _) by
      rw [EventLoopThreadPool.getNextLoop, if_pos hstarted, if_neg hnil]
    refine ⟨_, _, by rw [PooledServer.getNextLoop, hpool]; rfl, fun cs us hgiven => ?_⟩
    refine ⟨fun hf => ?_, h.running, h.int, h.threads, h.inits, fun _ => ?_, ?_, hgiven, h.hashed⟩
    · exact absurd (hstarted.symm.trans hf) (by decide)
    · dsimp only
      rw [List.length_append, List.length_singleton]
      exact RoundRobin.next_mod hpos hnext
    · change (s.dealt ++ [s.pool.loops_.getD s.pool.next_ .base]).map some =
        RoundRobin.turns s.dealing (s.dealt ++ [s.pool.loops_.getD s.pool.next_ .base]).length
      rw [List.length_append, List.length_singleton, RoundRobin.turns_succ, ← h.turns, ← hget,
        List.map_append, List.map_singleton]

/-- It goes to a connection. -/
lemma Inv.newConnection (h : s.Inv) (hstarted : s.pool.started_ = true) :
    ∃ t, s.newConnection = .ok t ∧ t.Inv := by
  obtain ⟨loop, pool, heq, hinv⟩ := h.getNextLoop hstarted
  refine ⟨_, by rw [PooledServer.newConnection, heq]; rfl, hinv _ _ fun x => ?_⟩
  rw [List.count_append, List.count_append, h.given x]
  exact Nat.add_right_comm _ _ _

/-- It goes to a user. -/
lemma Inv.askNextLoop (h : s.Inv) (hstarted : s.pool.started_ = true) :
    ∃ t, s.askNextLoop = .ok t ∧ t.Inv := by
  obtain ⟨loop, pool, heq, hinv⟩ := h.getNextLoop hstarted
  refine ⟨_, by rw [PooledServer.askNextLoop, heq]; rfl, hinv _ _ fun x => ?_⟩
  rw [List.count_append, List.count_append, h.given x]
  exact Nat.add_assoc _ _ _

/-- **`getLoopForHash`** goes by the loops that there are. -/
lemma hash_eq (s : PooledServer) (hashCode : ℕ) :
    some (s.pool.getLoopForHash hashCode) = s.dealing[hashCode % s.dealing.length]? := by
  unfold EventLoopThreadPool.getLoopForHash dealing
  split
  · rw [List.length_singleton, Nat.mod_one]
    rfl
  next hnil =>
    have hlt := Nat.mod_lt hashCode (List.length_pos_iff.mpr hnil)
    rw [List.getD_eq_getElem?_getD, List.getElem?_eq_getElem hlt, Option.getD_some]

lemma Inv.getLoopForHash (h : s.Inv) (hashCode : ℕ) :
    ({ s with hashed := s.hashed ++
      [⟨s.pool.started_, hashCode, s.pool.getLoopForHash hashCode⟩] } : PooledServer).Inv := by
  refine ⟨fun hf => ?_, h.running, h.int, h.threads, h.inits, h.next, h.turns, h.given,
    fun x hx => ?_⟩
  · obtain ⟨hloops, hthreads, hinits, hnext, hdealt, hhashed, hrunning⟩ := h.unstarted hf
    refine ⟨hloops, hthreads, hinits, hnext, hdealt, fun x hx => ?_, hrunning⟩
    rcases List.mem_append.mp hx with hx | hx
    · exact hhashed x hx
    · rw [List.mem_singleton.mp hx]
      exact hf
  · rcases List.mem_append.mp hx with hx | hx
    · exact h.hashed x hx
    · rw [List.mem_singleton.mp hx]
      unfold Hashes
      dsimp only
      split
      · exact s.hash_eq hashCode
      next hf =>
        exact if_pos (h.unstarted (Bool.eq_false_iff.mpr hf)).1

/-- Setting the number of threads changes nothing else. -/
lemma Inv.setThreadNum (h : s.Inv) (n : BitVec 32) :
    ({ s with pool := { s.pool with numThreads_ := n.toInt } }).Inv :=
  ⟨h.unstarted, h.running, BitVec.toInt_lt, h.threads, h.inits, h.next, h.turns, h.given, h.hashed⟩

lemma step_inv (h : s.Inv) {i : PooledServerInput} (hi : s.Proper i) :
    ∃ t, s.step i = .ok t ∧ t.Inv := by
  cases i with
  | setThreadNum n => exact ⟨_, if_pos hi, h.setThreadNum n⟩
  | poolSetThreadNum n => exact ⟨_, rfl, h.setThreadNum n⟩
  | setThreadInitCallback =>
    exact ⟨_, rfl, h.unstarted, h.running, h.int, h.threads, h.inits, h.next, h.turns, h.given,
      h.hashed⟩
  | start =>
    rcases hrunning : s.isRuning with _ | _
    · have hstarted : s.pool.started_ = false :=
        hi.resolve_left fun hr => by rw [hrunning] at hr; cases hr
      obtain ⟨t, ht, hinv⟩ := h.poolStart hstarted s.threadInitCallback true
      have hlistening : s.listening = false := h.running.trans hrunning
      refine ⟨_, ?_, hinv⟩
      rw [step, start, if_pos hrunning, ht]
      exact if_pos hlistening
    · exact ⟨s, if_neg (by rw [hrunning]; decide), h⟩
  | newConnection =>
    rw [step]
    split
    next hlistening => exact h.newConnection (h.deals.listening hlistening)
    · exact ⟨s, rfl, h⟩
  | poolStart cb =>
    obtain ⟨t, ht, hinv⟩ := h.poolStart hi cb false
    exact ⟨_, by rw [step, ht]; rfl, hinv⟩
  | getNextLoop => exact h.askNextLoop hi
  | getLoopForHash hashCode => exact ⟨_, rfl, h.getLoopForHash hashCode⟩
  | getAllLoops =>
    have hstarted : s.pool.started_ = true := hi
    refine ⟨s, ?_, h⟩
    rw [step, EventLoopThreadPool.getAllLoops, if_pos hstarted]
    rfl

lemma step_fails {i : PooledServerInput} (hi : ¬ s.Proper i) : ∃ e, s.step i = .error e := by
  have hstart (hstarted : ¬ s.pool.started_ = false) (cb : Bool) :
      s.pool.start cb = .error .start := if_neg hstarted
  cases i with
  | setThreadNum n => exact ⟨_, if_neg hi⟩
  | start =>
    obtain ⟨hrunning, hstarted⟩ := not_or.mp hi
    refine ⟨.start, ?_⟩
    rw [step, start, if_pos (Bool.eq_false_iff.mpr hrunning), hstart hstarted]
    rfl
  | poolStart cb => exact ⟨.start, by rw [step, hstart hi]; rfl⟩
  | getNextLoop =>
    have hstarted : ¬ s.pool.started_ = true := hi
    refine ⟨.started, ?_⟩
    rw [step, askNextLoop, getNextLoop, EventLoopThreadPool.getNextLoop, if_neg hstarted]
    rfl
  | getAllLoops =>
    have hstarted : ¬ s.pool.started_ = true := hi
    refine ⟨.started, ?_⟩
    rw [step, EventLoopThreadPool.getAllLoops, if_neg hstarted]
    rfl
  | setThreadInitCallback => exact absurd trivial hi
  | newConnection => exact absurd trivial hi
  | poolSetThreadNum n => exact absurd trivial hi
  | getLoopForHash hashCode => exact absurd trivial hi

/-! ## Every run -/

/-- Every state is that of a server that deals in turn, and no assertion fails. -/
def Dealing : RunSpec PooledServer LoopPoolFault where
  good := Deals
  move _ _ := True
  stop _ := False

/-- **The loops are dealt in turn**, in every run of the calls of the server and of its users, as
long as no assertion fails; and that is exactly as long as no negative number of threads is given
to the server, the pool is started once, and its loops are asked for after that. -/
theorem deals_in_turn_iff (name : Bytes) (is : List PooledServerInput) :
    machine.Meets Dealing (ctor name) is ↔ machine.Along Proper (ctor name) is := by
  refine machine.meets_iff_of_sound (I := Inv) (fun _ h => h.deals) ?_ ?_ (ctor_inv name)
  · intro s i h hi
    change Dealing.Sound _ s (s.step i)
    obtain ⟨t, ht, hinv⟩ := step_inv h hi
    rw [ht]
    exact ⟨hinv, trivial⟩
  · intro s i _ hi
    change Dealing.Seen s (s.step i)
    obtain ⟨e, he⟩ := step_fails hi
    rw [he]
    exact not_false

end PooledServer

end Firey
