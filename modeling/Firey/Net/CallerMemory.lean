import Mathlib.Logic.Function.Basic
import Firey.Framework.Mailbox
import Firey.Framework.Memory
import Firey.Net.Calls
import Firey.Net.EventLoop
import Firey.Net.FunctorQueue

/-!
# What a queued `send` finds behind its pointer

A `send` of another thread tests the state, binds `sendInLoop` to a pointer and a length, pushes
the functor and returns; `send(Bufferff*)` empties the buffer before it returns.  The octets stay
where they are, in memory of the caller, and the functor reads them when the loop thread comes
to it.  In between any thread may store and free what it likes.

A functor and a call in progress remember the octets of the call (`message`), and `sent` keeps
for each functor that has run what it wrote or appended beside them; this is history.
-/

set_option autoImplicit false

namespace Firey

/-- A `Bufferff` of a caller: its octets lie in memory from `base` on. -/
structure CallerBuffer where
  base : ℕ
  readerIndex : ℕ
  writerIndex : ℕ
  deriving DecidableEq, Repr

namespace CallerBuffer

def peek (b : CallerBuffer) : ℕ := b.base + b.readerIndex

def readableBytes (b : CallerBuffer) : ℕ := b.writerIndex - b.readerIndex

def retrieveAll (b : CallerBuffer) : CallerBuffer :=
  { b with readerIndex := Buffer.kCheapPrepend, writerIndex := Buffer.kCheapPrepend }

end CallerBuffer

abbrev BufferId := ℕ

/-- The argument of one of the three `send`. -/
inductive SendArgument
  /-- `const std::string&`: its `data()` and `size()`. -/
  | string (data size : ℕ)
  /-- `const void*`, `size_t`. -/
  | memory (data len : ℕ)
  /-- `Bufferff*`. -/
  | bufferff (id : BufferId)
  deriving DecidableEq, Repr

/-- What is pushed for the connection. -/
inductive SendFunctor
  | sendInLoop (data len : ℕ) (message : Bytes)
  | other (f : Functor)
  deriving DecidableEq, Repr

/-- Where a thread is in its `send`. -/
inductive SendCaller
  | idle
  /-- Past the test of `state_`, with the pointer and the length evaluated. -/
  | tested (data len : ℕ) (message : Bytes) (buff : Option BufferId)
  /-- Past the push. -/
  | pushed (buff : Option BufferId)
  deriving DecidableEq, Repr

/-- The octets of a call, and those its functor wrote or appended. -/
structure SentMessage where
  message : Bytes
  taken : Bytes
  deriving DecidableEq, Repr

structure SendThreads where
  conn : TcpConnection
  functors : Mailbox SendFunctor Runner
  callers : ThreadId → SendCaller
  memory : Memory Byte
  buffers : BufferId → CallerBuffer
  sent : List SentMessage

inductive SendInput
  /-- The loop thread, in an event handler or in user code, calls a function of the connection. -/
  | loop (i : TcpConnection.Input)
  /-- `doPendingFunctors` swaps. -/
  | swap
  /-- `doPendingFunctors` calls a functor; `write(2)` answers so. -/
  | runFunctor (w : WriteResult)
  /-- Another thread calls `send`: up to the test of the state. -/
  | send (t : ThreadId) (arg : SendArgument)
  /-- It pushes the functor. -/
  | push (t : ThreadId)
  /-- It returns. -/
  | ret (t : ThreadId)
  /-- Another thread calls one of the other functions of the connection. -/
  | remote (a : Action)
  /-- A thread stores octets. -/
  | store (a : ℕ) (xs : Bytes)
  /-- A thread frees memory. -/
  | free (a n : ℕ)
  /-- A thread changes a buffer of its own: it has appended, or given the buffer other memory. -/
  | setBuffer (id : BufferId) (b : CallerBuffer)
  deriving DecidableEq, Repr

/-- The call is made in the loop thread. -/
def TcpConnection.Input.inLoop : TcpConnection.Input → Bool
  | .send inLoop _ _ => inLoop
  | .shutdown inLoop => inLoop
  | .forceClose inLoop => inLoop
  | .startRead inLoop => inLoop
  | .stopRead inLoop => inLoop
  | _ => true

/-- The second half of a call; the two notices are user callbacks. -/
def Functor.toInput : Functor → Option TcpConnection.Input
  | .shutdownInLoop => some .shutdownInLoop
  | .forceCloseInLoop => some .forceCloseInLoop
  | .startReadInLoop => some .startReadInLoop
  | .stopReadInLoop => some .stopReadInLoop
  | _ => none

namespace SendThreads

open TcpConnection

/-- A connection that has yet to be established, and no memory in use. -/
def start : SendThreads where
  conn := TcpConnection.ctor
  functors := .empty
  callers := fun _ => .idle
  memory := .empty
  buffers := fun _ => ⟨0, Buffer.kCheapPrepend, Buffer.kCheapPrepend⟩
  sent := []

/-! ## The loop thread -/

/-- `queueInLoop` of the functors among the effects. -/
def postAll (m : Mailbox SendFunctor Runner) : List Effect → Mailbox SendFunctor Runner
  | [] => m
  | .queueInLoop f :: es => postAll (m.post (.other f)) es
  | _ :: es => postAll m es

/-- A function of the connection is called. -/
def exec (s : SendThreads) (i : Input) : Except Fault SendThreads := do
  let (c, es) ← s.conn.step i
  .ok { s with conn := c, functors := postAll s.functors es }

/-- What `sendInLoop` finds behind the pointer.  Where it does not write directly, it fails its
assertion before it looks. -/
def octetsBehind (s : SendThreads) (data len : ℕ) : Except Fault Bytes :=
  if !s.conn.connChannel.isWriting && s.conn.outputBuffer.readableBytes == 0 then
    match s.memory.read data len with
    | some octets => .ok octets
    | none => .error .dangling
  else .ok (List.replicate len 0)

/-- A queued `sendInLoop` is called. -/
def sendInLoop (s : SendThreads) (data len : ℕ) (message : Bytes) (w : WriteResult) :
    Except Fault SendThreads :=
  if s.conn.state = .kDisconnected then .ok s
  else do
    let octets ← s.octetsBehind data len
    let (c, es) ← s.conn.sendInLoop octets w
    .ok { s with
      conn := c
      functors := postAll s.functors es
      sent := s.sent ++
        [{ message := message
           taken := (handedBy es ++ c.pending).drop s.conn.pending.length }] }

def runFunctor (s : SendThreads) (w : WriteResult) : Except Fault SendThreads :=
  let s' := { s with functors := s.functors.take .loopThread }
  match s.functors.head? with
  | none => .ok s
  | some (.sendInLoop data len message) => s'.sendInLoop data len message w
  | some (.other f) =>
      match f.toInput with
      | some i => s'.exec i
      | none => .ok s'

/-! ## The other threads -/

/-- The pointer and the length that are bound, and the buffer that is emptied afterwards. -/
def evaluate (s : SendThreads) : SendArgument → ℕ × ℕ × Option BufferId
  | .string data size => (data, size, none)
  | .memory data len => (data, len, none)
  | .bufferff id => ((s.buffers id).peek, (s.buffers id).readableBytes, some id)

/-- The octets must be there at the call. -/
def send (s : SendThreads) (t : ThreadId) (arg : SendArgument) : SendThreads :=
  match s.evaluate arg with
  | (data, len, buff) =>
      match s.memory.read data len with
      | some message =>
          if s.conn.state = .kConnected then
            { s with callers := Function.update s.callers t (.tested data len message buff) }
          else s
      | none => s

def push (s : SendThreads) (t : ThreadId) : SendThreads :=
  match s.callers t with
  | .tested data len message buff =>
      { s with
        functors := s.functors.post (.sendInLoop data len message)
        callers := Function.update s.callers t (.pushed buff) }
  | _ => s

/-- The end of `send`: `buff->retrieveAll()`. -/
def ret (s : SendThreads) (t : ThreadId) : SendThreads :=
  match s.callers t with
  | .pushed (some id) =>
      { s with
        buffers := Function.update s.buffers id (s.buffers id).retrieveAll
        callers := Function.update s.callers t .idle }
  | .pushed none => { s with callers := Function.update s.callers t .idle }
  | _ => s

/-- The calls other than `send`. -/
def remote (s : SendThreads) : Action → Except Fault SendThreads
  | .send _ _ => .ok s
  | a => s.exec (a.toInput false)

/-! ## The machine -/

def step (s : SendThreads) : SendInput → Except Fault SendThreads
  | .loop i => if i.inLoop then s.exec i else .ok s
  | .swap =>
      if s.functors.batch = [] then .ok { s with functors := s.functors.collect } else .ok s
  | .runFunctor w => s.runFunctor w
  | .send t arg => if s.callers t = .idle then .ok (s.send t arg) else .ok s
  | .push t => .ok (s.push t)
  | .ret t => .ok (s.ret t)
  | .remote a => s.remote a
  | .store a xs => .ok { s with memory := s.memory.store a xs }
  | .free a n => .ok { s with memory := s.memory.free a n }
  | .setBuffer id b => .ok { s with buffers := Function.update s.buffers id b }

def machine : Machine SendThreads SendInput Fault := ⟨step⟩

/-! ## The condition, and what is promised -/

/-- `write(2)` takes an octet. -/
def Takes (w : WriteResult) (len : ℕ) : Prop := ∃ n, w = .wrote n ∧ 0 < min n len

/-- Whenever a queued `sendInLoop` comes to its write, the memory it was given is still there,
and holds, if the kernel takes any of it, the octets it held at the call. -/
def MessageThere (s : SendThreads) : SendInput → Prop
  | .runFunctor w => ∀ data len message, s.functors.head? = some (.sendInLoop data len message) →
      s.conn.state ≠ .kDisconnected → s.conn.pending = [] →
        ∃ octets, s.memory.read data len = some octets ∧ (Takes w len → octets = message)
  | _ => True

/-- What was written or appended for a call are the octets of the call, and nothing is read
that has been freed. -/
def Delivers : RunSpec SendThreads Fault where
  good s := ∀ m ∈ s.sent, m.taken = m.message
  move _ _ := True
  stop e := e ≠ .dangling

/-! ## One step -/

structure Inv (s : SendThreads) : Prop where
  conn : s.conn.Inv
  sent : ∀ m ∈ s.sent, m.taken = m.message

lemma start_inv : start.Inv where
  conn := ctor_inv
  sent := fun _ h => nomatch h

/-- No function of a connection reads memory of a caller. -/
lemma failure_ne_dangling {c : TcpConnection} {i : Input} {e : Fault} (h : Failure c i e) :
    e ≠ .dangling := by
  rcases h <;> exact nofun

variable {s t : SendThreads} {e : Fault}

lemma exec_inv (h : s.Inv) {i : Input} (hexec : s.exec i = .ok t) : t.Inv := by
  obtain ⟨⟨c, es⟩, hstep, hexec⟩ := bind_eq_ok hexec
  simp only [Except.ok.injEq] at hexec
  subst hexec
  exact ⟨(step_summary h.conn hstep).inv, h.sent⟩

lemma exec_error (h : s.Inv) {i : Input} (hexec : s.exec i = .error e) : e ≠ .dangling := by
  unfold exec at hexec
  rcases hstep : s.conn.step i with e' | ⟨c, es⟩
  · rw [hstep, error_bind, Except.error.injEq] at hexec
    subst hexec
    exact failure_ne_dangling (step_failure h.conn hstep)
  · rw [hstep, ok_bind] at hexec
    exact nomatch hexec

/-- With nothing pending the octets are looked at. -/
lemma octetsBehind_direct (h : s.Inv) (hnil : s.conn.pending = []) (data len : ℕ) :
    s.octetsBehind data len =
      match s.memory.read data len with
      | some octets => .ok octets
      | none => .error .dangling := by
  have hwriting := h.conn.isWriting_of_pending_nil hnil
  have hzero := h.conn.readableBytes_eq_zero_iff.mpr hnil
  rw [octetsBehind, hwriting, hzero]
  rfl

/-- With something pending they are not. -/
lemma octetsBehind_pending (h : s.Inv) (hne : s.conn.pending ≠ []) (data len : ℕ) :
    s.octetsBehind data len = .ok (List.replicate len 0) := by
  have hzero := mt h.conn.readableBytes_eq_zero_iff.mp hne
  rw [octetsBehind, if_neg (by simp [hzero])]

/-- **What a queued `sendInLoop` does**: it gives up, or its assertion fails, or it reads freed
memory, or it takes all of what it finds. -/
inductive SendOutcome (s : SendThreads) (data len : ℕ) (message : Bytes) (w : WriteResult) :
    Except Fault SendThreads → Prop
  | closed (hs : s.conn.state = .kDisconnected) : SendOutcome s data len message w (.ok s)
  | fails (hno : ¬ (s.conn.pending = [] ∧ Takes w len))
      (hread : s.conn.pending = [] → ∃ octets, s.memory.read data len = some octets) :
      SendOutcome s data len message w (.error (.assertion .sendInLoop))
  | dangling (hs : s.conn.state ≠ .kDisconnected) (hnil : s.conn.pending = [])
      (hread : s.memory.read data len = none) :
      SendOutcome s data len message w (.error .dangling)
  | taken (hs : s.conn.state ≠ .kDisconnected) (hnil : s.conn.pending = []) (hw : Takes w len)
      (octets : Bytes) (hread : s.memory.read data len = some octets) (t : SendThreads)
      (hconn : t.conn.Inv) (hsent : t.sent = s.sent ++ [⟨message, octets⟩])
      (hmemory : t.memory = s.memory) (hcallers : t.callers = s.callers)
      (hfunctors : ∃ es, t.functors = postAll s.functors es) :
      SendOutcome s data len message w (.ok t)

lemma sendInLoop_outcome (h : s.Inv) (data len : ℕ) (message : Bytes) (w : WriteResult) :
    SendOutcome s data len message w (s.sendInLoop data len message w) := by
  unfold sendInLoop
  by_cases hs : s.conn.state = .kDisconnected
  · rw [if_pos hs]
    exact .closed hs
  rw [if_neg hs]
  by_cases hnil : s.conn.pending = []
  · rw [octetsBehind_direct h hnil]
    rcases hread : s.memory.read data len with _ | octets
    · exact .dangling hs hnil hread
    have hlen := Memory.length_of_read hread
    dsimp only
    rw [ok_bind]
    by_cases hw : Takes w len
    · obtain ⟨n, rfl, hn⟩ := hw
      obtain ⟨c, es, hsend, hinv, -, hhanded, hpending, -⟩ :=
        sendInLoop_spec h.conn hs hnil (show 0 < min n octets.length by rw [hlen]; exact hn)
      rw [hsend, ok_bind]
      refine .taken hs hnil ⟨n, rfl, hn⟩ octets hread _ hinv ?_ rfl rfl ⟨es, rfl⟩
      dsimp only
      rw [hhanded, hpending, hnil, List.take_append_drop]
      rfl
    · have hno : ¬ (s.conn.pending = [] ∧ ∃ n, w = .wrote n ∧ 0 < min n octets.length) := by
        rw [hlen]
        exact fun hcon => hw hcon.2
      rw [sendInLoop_fails h.conn hs hno]
      exact .fails (fun hcon => hw hcon.2) fun _ => ⟨octets, hread⟩
  · rw [octetsBehind_pending h hnil, ok_bind, sendInLoop_fails h.conn hs fun hcon => hnil hcon.1]
    exact .fails (fun hcon => hnil hcon.1) fun hcon => absurd hcon hnil

/-- The next functor is taken out of the batch. -/
def taken (s : SendThreads) : SendThreads := { s with functors := s.functors.take .loopThread }

lemma runFunctor_send {data len : ℕ} {message : Bytes} {w : WriteResult}
    (hhead : s.functors.head? = some (.sendInLoop data len message)) :
    s.step (.runFunctor w) = s.taken.sendInLoop data len message w := by
  show s.runFunctor w = _
  rw [runFunctor, hhead]
  rfl

/-- A step that calls no queued `sendInLoop` is a call of the connection, or leaves it alone. -/
inductive Plain (s : SendThreads) : Except Fault SendThreads → Prop
  | exec (u : SendThreads) (i : Input) (hconn : u.conn = s.conn) (hsent : u.sent = s.sent)
      (hmemory : u.memory = s.memory) (hcallers : u.callers = s.callers)
      (hfunctors : u.functors = s.functors ∨ u.functors = s.functors.take .loopThread) :
      Plain s (u.exec i)
  | aside (u : SendThreads) (hconn : u.conn = s.conn) (hsent : u.sent = s.sent) : Plain s (.ok u)

lemma send_fields (t : ThreadId) (arg : SendArgument) :
    (s.send t arg).conn = s.conn ∧ (s.send t arg).sent = s.sent := by
  unfold send
  dsimp only
  split
  · split <;> exact ⟨rfl, rfl⟩
  · exact ⟨rfl, rfl⟩

lemma push_fields (t : ThreadId) : (s.push t).conn = s.conn ∧ (s.push t).sent = s.sent := by
  unfold push
  split <;> exact ⟨rfl, rfl⟩

lemma ret_fields (t : ThreadId) : (s.ret t).conn = s.conn ∧ (s.ret t).sent = s.sent := by
  unfold ret
  split <;> exact ⟨rfl, rfl⟩

lemma step_plain (i : SendInput)
    (hi : ∀ w, i = .runFunctor w → ∀ data len message,
      s.functors.head? ≠ some (.sendInLoop data len message)) : s.Plain (s.step i) := by
  unfold step
  split
  next i =>
    split
    · exact .exec s i rfl rfl rfl rfl (Or.inl rfl)
    · exact .aside s rfl rfl
  · split
    · exact .aside _ rfl rfl
    · exact .aside s rfl rfl
  next w =>
    have hnot := hi w rfl
    unfold runFunctor
    dsimp only
    split
    · exact .aside s rfl rfl
    next data len message hhead => exact absurd hhead (hnot data len message)
    next f hhead =>
      split
      next i _ => exact .exec s.taken i rfl rfl rfl rfl (Or.inr rfl)
      · exact .aside s.taken rfl rfl
  next t arg =>
    split
    · exact .aside _ (send_fields t arg).1 (send_fields t arg).2
    · exact .aside s rfl rfl
  next t => exact .aside _ (push_fields t).1 (push_fields t).2
  next t => exact .aside _ (ret_fields t).1 (ret_fields t).2
  next a =>
    unfold remote
    split
    · exact .aside s rfl rfl
    · exact .exec s _ rfl rfl rfl rfl (Or.inl rfl)
  · exact .aside _ rfl rfl
  · exact .aside _ rfl rfl
  · exact .aside _ rfl rfl

/-- A plain step promises nothing and breaks nothing. -/
lemma plain_sound (h : s.Inv) {x : Except Fault SendThreads} (hx : s.Plain x) :
    (∀ t, x = .ok t → t.Inv) ∧ ∀ e, x = .error e → e ≠ .dangling := by
  rcases hx with ⟨u, i, hconn, hsent⟩ | ⟨u, hconn, hsent⟩
  · have hu : u.Inv := ⟨hconn ▸ h.conn, hsent ▸ h.sent⟩
    exact ⟨fun t ht => exec_inv hu ht, fun e he => exec_error hu he⟩
  · refine ⟨fun t ht => ?_, fun e he => nomatch he⟩
    rw [Except.ok.injEq] at ht
    subst ht
    exact ⟨hconn ▸ h.conn, hsent ▸ h.sent⟩

/-- The input calls a queued `sendInLoop`, or it is plain. -/
lemma calls_or_plain (s : SendThreads) (i : SendInput) :
    (∃ w data len message, i = .runFunctor w ∧
        s.functors.head? = some (.sendInLoop data len message)) ∨ s.Plain (s.step i) := by
  by_cases hcalls : ∃ w data len message, i = .runFunctor w ∧
      s.functors.head? = some (.sendInLoop data len message)
  · exact Or.inl hcalls
  · exact Or.inr (step_plain i fun w hw data len message hhead =>
      hcalls ⟨w, data, len, message, hw, hhead⟩)

lemma messageThere_iff {w : WriteResult} {data len : ℕ} {message : Bytes}
    (hhead : s.functors.head? = some (.sendInLoop data len message)) :
    s.MessageThere (.runFunctor w) ↔ (s.conn.state ≠ .kDisconnected → s.conn.pending = [] →
      ∃ octets, s.memory.read data len = some octets ∧ (Takes w len → octets = message)) := by
  constructor
  · exact fun h => h data len message hhead
  · intro h data' len' message' hhead'
    rw [hhead, Option.some.injEq, SendFunctor.sendInLoop.injEq] at hhead'
    obtain ⟨rfl, rfl, rfl⟩ := hhead'
    exact h

/-- **A step that finds its message** delivers it. -/
lemma step_delivers (h : s.Inv) {i : SendInput} (hi : s.MessageThere i) :
    (∀ t, s.step i = .ok t → t.Inv) ∧ ∀ e, s.step i = .error e → e ≠ .dangling := by
  rcases calls_or_plain s i with ⟨w, data, len, message, rfl, hhead⟩ | hplain
  · have htaken : s.taken.Inv := ⟨h.conn, h.sent⟩
    rw [messageThere_iff hhead] at hi
    have houtcome := sendInLoop_outcome htaken data len message w
    rw [runFunctor_send hhead]
    generalize s.taken.sendInLoop data len message w = x at houtcome ⊢
    rcases houtcome with
      hs | ⟨hno, hread⟩ | ⟨hs, hnil, hread⟩ | ⟨hs, hnil, hw, octets, hread, u, hconn, hsent, -⟩
    · refine ⟨fun t ht => ?_, fun e he => nomatch he⟩
      rw [Except.ok.injEq] at ht
      exact ht ▸ htaken
    · refine ⟨fun t ht => (nomatch ht), fun e he => ?_⟩
      rw [Except.error.injEq] at he
      exact he ▸ nofun
    · obtain ⟨octets, hthere, -⟩ := hi hs hnil
      change s.memory.read data len = none at hread
      rw [hread] at hthere
      exact nomatch hthere
    · refine ⟨fun t ht => ?_, fun e he => nomatch he⟩
      rw [Except.ok.injEq] at ht
      subst ht
      refine ⟨hconn, fun m hm => ?_⟩
      rw [hsent] at hm
      rcases List.mem_append.mp hm with hm | hm
      · exact h.sent m hm
      · obtain ⟨octets', hthere, hsame⟩ := hi hs hnil
        change s.memory.read data len = some octets at hread
        rw [hread, Option.some.injEq] at hthere
        rw [List.mem_singleton.mp hm]
        exact hthere.trans (hsame hw)
  · exact plain_sound h hplain

/-- **A step that does not find its message** writes something else, or reads freed memory. -/
lemma step_misses (h : s.Inv) {i : SendInput} (hi : ¬ s.MessageThere i) :
    (∀ t, s.step i = .ok t → ¬ Delivers.good t) ∧ ∀ e, s.step i = .error e → e = .dangling := by
  obtain ⟨w, data, len, message, rfl, hhead⟩ : ∃ w data len message, i = .runFunctor w ∧
      s.functors.head? = some (.sendInLoop data len message) := by
    by_contra hnot
    apply hi
    unfold MessageThere
    split
    next w =>
      intro data len message hhead
      exact absurd ⟨w, data, len, message, rfl, hhead⟩ hnot
    · trivial
  have htaken : s.taken.Inv := ⟨h.conn, h.sent⟩
  rw [messageThere_iff hhead] at hi
  push Not at hi
  obtain ⟨hs, hnil, hother⟩ := hi
  have houtcome := sendInLoop_outcome htaken data len message w
  rw [runFunctor_send hhead]
  generalize s.taken.sendInLoop data len message w = x at houtcome ⊢
  rcases houtcome with
    hs' | ⟨hno, hread⟩ | ⟨hs', hnil', hread⟩ | ⟨-, -, hw, octets, hread, u, -, hsent, -⟩
  · exact absurd hs' hs
  · obtain ⟨octets, hread⟩ := hread hnil
    exact absurd ⟨hnil, (hother octets hread).1⟩ hno
  · refine ⟨fun t ht => (nomatch ht), fun e he => ?_⟩
    rw [Except.error.injEq] at he
    exact he.symm
  · refine ⟨fun t ht hgood => ?_, fun e he => nomatch he⟩
    rw [Except.ok.injEq] at ht
    subst ht
    have hmem : (⟨message, octets⟩ : SentMessage) ∈ u.sent := by
      rw [hsent]
      exact List.mem_append_right _ List.mem_cons_self
    exact (hother octets hread).2 (hgood _ hmem)

/-! ## Every run -/

/-- **Cross-thread `send`.**  A run delivers to the connection the messages of the calls, and
reads nothing that has been freed, if and only if each queued `sendInLoop` finds the octets of
its call where they were. -/
theorem send_delivers_iff (is : List SendInput) :
    machine.Meets Delivers start is ↔ machine.Along MessageThere start is := by
  refine machine.meets_iff_along (I := Inv) (fun s h => h.sent) ?_ ?_ ?_ ?_ start_inv
  · intro s i t h hi hstep
    exact ⟨(step_delivers h hi).1 t hstep, trivial⟩
  · intro s i e h hi hstep
    exact (step_delivers h hi).2 e hstep
  · rintro s i t h hi hstep ⟨-, hgood⟩
    exact (step_misses h hi).1 t hstep hgood
  · intro s i e h hi hstep hstops
    exact hstops ((step_misses h hi).2 e hstep)

/-- A thread sends the two octets of its `Bufferff`, and appends two others when the call has
returned, before the loop thread comes to the functor: what is written are the others.  A thread
that has freed its string by then has the loop thread read freed memory. -/
theorem send_delivers_other :
    (∃ s, machine.run start
        [.loop .connectionEstablished, .store 108 [104, 105], .setBuffer 0 ⟨100, 8, 10⟩,
          .send 1 (.bufferff 0), .push 1, .ret 1, .store 108 [120, 121],
          .setBuffer 0 ⟨100, 8, 10⟩, .swap, .runFunctor (.wrote 2)] = .ok s ∧
        s.sent = [⟨[104, 105], [120, 121]⟩]) ∧
      machine.run start
        [.loop .connectionEstablished, .store 200 [104, 105], .send 1 (.string 200 2), .push 1,
          .ret 1, .free 200 2, .swap, .runFunctor (.wrote 2)] = .error .dangling :=
  ⟨⟨_, rfl, rfl⟩, rfl⟩

/-! ## Callers that leave their memory alone -/

/-- A functor in the queue or in the batch, or a call before its push, refers to the range. -/
def Waits (s : SendThreads) (data len : ℕ) (message : Bytes) : Prop :=
  .sendInLoop data len message ∈ (s.functors.batch ++ s.functors.queue).map Posted.item ∨
    ∃ t buff, s.callers t = .tested data len message buff

/-- Nothing is stored into a range a waiting `send` refers to, and nothing of it is freed. -/
def LeftAlone (s : SendThreads) : SendInput → Prop
  | .store a xs => ∀ data len message, s.Waits data len message → Memory.Apart data len a xs.length
  | .free a n => ∀ data len message, s.Waits data len message → Memory.Apart data len a n
  | _ => True

/-- Whatever waits finds its message. -/
def Ready (s : SendThreads) : Prop :=
  ∀ data len message, s.Waits data len message → s.memory.read data len = some message

/-- Only the two notices and the second halves of other calls are among the effects. -/
lemma mem_postAll {data len : ℕ} {message : Bytes} {es : List Effect}
    {m : Mailbox SendFunctor Runner}
    (h : .sendInLoop data len message ∈
      ((postAll m es).batch ++ (postAll m es).queue).map Posted.item) :
    .sendInLoop data len message ∈ (m.batch ++ m.queue).map Posted.item := by
  induction es generalizing m with
  | nil => exact h
  | cons e es ih =>
    rcases e
    case queueInLoop f =>
      have hposted := ih h
      rw [Mailbox.post_batch, Mailbox.post, ← List.append_assoc, List.map_append] at hposted
      rcases List.mem_append.mp hposted with hold | hnew
      · exact hold
      · exact absurd hnew (by simp)
    all_goals exact ih h

/-- Taking a functor leaves no more waiting than before. -/
lemma mem_take {f : SendFunctor} {m : Mailbox SendFunctor Runner}
    (h : f ∈ ((m.take .loopThread).batch ++ (m.take .loopThread).queue).map Posted.item) :
    f ∈ (m.batch ++ m.queue).map Posted.item := by
  rw [Mailbox.take_batch, Mailbox.take_queue] at h
  obtain ⟨p, hp, rfl⟩ := List.mem_map.mp h
  refine List.mem_map.mpr ⟨p, ?_, rfl⟩
  rcases List.mem_append.mp hp with hp | hp
  · exact List.mem_append_left _ (List.mem_of_mem_tail hp)
  · exact List.mem_append_right _ hp

lemma Ready.of_waits {u : SendThreads} (h : s.Ready) (hmemory : u.memory = s.memory)
    (hwaits : ∀ data len message, u.Waits data len message →
      s.Waits data len message ∨ s.memory.read data len = some message) : u.Ready := by
  intro data len message hw
  rw [hmemory]
  exact (hwaits data len message hw).elim (h data len message) id

lemma Ready.exec (h : s.Ready) {i : Input} (hexec : s.exec i = .ok t) : t.Ready := by
  obtain ⟨⟨c, es⟩, _, hexec⟩ := bind_eq_ok hexec
  simp only [Except.ok.injEq] at hexec
  subst hexec
  exact h.of_waits rfl fun _ _ _ hw => Or.inl (hw.imp_left mem_postAll)

lemma Ready.taken (h : s.Ready) : s.taken.Ready :=
  h.of_waits rfl fun _ _ _ hw => Or.inl (hw.imp_left mem_take)

lemma Ready.runFunctor (h : s.Ready) (hinv : s.Inv) {w : WriteResult}
    (hrun : s.runFunctor w = .ok t) : t.Ready := by
  unfold SendThreads.runFunctor at hrun
  dsimp only at hrun
  split at hrun
  · rw [Except.ok.injEq] at hrun
    exact hrun ▸ h
  next data len message _ =>
    have houtcome := sendInLoop_outcome (s := s.taken) ⟨hinv.conn, hinv.sent⟩ data len message w
    change s.taken.sendInLoop data len message w = _ at hrun
    rw [hrun] at houtcome
    rcases houtcome with
      _ | _ | _ | ⟨_, _, _, octets, _, _, _, _, hmemory, hcallers, es, hfunctors⟩
    · exact h.taken
    · refine h.taken.of_waits hmemory fun data len message hw => Or.inl ?_
      unfold Waits at hw ⊢
      rw [hfunctors, hcallers] at hw
      exact hw.imp_left mem_postAll
  next f _ =>
    split at hrun
    · exact h.taken.exec hrun
    · rw [Except.ok.injEq] at hrun
      exact hrun ▸ h.taken

/-- The message of a call is what is in memory at the call. -/
lemma Ready.send (h : s.Ready) (n : ThreadId) (arg : SendArgument) : (s.send n arg).Ready := by
  unfold SendThreads.send
  dsimp only
  split
  next message hread =>
    split
    · refine h.of_waits rfl fun data len message' hw => ?_
      rcases hw with hw | ⟨t, buff, hw⟩
      · exact Or.inl (Or.inl hw)
      · dsimp only at hw
        by_cases ht : t = n
        · rw [ht, Function.update_self, SendCaller.tested.injEq] at hw
          obtain ⟨rfl, rfl, rfl, -⟩ := hw
          exact Or.inr hread
        · rw [Function.update_of_ne ht] at hw
          exact Or.inl (Or.inr ⟨t, buff, hw⟩)
    · exact h
  · exact h

/-- A caller that goes on has no more before its push than it had. -/
lemma tested_of_update {callers : ThreadId → SendCaller} {t n : ThreadId} {c : SendCaller}
    {data len : ℕ} {message : Bytes} {buff : Option BufferId}
    (hc : ∀ data len message buff, c ≠ .tested data len message buff)
    (h : Function.update callers n c t = .tested data len message buff) :
    callers t = .tested data len message buff := by
  by_cases ht : t = n
  · rw [ht, Function.update_self] at h
    exact absurd h (hc _ _ _ _)
  · rwa [Function.update_of_ne ht] at h

lemma Ready.push (h : s.Ready) (n : ThreadId) : (s.push n).Ready := by
  unfold SendThreads.push
  split
  next data len message buff hcaller =>
    refine h.of_waits rfl fun data' len' message' hw => Or.inl ?_
    rcases hw with hw | ⟨t, buff', hw⟩
    · dsimp only at hw
      rw [Mailbox.post_batch, Mailbox.post, ← List.append_assoc, List.map_append] at hw
      rcases List.mem_append.mp hw with hold | hnew
      · exact Or.inl hold
      · rw [List.map_singleton, List.mem_singleton, SendFunctor.sendInLoop.injEq] at hnew
        obtain ⟨rfl, rfl, rfl⟩ := hnew
        exact Or.inr ⟨n, buff, hcaller⟩
    · exact Or.inr ⟨t, buff', tested_of_update (by simp) hw⟩
  · exact h

lemma Ready.ret (h : s.Ready) (n : ThreadId) : (s.ret n).Ready := by
  unfold SendThreads.ret
  split
  · exact h.of_waits rfl fun _ _ _ hw => Or.inl <| hw.imp_right fun ⟨t, buff, hw⟩ =>
      ⟨t, buff, tested_of_update (by simp) hw⟩
  · exact h.of_waits rfl fun _ _ _ hw => Or.inl <| hw.imp_right fun ⟨t, buff, hw⟩ =>
      ⟨t, buff, tested_of_update (by simp) hw⟩
  · exact h

lemma Ready.swap (h : s.Ready) (hbatch : s.functors.batch = []) :
    ({ s with functors := s.functors.collect }).Ready := by
  refine h.of_waits rfl fun data len message hw => Or.inl ?_
  unfold Waits at hw ⊢
  rw [hbatch, List.nil_append]
  rwa [Mailbox.collect_batch, Mailbox.collect_queue, List.append_nil] at hw

lemma step_ready (hinv : s.Inv) (h : s.Ready) {i : SendInput} (hi : s.LeftAlone i)
    (hstep : s.step i = .ok t) : t.Ready := by
  unfold step at hstep
  split at hstep
  · split at hstep
    · exact h.exec hstep
    · rw [Except.ok.injEq] at hstep
      exact hstep ▸ h
  · split at hstep <;> rw [Except.ok.injEq] at hstep
    next hbatch => exact hstep ▸ h.swap hbatch
    · exact hstep ▸ h
  · exact h.runFunctor hinv hstep
  · split at hstep <;> rw [Except.ok.injEq] at hstep
    · exact hstep ▸ h.send _ _
    · exact hstep ▸ h
  · rw [Except.ok.injEq] at hstep
    exact hstep ▸ h.push _
  · rw [Except.ok.injEq] at hstep
    exact hstep ▸ h.ret _
  · unfold remote at hstep
    split at hstep
    · rw [Except.ok.injEq] at hstep
      exact hstep ▸ h
    · exact h.exec hstep
  · rw [Except.ok.injEq] at hstep
    subst hstep
    intro data len message hw
    rw [Memory.read_store _ (hi data len message hw)]
    exact h data len message hw
  · rw [Except.ok.injEq] at hstep
    subst hstep
    intro data len message hw
    rw [Memory.read_free _ (hi data len message hw)]
    exact h data len message hw
  · rw [Except.ok.injEq] at hstep
    subst hstep
    exact h.of_waits rfl fun _ _ _ hw => Or.inl hw

lemma Ready.messageThere (h : s.Ready) (i : SendInput) : s.MessageThere i := by
  unfold MessageThere
  split
  next w =>
    intro data len message hhead _ _
    rw [Mailbox.head?, Option.map_eq_some_iff] at hhead
    obtain ⟨p, hp, hitem⟩ := hhead
    have hmem : .sendInLoop data len message ∈
        (s.functors.batch ++ s.functors.queue).map Posted.item :=
      List.mem_map.mpr ⟨p, List.mem_append_left _ (List.mem_of_head? hp), hitem⟩
    exact ⟨message, h data len message (Or.inl hmem), fun _ => rfl⟩
  · trivial

/-- **Callers that leave alone what they passed**, until the functor has run, have their
messages delivered, in every order of steps. -/
theorem send_delivers_of_leftAlone (is : List SendInput)
    (halone : machine.Along LeftAlone start is) : machine.Meets Delivers start is := by
  refine machine.meets_of_along (I := fun s => s.Inv ∧ s.Ready) (fun s h => h.1.sent) ?_ ?_
    ⟨start_inv, ?_⟩ halone
  · rintro s i t ⟨hinv, hready⟩ hi hstep
    exact ⟨⟨(step_delivers hinv (hready.messageThere i)).1 t hstep,
      step_ready hinv hready hi hstep⟩, trivial⟩
  · rintro s i e ⟨hinv, hready⟩ hi hstep
    exact (step_delivers hinv (hready.messageThere i)).2 e hstep
  · rintro data len message (hw | ⟨t, buff, hw⟩)
    · exact nomatch hw
    · exact nomatch hw

end SendThreads

end Firey
