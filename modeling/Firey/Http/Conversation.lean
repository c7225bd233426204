import Firey.Http.Refusals
import Firey.Http.Response
import Firey.Http.Rounds
import Firey.Net.DirectCalls

/-!
# A connection of an `HttpServerff`

The parts come together here: `handleRead` puts what arrives into the input buffer and calls
`onMessage`, `onMessage` parses it and answers over the same connection, and `handleWrite` is there
for what the kernel did not take.  The user's callback sees the request and the response alone, so
nobody else calls the connection: `reading_` stays as it is, and no thread but that of the loop has
to do with it.  What the callback computes may depend on what it has seen before, and so it is part
of the input, with what the kernel answers to the writes of that call.

A connection that is open always reads, which makes `isWriting()` false of it.  So an answer that
the kernel did not take whole stays where it is, and is the last one (`conversation_answers`); the
next one ends the process.  A request that comes behind an answer that closes is still given to the
callback, and `send` drops its answer.
-/

set_option autoImplicit false

namespace Firey

open HttpServer HttpResponse

namespace HttpResponse

/-! ## The text of a response -/

/-- What `appendToBuffer` writes for `Connection` and for `Content-Length`, which may be cut. -/
def connectionText (r : HttpResponse) : Bytes :=
  if r.closeConnection_ then connection ++ colonSpace ++ close ++ Buffer.kCRLF
  else snprintf 32 (contentLength ++ colonSpace ++ unsignedText r.body_.length ++ Buffer.kCRLF) ++
    (connection ++ colonSpace ++ keepAlive ++ Buffer.kCRLF)

/-- Everything `appendToBuffer` writes. -/
def text (r : HttpResponse) : Bytes :=
  snprintf 32 (version ++ unsignedText r.statusCode_ ++ [SP]) ++ (r.statusMessage_ ++
    (Buffer.kCRLF ++
    (r.connectionText ++ ((r.headers_.toList.map fun h => headerLine h ++ Buffer.kCRLF).flatten ++
      (Buffer.kCRLF ++ r.body_)))))

lemma puts_text (r : HttpResponse) : Puts r.text r.appendToBuffer := by
  have hconnection : Puts r.connectionText r.appendConnection := by
    unfold connectionText appendConnection
    cases r.closeConnection_ with
    | true => exact puts_append _
    | false => exact (puts_append _).seq (puts_append _)
  exact (puts_append _).seq ((puts_append _).seq ((puts_append _).seq (hconnection.seq
    ((Puts.foldlM puts_appendHeader _).seq ((puts_append _).seq (puts_append _))))))

/-- The text of a body that is not too long is a status line, a header section and the body. -/
lemma text_eq {r : HttpResponse} (hbody : r.body_.length < 10 ^ 13) :
    r.text = r.statusLine ++ Buffer.kCRLF ++ r.afterStatusLine := by
  obtain ⟨b, hb, -, hread⟩ := puts_text r _ (Buffer.ofInitialSize_wf Buffer.kInitialSize)
  obtain ⟨b', hb', -, hread'⟩ :=
    puts_appendToBuffer hbody _ (Buffer.ofInitialSize_wf Buffer.kInitialSize)
  rw [hb] at hb'
  cases hb'
  rw [hread] at hread'
  exact List.append_cancel_left hread'

end HttpResponse

/-- What a call of `onMessage` answers: a request line that is refused, or a request. -/
inductive Exchange
  | refused
  | served (request : HttpRequest) (response : HttpResponse)

namespace Exchange

def octets : Exchange → Bytes
  | .refused => badRequest
  | .served _ response => response.text

/-- `shutdown()` follows the answer. -/
def closes : Exchange → Bool
  | .refused => true
  | .served _ response => response.closeConnection_

def request? : Exchange → Option HttpRequest
  | .refused => none
  | .served request _ => some request

/-- What is asked of the connection. -/
def effects (x : Exchange) : List HttpEffect :=
  .send x.octets :: if x.closes then [.shutdown] else []

/-- The exchanges whose answers are not dropped: all up to the first that closes. -/
def answered : List Exchange → List Exchange
  | [] => []
  | x :: xs => x :: if x.closes then [] else answered xs

lemma answered_of_open {xs : List Exchange} (h : xs.any closes = false) : answered xs = xs := by
  induction xs with
  | nil => rfl
  | cons x xs ih =>
    rw [List.any_cons, Bool.or_eq_false_iff] at h
    rw [answered, h.1, ih h.2]
    rfl

lemma answered_append_of_closed {xs : List Exchange} (h : xs.any closes = true)
    (ys : List Exchange) : answered (xs ++ ys) = answered xs := by
  induction xs with
  | nil => cases h
  | cons x xs ih =>
    rw [List.cons_append, answered, answered]
    cases hx : x.closes with
    | true => rfl
    | false =>
      rw [List.any_cons, hx, Bool.false_or] at h
      rw [ih h]

lemma answered_append_of_open {xs : List Exchange} (h : xs.any closes = false)
    (ys : List Exchange) : answered (xs ++ ys) = xs ++ answered ys := by
  induction xs with
  | nil => rfl
  | cons x xs ih =>
    rw [List.any_cons, Bool.or_eq_false_iff] at h
    rw [List.cons_append, List.cons_append, answered, h.1, ih h.2]
    rfl

end Exchange

/-! ## The conversation -/

/-- The connection with the history of its output, its context, and what `onMessage` has
answered. -/
structure Conversation where
  wire : Wire
  context : HttpContext
  exchanges : List Exchange

/-- An event of the loop, with what the kernel answers. -/
inductive ConversationInput
  | connectionEstablished
  | handleRead (r : ReadResult) (receiveTime : Timestamp)
      (httpCallback : HttpRequest → HttpResponse → HttpResponse) (write : Bytes → WriteResult)
  | handleWrite (w : WriteResult)
  | handleError
  | connectionDestroy

namespace Conversation

open HttpContext

/-- As the constructors leave it. -/
def start : Conversation where
  wire := Wire.start
  context := HttpContext.ctor
  exchanges := []

def act (write : Bytes → WriteResult) (s : Conversation) : HttpEffect → Except Fault Conversation
  | .send message => do
      let wire ← s.wire.step (.send true message (write message))
      .ok { s with wire := wire }
  | .shutdown => do
      let wire ← s.wire.step (.shutdown true)
      .ok { s with wire := wire }
  | .onRequest _ => .ok s

/-- The response that the callback makes. -/
def respond (httpCallback : HttpRequest → HttpResponse → HttpResponse) (request : HttpRequest) :
    HttpResponse :=
  httpCallback request (HttpResponse.ctor (closes request))

/-- What `onMessage` asks for is done: a message that it sends itself is a refusal. -/
def perform (httpCallback : HttpRequest → HttpResponse → HttpResponse)
    (write : Bytes → WriteResult) (s : Conversation) :
    HttpEffect → Except Fault Conversation
  | .send message =>
      { s with exchanges := s.exchanges ++ [Exchange.refused] }.act write (.send message)
  | .shutdown => s.act write .shutdown
  | .onRequest request => do
      let es ← onRequest httpCallback request
      es.foldlM (act write)
        { s with exchanges := s.exchanges ++ [.served request (respond httpCallback request)] }

/-- The parser has taken octets out of the input buffer. -/
def setInput (s : Wire) (buffer : Buffer) : Wire :=
  { s with conn := { s.conn with inputBuffer := buffer } }

def onMessage (s : Conversation) (receiveTime : Timestamp)
    (httpCallback : HttpRequest → HttpResponse → HttpResponse) (write : Bytes → WriteResult) :
    Except Fault Conversation := do
  let (context, buffer, es) ← HttpServer.onMessage s.context s.wire.conn.inputBuffer receiveTime
  es.foldlM (perform httpCallback write)
    { s with wire := setInput s.wire buffer, context := context }

def handleRead (s : Conversation) (r : ReadResult) (receiveTime : Timestamp)
    (httpCallback : HttpRequest → HttpResponse → HttpResponse) (write : Bytes → WriteResult) :
    Except Fault Conversation := do
  let (c, es) ← s.wire.conn.step (.handleRead r)
  let s := { s with wire := s.wire.record (.handleRead r) c es }
  if .callback .message ∈ es then s.onMessage receiveTime httpCallback write else .ok s

/-- Events are those of a connection that is open, and a connection is established once. -/
def step (s : Conversation) : ConversationInput → Except Fault Conversation
  | .connectionEstablished =>
      if s.wire.conn.state = .kConnecting then do
        let wire ← s.wire.step .connectionEstablished
        -- `onConnection`
        .ok { s with wire := wire, context := HttpContext.ctor }
      else .ok s
  | .handleRead r receiveTime httpCallback write =>
      if s.wire.conn.isOpen then s.handleRead r receiveTime httpCallback write else .ok s
  | .handleWrite w =>
      if s.wire.conn.isOpen then do
        let wire ← s.wire.step (.handleWrite w)
        .ok { s with wire := wire }
      else .ok s
  | .handleError => do
      let wire ← s.wire.step .handleError
      .ok { s with wire := wire }
  | .connectionDestroy => do
      let wire ← s.wire.step .connectionDestroy
      let wire ← wire.step .channelRemove
      .ok { s with wire := wire }

def machine : Machine Conversation ConversationInput Fault := ⟨step⟩

/-! ## What it promises -/

/-- Some answer closes the connection. -/
def closing (xs : List Exchange) : Bool := xs.any Exchange.closes

/-- The answers that go out. -/
def answers (xs : List Exchange) : List Bytes := (Exchange.answered xs).map Exchange.octets

/-- The answers go out in the order of the exchanges and none behind one that closes, all but the
last of them whole; an open connection is half closed as soon as one closes, `SHUT_WR` comes once,
behind the last answer; and behind a refusal there are only refusals. -/
structure Faithful (s : Conversation) : Prop where
  conserved : s.wire.handed ++ s.wire.conn.pending = (answers s.exchanges).flatten
  whole : (answers s.exchanges).dropLast.flatten <+: s.wire.handed
  closed : s.wire.conn.isOpen = true →
    (s.wire.conn.state = .kDisconnecting ↔ closing s.exchanges = true)
  shut : s.wire.shutdowns =
    if closing s.exchanges then [⟨s.wire.conn.pending, s.wire.handed, answers s.exchanges⟩] else []
  refusals : s.exchanges.Pairwise fun x y => x = .refused → y = .refused

/-- The connection and what it has to do with the exchanges. -/
structure Outward (w : Wire) (xs : List Exchange) : Prop where
  wire : w.Inv
  accepted : w.accepted = answers xs
  whole : (answers xs).dropLast.flatten <+: w.handed
  connecting : w.conn.state = .kConnecting → xs = []
  connected : w.conn.state = .kConnected → closing xs = false
  disconnecting : w.conn.state = .kDisconnecting → closing xs = true
  reads : w.conn.isOpen = true → w.conn.wantsRead = true
  silent : w.conn.isOpen = false → w.conn.connChannel.events = kNoneEvent
  shut : w.shutdowns = if closing xs then [⟨w.conn.pending, w.handed, answers xs⟩] else []

/-- The first line has been refused, and is going to be again. -/
def Refusing (c : HttpContext) (l : Bytes) : Prop :=
  c.state_ = .kExpectRequestLine ∧ ∃ n, search Buffer.kCRLF l = some n ∧
    ∀ r, c.request_.processRequestLine (l.take n) ≠ .ok (r, true)

/-- The parser and what it has to do with them. -/
structure Inward (c : HttpContext) (l : Bytes) (xs : List Exchange) : Prop where
  expects : c.Expects
  refusing : .refused ∈ xs → Refusing c l
  refusals : xs.Pairwise fun x y => x = .refused → y = .refused

/-- What holds between two events. -/
structure Inv (s : Conversation) : Prop where
  outward : Outward s.wire s.exchanges
  inward : Inward s.context s.wire.conn.inputBuffer.readable s.exchanges

lemma start_inv : start.Inv where
  outward :=
    { wire := Wire.start_inv
      accepted := rfl
      whole := List.nil_prefix
      connecting := fun _ => rfl
      connected := fun h => by cases h
      disconnecting := fun h => by cases h
      reads := fun h => by cases h
      silent := fun _ => rfl
      shut := rfl }
  inward :=
    { expects := ctor_expects
      refusing := fun h => absurd h List.not_mem_nil
      refusals := List.Pairwise.nil }

lemma Inv.faithful {s : Conversation} (h : s.Inv) : s.Faithful where
  conserved := by rw [h.outward.wire.conserved, h.outward.accepted]
  whole := h.outward.whole
  closed := by
    intro ho
    refine ⟨h.outward.disconnecting, fun hclosing => ?_⟩
    rcases TcpConnection.isOpen_iff.mp ho with hs | hs
    · rw [h.outward.connected hs] at hclosing
      cases hclosing
    · exact hs
  shut := h.outward.shut
  refusals := h.inward.refusals

namespace Outward

variable {w : Wire} {xs : List Exchange} {c : TcpConnection}

/-- The connection opens. -/
lemma opened (h : Outward w xs) (hs : w.conn.state = .kConnecting) (hinv : c.Inv)
    (hst : c.state = .kConnected) (hreads : c.wantsRead = true)
    (hpend : c.pending = w.conn.pending) : Outward { w with conn := c } xs := by
  have hnone := h.connecting hs
  refine ⟨⟨hinv, ?_⟩, h.accepted, h.whole, fun _ => hnone, fun _ => ?_, fun hc => ?_,
    fun _ => hreads, fun hc => ?_, ?_⟩
  · rw [hpend]
    exact h.wire.conserved
  · rw [hnone]
    rfl
  · exact absurd (hst.symm.trans hc) (by decide)
  · rw [TcpConnection.isOpen_iff.mpr (Or.inl hst)] at hc
    cases hc
  · rw [hpend]
    exact h.shut

/-- The connection is closed, and what was pending stays. -/
lemma closed (h : Outward w xs) (hinv : c.Inv) (hclosed : c.isOpen = false)
    (hconnecting : c.state = .kConnecting → w.conn.state = .kConnecting)
    (hev : c.connChannel.events = kNoneEvent) (hpend : c.pending = w.conn.pending) :
    Outward { w with conn := c } xs := by
  refine ⟨⟨hinv, ?_⟩, h.accepted, h.whole, fun hc => h.connecting (hconnecting hc), fun hc => ?_,
    fun hc => ?_, fun hc => ?_, fun _ => hev, ?_⟩
  · rw [hpend]
    exact h.wire.conserved
  · rw [TcpConnection.isOpen_iff.mpr (Or.inl hc)] at hclosed
    cases hclosed
  · rw [TcpConnection.isOpen_iff.mpr (Or.inr hc)] at hclosed
    cases hclosed
  · exact absurd (hclosed.symm.trans hc) (by decide)
  · rw [hpend]
    exact h.shut

/-- What is in the input buffer does not matter. -/
lemma setInput (h : Outward w xs) {b : Buffer} (hb : b.WF) :
    Outward (Conversation.setInput w b) xs where
  wire := ⟨h.wire.conn.of_frame hb rfl h.wire.conn.channel_ok rfl Iff.rfl, h.wire.conserved⟩
  accepted := h.accepted
  whole := h.whole
  connecting := h.connecting
  connected := h.connected
  disconnecting := h.disconnecting
  reads := h.reads
  silent := h.silent
  shut := h.shut

end Outward

/-! ## An answer -/

/-- An exchange is put down, and its answer is sent. -/
def answer (write : Bytes → WriteResult) (s : Conversation) (x : Exchange) :
    Except Fault Conversation :=
  x.effects.foldlM (act write) { s with exchanges := s.exchanges ++ [x] }

/-- The answer is not dropped, and the kernel has not taken all of the one before or takes nothing
of this one. -/
def Stuck (s : Conversation) (write : Bytes → WriteResult) (x : Exchange) : Prop :=
  s.wire.conn.state = .kConnected ∧
    ¬ (s.wire.conn.pending = [] ∧ ∃ n, write x.octets = .wrote n ∧ 0 < n)

/-- What an answer leaves. -/
structure Answered (s t : Conversation) (write : Bytes → WriteResult) (x : Exchange) : Prop where
  outward : Outward t.wire t.exchanges
  isOpen : t.wire.conn.isOpen = true
  exchanges : t.exchanges = s.exchanges ++ [x]
  context : t.context = s.context
  handed : s.wire.handed <+: t.wire.handed
  inputBuffer : t.wire.conn.inputBuffer = s.wire.conn.inputBuffer
  pending : s.wire.conn.pending = [] → write x.octets = .wrote x.octets.length →
    t.wire.conn.pending = []

lemma octets_length_pos (x : Exchange) : 0 < x.octets.length := by
  cases x with
  | refused => decide
  | served request response =>
    have hcrlf : 0 < Buffer.kCRLF.length := by decide
    simp only [Exchange.octets, HttpResponse.text, List.length_append]
    omega

lemma closing_append (xs : List Exchange) (x : Exchange) :
    closing (xs ++ [x]) = (closing xs || x.closes) := by
  rw [closing, List.any_append, List.any_cons, List.any_nil, Bool.or_false, closing]

lemma answers_append_of_closed {xs : List Exchange} (h : closing xs = true) (x : Exchange) :
    answers (xs ++ [x]) = answers xs := by
  rw [answers, Exchange.answered_append_of_closed h, answers]

lemma answers_append_of_open {xs : List Exchange} (h : closing xs = false) (x : Exchange) :
    answers (xs ++ [x]) = answers xs ++ [x.octets] := by
  rw [answers, Exchange.answered_append_of_open h, List.map_append, answers,
    Exchange.answered_of_open h]
  cases hx : x.closes <;> simp [Exchange.answered, hx]

/-- Behind an answer that closes, an answer is dropped. -/
lemma answer_dropped {s : Conversation} (h : Outward s.wire s.exchanges)
    (hs : s.wire.conn.state = .kDisconnecting) (write : Bytes → WriteResult) (x : Exchange) :
    ∃ t, s.answer write x = .ok t ∧ s.Answered t write x := by
  have hidle : s.wire.conn.state ≠ .kConnected := by
    rw [hs]
    decide
  have hopen := TcpConnection.isOpen_iff.mpr (Or.inr hs)
  have hclosing := h.disconnecting hs
  have hclosing' : closing (s.exchanges ++ [x]) = true := by
    rw [closing_append, hclosing, Bool.true_or]
  have hanswers := answers_append_of_closed hclosing x
  refine ⟨{ s with exchanges := s.exchanges ++ [x] }, ?_, ⟨⟨h.wire, ?_, ?_, fun hc => ?_,
    fun hc => absurd hc hidle, fun _ => hclosing', h.reads, h.silent, ?_⟩, hopen, rfl, rfl,
    List.prefix_rfl, rfl, fun hnil _ => hnil⟩⟩
  · have hsend := Wire.step_send_idle hidle x.octets (write x.octets)
    have hshut := Wire.step_shutdown_idle hidle
    unfold answer Exchange.effects
    rw [List.foldlM_cons, act, hsend, ok_bind, ok_bind]
    cases x.closes with
    | true =>
      rw [if_pos rfl, List.foldlM_cons, act, hshut, ok_bind, ok_bind]
      rfl
    | false => rfl
  · rw [hanswers]
    exact h.accepted
  · rw [hanswers]
    exact h.whole
  · exact absurd (hs.symm.trans hc) (by decide)
  · rw [hanswers, hclosing', if_pos rfl]
    have hshut := h.shut
    rwa [hclosing, if_pos rfl] at hshut

/-- Otherwise it is sent, and the connection half closed if it says so. -/
lemma answer_sent {s : Conversation} (h : Outward s.wire s.exchanges)
    (hs : s.wire.conn.state = .kConnected) (hnil : s.wire.conn.pending = [])
    {write : Bytes → WriteResult} {x : Exchange} {n : ℕ} (hw : write x.octets = .wrote n)
    (hn : 0 < n) : ∃ t, s.answer write x = .ok t ∧ s.Answered t write x := by
  have hclosing := h.connected hs
  have hpos : 0 < min n x.octets.length := lt_min hn (octets_length_pos x)
  obtain ⟨w, hsend, hsent⟩ := Wire.step_send h.wire hs hnil hpos
  have hfirst : ({ s with exchanges := s.exchanges ++ [x] } : Conversation).act write
      (.send x.octets) = .ok ⟨w, s.context, s.exchanges ++ [x]⟩ := by
    rw [act, hw, hsend]
    rfl
  have hopen : w.conn.isOpen = true := TcpConnection.isOpen_iff.mpr (Or.inl hsent.state)
  have hreads : w.conn.wantsRead = true :=
    hsent.wantsRead.trans (h.reads (TcpConnection.isOpen_iff.mpr (Or.inl hs)))
  have hanswers := answers_append_of_open hclosing x
  have haccepted : w.accepted = answers (s.exchanges ++ [x]) := by
    rw [hsent.accepted, h.accepted, hanswers]
  -- everything before this answer has been handed over
  have hbefore : (answers s.exchanges).flatten = s.wire.handed := by
    have hcons := h.wire.conserved
    rw [hnil, List.append_nil, h.accepted] at hcons
    exact hcons.symm
  have hhanded : s.wire.handed <+: w.handed := by
    rw [hsent.handed]
    exact List.prefix_append _ _
  have hwhole : (answers (s.exchanges ++ [x])).dropLast.flatten <+: w.handed := by
    rw [hanswers, List.dropLast_concat, hbefore]
    exact hhanded
  have hshut : w.shutdowns = [] := by
    rw [hsent.shutdowns, h.shut, hclosing]
    rfl
  have hfull : write x.octets = .wrote x.octets.length → w.conn.pending = [] := by
    intro hall
    rw [hw, WriteResult.wrote.injEq] at hall
    rw [hsent.pending, hall, List.drop_length]
  cases hx : x.closes with
  | false =>
    have hclosing' : closing (s.exchanges ++ [x]) = false := by
      rw [closing_append, hclosing, hx]
      rfl
    refine ⟨⟨w, s.context, s.exchanges ++ [x]⟩, ?_, ⟨⟨hsent.inv, haccepted, hwhole, fun hc => ?_,
      fun _ => hclosing', fun hc => ?_, fun _ => hreads, fun hc => ?_, ?_⟩, hopen, rfl, rfl,
      hhanded, hsent.inputBuffer, fun _ => hfull⟩⟩
    · rw [answer, Exchange.effects, List.foldlM_cons, hfirst, hx]
      rfl
    · exact absurd (hsent.state.symm.trans hc) (by decide)
    · exact absurd (hsent.state.symm.trans hc) (by decide)
    · exact absurd (hopen.symm.trans hc) (by decide)
    · rw [hclosing']
      exact hshut
  | true =>
    have hclosing' : closing (s.exchanges ++ [x]) = true := by
      rw [closing_append, hx, Bool.or_true]
    have hshutdown := Wire.step_shutdown hsent.inv hsent.state hreads
    refine ⟨⟨{ w with
        conn := { w.conn with state := .kDisconnecting }
        shutdowns := w.shutdowns ++ [⟨w.conn.pending, w.handed, w.accepted⟩] },
      s.context, s.exchanges ++ [x]⟩, ?_, ⟨⟨⟨hsent.inv.conn.disconnecting hopen,
        hsent.inv.conserved⟩, haccepted, hwhole, fun hc => (by cases hc),
        fun hc => (by cases hc), fun _ => hclosing', fun _ => hreads, fun hc => (by cases hc),
        ?_⟩, rfl, rfl, rfl, hhanded, hsent.inputBuffer, fun _ => hfull⟩⟩
    · rw [answer, Exchange.effects, List.foldlM_cons, hfirst, hx, ok_bind, if_pos rfl,
        List.foldlM_cons, act, hshutdown]
      rfl
    · rw [hclosing', if_pos rfl, hshut, ← haccepted]
      rfl

/-- **An answer** is stuck, and the process ends, or it leaves the conversation in order. -/
lemma answer_cases {s : Conversation} (h : Outward s.wire s.exchanges)
    (ho : s.wire.conn.isOpen = true) (write : Bytes → WriteResult) (x : Exchange) :
    s.Stuck write x ∧ s.answer write x = .error (.assertion .sendInLoop) ∨
      ¬ s.Stuck write x ∧ ∃ t, s.answer write x = .ok t ∧ s.Answered t write x := by
  rcases TcpConnection.isOpen_iff.mp ho with hs | hs
  · by_cases hok : s.wire.conn.pending = [] ∧ ∃ n, write x.octets = .wrote n ∧ 0 < n
    · obtain ⟨hnil, n, hw, hn⟩ := hok
      exact Or.inr ⟨fun hstuck => hstuck.2 ⟨hnil, n, hw, hn⟩, answer_sent h hs hnil hw hn⟩
    · refine Or.inl ⟨⟨hs, hok⟩, ?_⟩
      have hfails : s.wire.step (.send true x.octets (write x.octets)) = _ :=
        Wire.step_send_fails h.wire hs fun hsome => hok ⟨hsome.1, hsome.2.imp fun n hn =>
          ⟨hn.1, lt_of_lt_of_le hn.2 (Nat.min_le_left _ _)⟩⟩
      rw [answer, Exchange.effects, List.foldlM_cons, act, hfails]
      rfl
  · refine Or.inr ⟨fun hstuck => ?_, answer_dropped h hs write x⟩
    exact absurd (hs.symm.trans hstuck.1) (by decide)

/-! ## A call of `onMessage` -/

/-- The exchange that a parse comes to, if it comes to one. -/
def due (httpCallback : HttpRequest → HttpResponse → HttpResponse)
    (o : Outcome Byte HttpContext) : Option Exchange :=
  match o.ending with
  | .waits => none
  | .stopped => some (.served o.state.request_ (respond httpCallback o.state.request_))
  | .refused => some .refused

/-- The context it leaves. -/
def contextAfter (o : Outcome Byte HttpContext) : HttpContext :=
  match o.ending with
  | .waits => o.state
  | .stopped => HttpContext.ctor
  | .refused => o.state

/-- A refused line is refused again, or sets the method a second time. -/
lemma processRequestLine_again {r r' : HttpRequest} {line : Bytes}
    (h : r.processRequestLine line = .ok (r', false)) (r'' : HttpRequest) :
    r'.processRequestLine line ≠ .ok (r'', true) := by
  unfold HttpRequest.processRequestLine at h ⊢
  rcases hcut : cut SP line with ⟨method, _ | rest⟩
  · simp
  · rw [hcut] at h
    by_cases hm : r.method_ = .kInvalid
    · simp only [HttpRequest.setMethod_fresh hm, ok_bind, decide_eq_true_eq] at h
      by_cases hknown : HttpRequest.methodOf method = .kInvalid
      · rw [if_neg (not_not.mpr hknown)] at h
        cases h
        have hfresh : ({ r with method_ := HttpRequest.methodOf method } : HttpRequest).method_ =
            .kInvalid := hknown
        dsimp only
        rw [HttpRequest.setMethod_fresh hfresh, ok_bind, if_neg (by simpa using hknown)]
        simp
      · rw [if_pos hknown] at h
        have hmethod : r'.method_ = HttpRequest.methodOf method := by
          have hfirst : (({ r with method_ := HttpRequest.methodOf method } :
              HttpRequest).processRest rest).1 = r' := congrArg Prod.fst (Except.ok.inj h)
          rw [← hfirst, HttpRequest.processRest_method]
        have htwice : r'.method_ ≠ .kInvalid := by
          rw [hmethod]
          exact hknown
        simp [HttpRequest.setMethod_twice htwice]
    · simp [HttpRequest.setMethod_twice hm] at h

/-- A parse that begins with such a line is refused, or fails. -/
lemma Refusing.parse {c : HttpContext} {l : Bytes} (h : Refusing c l) (more : Bytes)
    {t : Timestamp} {o : Outcome Byte HttpContext}
    (hrun : (requestParser t).run c (l ++ more) = .ok o) :
    o.ending = .refused ∧ Refusing o.state o.rest := by
  obtain ⟨hst, n, hn, hno⟩ := h
  have hn' := search_append_of_some more (by decide) hn
  have hle := (search_some_le hn).resolve_right (by decide)
  have htake : (l ++ more).take n = l.take n := List.take_append_of_le_length (by omega)
  have hline := LineParser.nextLine_of_search (requestParser t) hn'
  rw [htake] at hline
  rcases hproc : c.request_.processRequestLine (l.take n) with e | ⟨r, _ | _⟩
  · rw [LineParser.run_error _ hline (line_fails hst hproc)] at hrun
    cases hrun
  · rw [LineParser.run_refuses _ hline (line_refuses hst hproc)] at hrun
    cases hrun
    refine ⟨rfl, hst, n, hn', ?_⟩
    rw [htake]
    exact processRequestLine_again hproc
  · exact absurd hproc (hno r)

/-- A parse that is refused leaves such a line. -/
lemma refusing_of_refused {c : HttpContext} (hc : c.Expects) {l : Bytes} {t : Timestamp}
    {o : Outcome Byte HttpContext} (hrun : (requestParser t).run c l = .ok o)
    (hending : o.ending = .refused) : Refusing o.state o.rest := by
  rcases hc with hc | hc
  · rcases hline : (requestParser t).nextLine l with _ | ⟨u, v⟩
    · rw [LineParser.run_none _ c hline] at hrun
      cases hrun
      cases hending
    · obtain ⟨n, hn, rfl, rfl⟩ := LineParser.search_of_nextLine _ hline
      rcases hproc : c.request_.processRequestLine (l.take n) with e | ⟨r, _ | _⟩
      · rw [LineParser.run_error _ hline (line_fails hc hproc)] at hrun
        cases hrun
      · rw [LineParser.run_refuses _ hline (line_refuses hc hproc)] at hrun
        cases hrun
        exact ⟨hc, n, hn, processRequestLine_again hproc⟩
      · obtain ⟨o', hok, hnot, -⟩ := HttpSession.parse_headers_ok (t := t)
          (c := ⟨.kExpectHeaders, r.setReceiveTime t⟩) rfl
          (l.drop (n + (requestParser t).mark.length))
        rw [LineParser.run_goesOn _ hline (line_accepts hc hproc), hok] at hrun
        cases hrun
        exact absurd hending hnot
  · obtain ⟨o', hok, hnot, -⟩ := HttpSession.parse_headers_ok (t := t) hc l
    rw [hok] at hrun
    cases hrun
    exact absurd hending hnot

/-- The parser behind a parse, with the exchange that it comes to. -/
lemma Inward.parsed {c : HttpContext} {l more : Bytes} {xs : List Exchange} (h : Inward c l xs)
    {t : Timestamp} {o : Outcome Byte HttpContext}
    (hrun : (requestParser t).run c (l ++ more) = .ok o)
    (httpCallback : HttpRequest → HttpResponse → HttpResponse) :
    Inward (contextAfter o) o.rest (xs ++ (due httpCallback o).toList) := by
  have hends := HttpSession.ends_in (t := t) h.expects (l ++ more)
  rw [hrun] at hends
  by_cases hmem : .refused ∈ xs
  · obtain ⟨hending, hagain⟩ := (h.refusing hmem).parse more hrun
    rcases o with ⟨_ | _ | _, d, rest⟩
    · cases hending
    · cases hending
    · refine ⟨hends, fun _ => hagain, ?_⟩
      rw [List.pairwise_append]
      refine ⟨h.refusals, List.pairwise_singleton _ _, fun x _ y hy _ => ?_⟩
      exact List.mem_singleton.mp hy
  · rcases o with ⟨_ | _ | _, d, rest⟩
    · refine ⟨hends, fun hr => ?_, ?_⟩
      · rw [due, Option.toList_none, List.append_nil] at hr
        exact absurd hr hmem
      · rw [due, Option.toList_none, List.append_nil]
        exact h.refusals
    · refine ⟨ctor_expects, fun hr => ?_, ?_⟩
      · rcases List.mem_append.mp hr with hr | hr
        · exact absurd hr hmem
        · cases List.mem_singleton.mp hr
      · rw [List.pairwise_append]
        exact ⟨h.refusals, List.pairwise_singleton _ _,
          fun x hx y _ hr => absurd (hr ▸ hx) hmem⟩
    · refine ⟨hends, fun _ => refusing_of_refused h.expects hrun rfl, ?_⟩
      rw [List.pairwise_append]
      exact ⟨h.refusals, List.pairwise_singleton _ _, fun x hx y _ hr => absurd (hr ▸ hx) hmem⟩

lemma onRequest_eq (httpCallback : HttpRequest → HttpResponse → HttpResponse)
    (request : HttpRequest) :
    onRequest httpCallback request =
      .ok (Exchange.served request (respond httpCallback request)).effects := by
  obtain ⟨b, hb, -, hread⟩ :=
    puts_text (respond httpCallback request) _ (Buffer.ofInitialSize_wf Buffer.kInitialSize)
  rw [Buffer.readable_ofInitialSize, List.nil_append] at hread
  have happend : (httpCallback request (HttpResponse.ctor (closes request))).appendToBuffer
      (Buffer.ofInitialSize Buffer.kInitialSize) = .ok b := hb
  simp only [onRequest, happend, ok_bind, hread]
  rfl

/-- The conversation behind a parse, before anything is answered. -/
def parsed (s : Conversation) (o : Outcome Byte HttpContext) (b : Buffer) : Conversation :=
  { s with wire := setInput s.wire b, context := contextAfter o }

/-- **A call** is a parse of the octets that are there, and an answer if it comes to one. -/
lemma onMessage_refines {s : Conversation} (hc : s.context.Expects)
    (hb : s.wire.conn.inputBuffer.WF) (t : Timestamp)
    (httpCallback : HttpRequest → HttpResponse → HttpResponse) (write : Bytes → WriteResult) :
    (∃ e, (requestParser t).run s.context s.wire.conn.inputBuffer.readable = .error e ∧
        s.onMessage t httpCallback write = .error e ∧ e = .assertion .setMethod) ∨
      ∃ o b, (requestParser t).run s.context s.wire.conn.inputBuffer.readable = .ok o ∧ b.WF ∧
        b.readable = o.rest ∧ s.onMessage t httpCallback write =
          match due httpCallback o with
          | none => .ok (s.parsed o b)
          | some x => (s.parsed o b).answer write x := by
  have hends := HttpSession.ends_in (t := t) hc s.wire.conn.inputBuffer.readable
  have hfails := (parseRequest_ends (t := t) hc hb).fails
  rcases parseRequest_refines (t := t) hc hb with
    ⟨e, hreq, hrun⟩ | ⟨b, o, hreq, hrun, hb, hrest⟩
  · rw [hreq] at hfails
    refine Or.inl ⟨e, hrun, ?_, hfails⟩
    simp only [onMessage, HttpServer.onMessage, hreq, error_bind]
  · refine Or.inr ⟨o, b, hrun, hb, hrest, ?_⟩
    rw [hrun] at hends
    rcases o with ⟨_ | _ | _, c, rest⟩
    · have hgot : c.gotAll = false := HttpSession.not_gotAll_of_expects hends
      simp [onMessage, HttpServer.onMessage, hreq, hgot, due, parsed, contextAfter, pure,
        Except.pure]
    · have hgot : c.gotAll = true := decide_eq_true hends
      simp [onMessage, HttpServer.onMessage, hreq, hgot, due, parsed, contextAfter, perform,
        onRequest_eq, answer, reset, HttpContext.ctor]
    · have hgot : c.gotAll = false := HttpSession.not_gotAll_of_expects hends
      simp [onMessage, HttpServer.onMessage, hreq, hgot, due, parsed, contextAfter, perform,
        answer, Exchange.effects, Exchange.octets, Exchange.closes]

/-! ## Events -/

/-- What a call of `onMessage` has to parse when `data` is there to be read. -/
def arrived (s : Conversation) (data : Bytes) : Bytes :=
  s.wire.conn.inputBuffer.readable ++ data.take s.wire.conn.inputBuffer.readFdOffer

/-- A request line is expected for a request that has its method from a line that was refused, and
a line comes that has a space. -/
def MethodTwice (c : HttpContext) (l : Bytes) : Prop :=
  c.state_ = .kExpectRequestLine ∧ c.request_.method_ ≠ .kInvalid ∧
    ∃ n, search Buffer.kCRLF l = some n ∧ SP ∈ l.take n

lemma run_error_iff {t : Timestamp} {c : HttpContext} (hc : c.Expects) {l : Bytes} :
    (∃ e, (requestParser t).run c l = .error e) ↔ MethodTwice c l := by
  constructor
  · rintro ⟨e, hrun⟩
    rcases hc with hc | hc
    · rcases hline : (requestParser t).nextLine l with _ | ⟨u, v⟩
      · rw [LineParser.run_none _ c hline] at hrun
        cases hrun
      · obtain ⟨n, hn, rfl, rfl⟩ := LineParser.search_of_nextLine _ hline
        rcases hproc : c.request_.processRequestLine (l.take n) with e' | ⟨r, ok⟩
        · refine ⟨hc, ?_, n, hn, ?_⟩
          · intro hm
            obtain ⟨r, ok, hok, -⟩ := HttpRequest.processRequestLine_spec hm (l.take n)
            rw [hproc] at hok
            cases hok
          · unfold HttpRequest.processRequestLine at hproc
            split at hproc
            · cases hproc
            next method rest hcut =>
              rw [cut_eq_some hcut]
              exact List.mem_append_right _ List.mem_cons_self
        · cases ok with
          | true =>
            obtain ⟨o, hok, -⟩ := HttpSession.parse_headers_ok (t := t)
              (c := ⟨.kExpectHeaders, r.setReceiveTime t⟩) rfl
              (l.drop (n + (requestParser t).mark.length))
            rw [LineParser.run_goesOn _ hline (line_accepts hc hproc), hok] at hrun
            cases hrun
          | false =>
            rw [LineParser.run_refuses _ hline (line_refuses hc hproc)] at hrun
            cases hrun
    · obtain ⟨o, hok, -⟩ := HttpSession.parse_headers_ok (t := t) hc l
      rw [hok] at hrun
      cases hrun
  · rintro ⟨hst, hm, n, hn, hspace⟩
    have hline := LineParser.nextLine_of_search (requestParser t) hn
    refine ⟨.assertion .setMethod, LineParser.run_error _ hline (line_fails hst ?_)⟩
    unfold HttpRequest.processRequestLine
    rcases hcut : cut SP (l.take n) with ⟨w, _ | rest⟩
    · obtain ⟨-, hnot⟩ := cut_eq_none hcut
      exact absurd hspace hnot
    · simp only [HttpRequest.setMethod_twice hm, error_bind]

/-- A read that finds octets is a call of `onMessage`. -/
lemma handleRead_message {s : Conversation} (h : s.Inv) {data : Bytes} (hdata : data ≠ [])
    (t : Timestamp) (httpCallback : HttpRequest → HttpResponse → HttpResponse)
    (write : Bytes → WriteResult) :
    ∃ b, b.WF ∧ b.readable = s.arrived data ∧ s.handleRead (.got data) t httpCallback write =
      ({ s with wire := setInput s.wire b } : Conversation).onMessage t httpCallback write := by
  obtain ⟨b, hb, hreadable, hread⟩ :=
    TcpConnection.handleRead_message h.outward.wire.conn hdata
  refine ⟨b, hb, hreadable, ?_⟩
  have hstep : s.wire.conn.step (.handleRead (.got data)) =
      .ok ({ s.wire.conn with inputBuffer := b }, [.callback .message]) := hread
  have hrecord : s.wire.record (.handleRead (.got data)) { s.wire.conn with inputBuffer := b }
      [.callback .message] = setInput s.wire b :=
    Wire.record_quiet rfl rfl (by decide)
  rw [Conversation.handleRead, hstep, ok_bind]
  dsimp only
  rw [hrecord, if_pos (List.mem_singleton_self _)]

/-- No answer is stuck that this event makes due, no method is set twice, and a connection that is
destroyed is not half closed, and is known to the poller. -/
def Survives (s : Conversation) : ConversationInput → Prop
  | .handleRead (.got data) t httpCallback write =>
      s.wire.conn.isOpen = true → data ≠ [] →
        ¬ MethodTwice s.context (s.arrived data) ∧
          ∀ o x, (requestParser t).run s.context (s.arrived data) = .ok o →
            due httpCallback o = some x → ¬ s.Stuck write x
  | .connectionDestroy =>
      s.wire.conn.state = .kConnected ∨
        s.wire.conn.isOpen = false ∧ s.wire.conn.connChannel.mapped = true
  | _ => True

/-- The failures there are. -/
def Stops (e : Fault) : Prop :=
  e = .assertion .sendInLoop ∨ e = .assertion .setMethod ∨ e = .assertion .channelRemove ∨
    e = .assertion .removeChannel

/-- Nothing that was answered or handed over is taken back. -/
def Extends (s t : Conversation) : Prop :=
  s.exchanges <+: t.exchanges ∧ s.wire.handed <+: t.wire.handed

/-- What an event comes to, if `P` is the condition under which it comes to no failure. -/
def Comes (s : Conversation) (P : Prop) (r : Except Fault Conversation) : Prop :=
  (P ∧ ∃ t, r = .ok t ∧ t.Inv ∧ s.Extends t) ∨ (¬ P ∧ ∃ e, r = .error e ∧ Stops e)

lemma comes_same {s : Conversation} (h : s.Inv) {P : Prop} (hP : P) : s.Comes P (.ok s) :=
  Or.inl ⟨hP, s, rfl, h, List.prefix_rfl, List.prefix_rfl⟩

/-- The exchanges and what has been handed over stay as they are. -/
lemma comes_conn {s : Conversation} {P : Prop} (hP : P) {c : TcpConnection}
    {context : HttpContext} (hout : Outward { s.wire with conn := c } s.exchanges)
    (hin : Inward context c.inputBuffer.readable s.exchanges) :
    s.Comes P (.ok { s with wire := { s.wire with conn := c }, context := context }) :=
  Or.inl ⟨hP, _, rfl, ⟨hout, hin⟩, List.prefix_rfl, List.prefix_rfl⟩

/-- **A message** is parsed, and answered if it is complete. -/
lemma message_comes {s : Conversation} (h : s.Inv) (ho : s.wire.conn.isOpen = true)
    {data : Bytes} (hdata : data ≠ []) (t : Timestamp)
    (httpCallback : HttpRequest → HttpResponse → HttpResponse) (write : Bytes → WriteResult) :
    s.Comes (s.Survives (.handleRead (.got data) t httpCallback write))
      (s.handleRead (.got data) t httpCallback write) := by
  obtain ⟨b, hb, hread, heq⟩ := handleRead_message h hdata t httpCallback write
  have hrefines := onMessage_refines (s := { s with wire := setInput s.wire b }) h.inward.expects
    hb t httpCallback write
  rw [heq]
  rcases hrefines with ⟨e, hfail, herr, rfl⟩ | ⟨o, b', hok, hb', hrest, hmessage⟩
  · refine Or.inr ⟨fun hsurvives => ?_, _, herr, Or.inr (Or.inl rfl)⟩
    have hfail' : (requestParser t).run s.context (s.arrived data) = _ := hread ▸ hfail
    exact (hsurvives ho hdata).1 ((run_error_iff h.inward.expects).mp ⟨_, hfail'⟩)
  · have hok' : (requestParser t).run s.context (s.arrived data) = .ok o := hread ▸ hok
    have houtward : Outward (setInput (setInput s.wire b) b') s.exchanges :=
      (h.outward.setInput hb).setInput hb'
    have hinward := h.inward.parsed hok' httpCallback
    have htwice : ¬ MethodTwice s.context (s.arrived data) := fun htwice => by
      obtain ⟨e, he⟩ := (run_error_iff (t := t) h.inward.expects).mpr htwice
      rw [hok'] at he
      cases he
    have hdue (o' : Outcome Byte HttpContext)
        (ho' : (requestParser t).run s.context (s.arrived data) = .ok o') : o' = o :=
      Except.ok.inj (ho'.symm.trans hok')
    rw [hmessage]
    rcases hx : due httpCallback o with _ | x
    · rw [hx, Option.toList_none, List.append_nil, ← hrest] at hinward
      refine Or.inl ⟨fun _ _ => ⟨htwice, fun o' x ho' hx' => ?_⟩, _, rfl, ⟨houtward, hinward⟩,
        List.prefix_rfl, List.prefix_rfl⟩
      rw [hdue o' ho', hx] at hx'
      cases hx'
    · rw [hx, Option.toList_some] at hinward
      rcases answer_cases (s := ({ s with wire := setInput s.wire b } : Conversation).parsed o b')
        houtward ho write x with ⟨hstuck, hfails⟩ | ⟨hfree, u, hanswer, hleft⟩
      · refine Or.inr ⟨fun hsurvives => ?_, _, hfails, Or.inl rfl⟩
        exact (hsurvives ho hdata).2 o x hok' hx hstuck
      · refine Or.inl ⟨fun _ _ => ⟨htwice, fun o' x' ho' hx' => ?_⟩, u, hanswer,
          ⟨hleft.outward, ?_⟩, ?_, hleft.handed⟩
        · rw [hdue o' ho', hx] at hx'
          cases hx'
          exact hfree
        · rw [hleft.context, hleft.inputBuffer, hleft.exchanges]
          have hrest' : (setInput (setInput s.wire b) b').conn.inputBuffer.readable = o.rest :=
            hrest
          exact hrest' ▸ hinward
        · rw [hleft.exchanges]
          exact List.prefix_append _ _

lemma handleRead_comes {s : Conversation} (h : s.Inv) (ho : s.wire.conn.isOpen = true)
    (r : ReadResult) (t : Timestamp) (httpCallback : HttpRequest → HttpResponse → HttpResponse)
    (write : Bytes → WriteResult) :
    s.Comes (s.Survives (.handleRead r t httpCallback write))
      (s.handleRead r t httpCallback write) := by
  rcases r with (_ | ⟨x, xs⟩) | e
  · obtain ⟨c, hread, hinv, hst, hev, hpend, hinput⟩ := Wire.handleRead_close h.outward.wire ho
    have hstep : s.wire.conn.step (.handleRead (.got [])) =
        .ok (c, [.callback .down, .closeCallback]) := hread
    have hrecord : s.wire.record (.handleRead (.got [])) c [.callback .down, .closeCallback] =
        { s.wire with conn := c } := Wire.record_quiet rfl rfl (by decide)
    rw [Conversation.handleRead, hstep, ok_bind]
    dsimp only
    rw [hrecord, if_neg (by decide)]
    refine comes_conn (fun _ hne => absurd rfl hne) (h.outward.closed hinv
      (TcpConnection.isOpen_eq_false_of_closed hst) (fun hc => ?_) hev hpend) ?_
    · exact absurd (hst.symm.trans hc) (by decide)
    · rw [hinput]
      exact h.inward
  · exact message_comes h ho (List.cons_ne_nil x xs) t httpCallback write
  · have hrecord : s.wire.record (.handleRead (.failed e)) s.wire.conn [] = s.wire :=
      Wire.record_quiet rfl rfl List.not_mem_nil
    have hstep : s.wire.conn.step (.handleRead (.failed e)) = .ok (s.wire.conn, []) := rfl
    rw [Conversation.handleRead, hstep, ok_bind]
    dsimp only
    rw [hrecord, if_neg List.not_mem_nil]
    exact comes_same h trivial

lemma destroy_comes {s : Conversation} (h : s.Inv) :
    s.Comes (s.Survives .connectionDestroy) (s.step .connectionDestroy) := by
  have hbind : s.step .connectionDestroy =
      ((s.wire.step .connectionDestroy >>= (·.step .channelRemove)) >>=
        fun wire => .ok { s with wire := wire }) := by
    show (s.wire.step .connectionDestroy >>= fun wire => _) = _
    rw [bind_assoc]
  rw [hbind]
  by_cases hP : s.Survives .connectionDestroy
  · obtain ⟨c, hstep, hinv, hst, hev, hpend, hinput⟩ := Wire.step_destroy h.outward.wire
      (hP.imp_right fun hclosed => ⟨h.outward.silent hclosed.1, hclosed.2⟩)
    have hopen : c.isOpen = false ∧
        (c.state = .kConnecting → s.wire.conn.state = .kConnecting) := by
      rcases hP with hs | ⟨hclosed, -⟩
      · rw [if_pos hs] at hst
        refine ⟨TcpConnection.isOpen_eq_false_of_closed hst, fun hc => ?_⟩
        exact absurd (hst.symm.trans hc) (by decide)
      · have hne : s.wire.conn.state ≠ .kConnected := fun hs => by
          rw [TcpConnection.isOpen_iff.mpr (Or.inl hs)] at hclosed
          cases hclosed
        rw [if_neg hne] at hst
        refine ⟨?_, fun hc => hst.symm.trans hc⟩
        unfold TcpConnection.isOpen at hclosed ⊢
        rw [hst]
        exact hclosed
    rw [hstep, ok_bind]
    refine comes_conn hP (h.outward.closed hinv hopen.1 hopen.2 hev hpend) ?_
    rw [hinput]
    exact h.inward
  · have hne : s.wire.conn.state ≠ .kConnected := fun hs => hP (Or.inl hs)
    have hch : ¬ (s.wire.conn.connChannel.events = kNoneEvent ∧
        s.wire.conn.connChannel.mapped = true) := by
      rintro ⟨hev, hmapped⟩
      refine hP (Or.inr ⟨?_, hmapped⟩)
      rw [Bool.eq_false_iff]
      intro ho
      have hreads := h.outward.reads ho
      unfold TcpConnection.wantsRead at hreads
      rw [hev] at hreads
      exact absurd hreads (by decide)
    obtain ⟨e, he, hstops⟩ := Wire.step_destroy_fails hne hch
    rw [he, error_bind]
    exact Or.inr ⟨hP, e, rfl, Or.inr (Or.inr hstops)⟩

/-- **What an event comes to.** -/
theorem step_comes {s : Conversation} (h : s.Inv) (i : ConversationInput) :
    s.Comes (s.Survives i) (s.step i) := by
  cases i with
  | connectionEstablished =>
    unfold step
    dsimp only
    split
    next hs =>
      obtain ⟨c, hstep, hinv, hst, hreads, hpend, -⟩ :=
        Wire.step_connectionEstablished h.outward.wire hs
      have hnone := h.outward.connecting hs
      rw [hstep]
      refine comes_conn trivial (h.outward.opened hs hinv hst hreads hpend)
        ⟨ctor_expects, fun hr => ?_, h.inward.refusals⟩
      rw [hnone] at hr
      exact absurd hr List.not_mem_nil
    next => exact comes_same h trivial
  | handleRead r t httpCallback write =>
    unfold step
    dsimp only
    split
    next ho => exact handleRead_comes h ho r t httpCallback write
    next hclosed =>
      refine comes_same h ?_
      rcases r with _ | e
      · exact fun ho => absurd ho hclosed
      · trivial
  | handleWrite w =>
    unfold step
    dsimp only
    split
    next ho =>
      rw [Wire.step_handleWrite_idle h.outward.wire (h.outward.reads ho) w]
      exact comes_same h trivial
    next => exact comes_same h trivial
  | handleError =>
    unfold step
    dsimp only
    rw [Wire.step_handleError]
    exact comes_same h trivial
  | connectionDestroy => exact destroy_comes h

/-! ## Runs -/

/-- The conversation is faithful throughout, nothing is taken back, and the failures are those. -/
def Safe : RunSpec Conversation Fault where
  good := Faithful
  move := Extends
  stop := Stops

/-- The same, and there is no failure. -/
def Unfailing : RunSpec Conversation Fault where
  good := Faithful
  move := Extends
  stop _ := False

/-- **A conversation**, in every run of its events: the answers go out in the order of the
requests and up to the first that closes, each but the last of them whole; `SHUT_WR` comes once,
behind the last; and nothing is served behind a refusal. -/
theorem conversation_answers (is : List ConversationInput) : machine.Meets Safe start is := by
  refine machine.meets_of_sound (P := fun _ _ => True) (I := Inv) (fun _ h => h.faithful) ?_
    start_inv (machine.along_of_forall (fun _ _ => trivial) _ _)
  intro s i h _
  change Safe.Sound _ s (s.step i)
  rcases step_comes h i with ⟨-, t, ht, hinv, hext⟩ | ⟨-, e, he, hstops⟩
  · rw [ht]
    exact ⟨hinv, hext⟩
  · rw [he]
    exact hstops

/-- **Survival.**  The server of a connection gets through a run exactly if each event leaves no
answer stuck, no request line comes to a request that has its method, and a connection that is
destroyed is not half closed. -/
theorem conversation_survives_iff (is : List ConversationInput) :
    machine.Meets Unfailing start is ↔ machine.Along Survives start is := by
  refine machine.meets_iff_of_sound (I := Inv) (fun _ h => h.faithful) ?_ ?_ start_inv
  · intro s i h hP
    change Unfailing.Sound _ s (s.step i)
    rcases step_comes h i with ⟨-, t, ht, hinv, hext⟩ | ⟨hnot, -⟩
    · rw [ht]
      exact ⟨hinv, hext⟩
    · exact absurd hP hnot
  · intro s i h hP
    change Unfailing.Seen s (s.step i)
    rcases step_comes h i with ⟨hsurvives, -⟩ | ⟨-, e, he, -⟩
    · exact absurd hsurvives hP
    · rw [he]
      exact not_false

/-- A callback that keeps the connection. -/
def emptyOk (_request : HttpRequest) (response : HttpResponse) : HttpResponse :=
  (response.setStatusCode .k200Ok).setCloseConnection false

/-- The kernel takes one octet of the first answer, and the second request ends the process. -/
example : machine.run start
    [.connectionEstablished,
      .handleRead (.got HttpSession.getRoot.encode) 0 emptyOk fun _ => .wrote 1,
      .handleRead (.got HttpSession.getRoot.encode) 0 emptyOk fun _ => .wrote 1] =
        .error (.assertion .sendInLoop) := by
  decide +kernel

end Conversation

end Firey
