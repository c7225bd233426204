import Firey.Framework.Framing
import Firey.Http.Service

/-!
# What a client reads

The repository has no client.  What one has to go by is the form of the answers: a status line,
header lines, and a body whose length is that of `Content-Length`, if there is one, and which else
goes on until the end of the stream.  `HttpClient.framing` reads answers of the first kind from what
has arrived, with the repository's own header lines, and `atEnd` one of the second kind, when the
stream has ended.

Where responses are `Sendable` the answers of a conversation are told apart by that alone
(`replies_read`).  What has been handed over when the kernel has taken all of it is read as the
responses of the callback, in order; when something is pending, all but the last are, and nothing
else.  `appendToBuffer` leaves `Content-Length` out of a response that closes, so the end of the
stream is the only end of its body; and `shutdown` comes at once, whether or not octets are pending,
so the last answer is read as it was given exactly if none are.
-/

set_option autoImplicit false

namespace Firey

open HttpResponse

/-- A status line and header lines, as they are read. -/
structure ReplyHead where
  statusCode : ℕ
  statusMessage : Bytes
  headers : Std.ExtTreeMap Bytes Bytes

/-- An answer, as it is read. -/
structure Reply where
  head : ReplyHead
  body : Bytes

namespace HttpClient

open HttpContext HttpRequest

/-! ## Reading -/

/-- A number in decimal. -/
def number (text : Bytes) : ℕ := text.foldl (fun n c => 10 * n + (c.toNat - 48)) 0

/-- The code and the message: what is behind the first space, and behind the second. -/
def statusOf (line : Bytes) : Option (ℕ × Bytes) := do
  let behind ← (cut SP line).2
  let message ← (cut SP behind).2
  some (number (cut SP behind).1, message)

/-- The header lines, and the octets behind the empty line. -/
def headersOf (l : Bytes) : Option (Std.ExtTreeMap Bytes Bytes × Bytes) :=
  match (requestParser 0).run ⟨.kExpectHeaders, HttpRequest.ctor⟩ l with
  | .ok ⟨.stopped, c, rest⟩ => some (c.request_.headers_, rest)
  | _ => none

def headOf (l : Bytes) : Option (ReplyHead × Bytes) := do
  let (line, behind) ← (requestParser 0).nextLine l
  let (code, message) ← statusOf line
  let (headers, rest) ← headersOf behind
  some (⟨code, message, headers⟩, rest)

/-- An answer with the length of its body. -/
def next (l : Bytes) : Option (Reply × Bytes) := do
  let (head, rest) ← headOf l
  let text ← head.headers[contentLength]?
  if number text ≤ rest.length then
    some (⟨head, rest.take (number text)⟩, rest.drop (number text))
  else none

/-- An answer without, when nothing is going to come any more. -/
def atEnd (l : Bytes) : Option Reply := do
  let (head, rest) ← headOf l
  if contentLength ∈ head.headers then none else some ⟨head, rest⟩

/-! ## Octets that come later -/

lemma headersOf_stable {l rest : Bytes} {headers : Std.ExtTreeMap Bytes Bytes}
    (h : headersOf l = some (headers, rest)) (more : Bytes) :
    headersOf (l ++ more) = some (headers, rest ++ more) := by
  unfold headersOf at h ⊢
  split at h
  next c rest' hrun =>
    obtain ⟨rfl, rfl⟩ := Prod.mk.inj (Option.some.inj h)
    rw [LineParser.run_append_of_stopped _ hrun]
  next => cases h

lemma headersOf_length {l rest : Bytes} {headers : Std.ExtTreeMap Bytes Bytes}
    (h : headersOf l = some (headers, rest)) : rest.length ≤ l.length := by
  unfold headersOf at h
  split at h
  next c rest' hrun =>
    obtain ⟨-, rfl⟩ := Prod.mk.inj (Option.some.inj h)
    exact LineParser.length_rest_le _ hrun
  next => cases h

/-- What a head is made of. -/
lemma headOf_eq_some {l rest : Bytes} {head : ReplyHead} (h : headOf l = some (head, rest)) :
    ∃ line behind, (requestParser 0).nextLine l = some (line, behind) ∧
      statusOf line = some (head.statusCode, head.statusMessage) ∧
      headersOf behind = some (head.headers, rest) := by
  obtain ⟨⟨line, behind⟩, hline, h⟩ := Option.bind_eq_some_iff.mp h
  obtain ⟨⟨code, message⟩, hstatus, h⟩ := Option.bind_eq_some_iff.mp h
  obtain ⟨⟨headers, rest'⟩, hheaders, h⟩ := Option.bind_eq_some_iff.mp h
  obtain ⟨rfl, rfl⟩ := Prod.mk.inj (Option.some.inj h)
  exact ⟨line, behind, hline, hstatus, hheaders⟩

lemma headOf_of {l line behind rest message : Bytes} {code : ℕ}
    {headers : Std.ExtTreeMap Bytes Bytes}
    (hline : (requestParser 0).nextLine l = some (line, behind))
    (hstatus : statusOf line = some (code, message))
    (hheaders : headersOf behind = some (headers, rest)) :
    headOf l = some (⟨code, message, headers⟩, rest) := by
  simp only [headOf, hline, hstatus, hheaders, Option.bind_eq_bind, Option.bind_some]

lemma headOf_stable {l rest : Bytes} {head : ReplyHead} (h : headOf l = some (head, rest))
    (more : Bytes) : headOf (l ++ more) = some (head, rest ++ more) := by
  obtain ⟨line, behind, hline, hstatus, hheaders⟩ := headOf_eq_some h
  exact headOf_of (LineParser.nextLine_append _ hline more) hstatus
    (headersOf_stable hheaders more)

lemma headOf_length {l rest : Bytes} {head : ReplyHead} (h : headOf l = some (head, rest)) :
    rest.length < l.length := by
  obtain ⟨line, behind, hline, -, hheaders⟩ := headOf_eq_some h
  exact (headersOf_length hheaders).trans_lt (LineParser.length_lt_of_nextLine _ hline)

lemma next_eq_some {l rest : Bytes} {reply : Reply} (h : next l = some (reply, rest)) :
    ∃ behind text, headOf l = some (reply.head, behind) ∧
      reply.head.headers[contentLength]? = some text ∧ number text ≤ behind.length ∧
      reply.body = behind.take (number text) ∧ rest = behind.drop (number text) := by
  obtain ⟨⟨head, behind⟩, hhead, h⟩ := Option.bind_eq_some_iff.mp h
  obtain ⟨text, htext, h⟩ := Option.bind_eq_some_iff.mp h
  split at h
  next hle =>
    obtain ⟨rfl, rfl⟩ := Prod.mk.inj (Option.some.inj h)
    exact ⟨behind, text, hhead, htext, hle, rfl, rfl⟩
  next => cases h

lemma next_of {l behind text : Bytes} {head : ReplyHead} (hhead : headOf l = some (head, behind))
    (htext : head.headers[contentLength]? = some text) (hle : number text ≤ behind.length) :
    next l = some (⟨head, behind.take (number text)⟩, behind.drop (number text)) := by
  simp only [next, hhead, htext, Option.bind_eq_bind, Option.bind_some, if_pos hle]

/-- Answers with the length of their bodies in a stream. -/
def framing : Framing Byte Reply where
  next := next
  takes := by
    intro l reply rest h
    obtain ⟨behind, text, hhead, -, -, -, rfl⟩ := next_eq_some h
    rw [List.length_drop]
    exact (Nat.sub_le _ _).trans_lt (headOf_length hhead)
  stable := by
    intro l reply rest h more
    obtain ⟨behind, text, hhead, htext, hle, hbody, rfl⟩ := next_eq_some h
    have hle' : number text ≤ (behind ++ more).length := by
      rw [List.length_append]
      exact hle.trans (Nat.le_add_right _ _)
    have hnext := next_of (headOf_stable hhead more) htext hle'
    rw [List.take_append_of_le_length hle, List.drop_append_of_le_length hle, ← hbody] at hnext
    exact hnext

/-- The body that is read at the end grows with what has come until then. -/
lemma atEnd_append {l : Bytes} {reply : Reply} (h : atEnd l = some reply) (more : Bytes) :
    atEnd (l ++ more) = some { reply with body := reply.body ++ more } := by
  obtain ⟨⟨head, rest⟩, hhead, h⟩ := Option.bind_eq_some_iff.mp h
  dsimp only at h
  split at h
  next => cases h
  next hnone =>
    cases h
    rw [atEnd, headOf_stable hhead more, Option.bind_eq_bind, Option.bind_some]
    exact if_neg hnone

/-! ## Responses -/

lemma number_unsignedText (n : ℕ) : number (unsignedText n) = n := by
  by_cases hn : n = 0
  · rw [hn]
    rfl
  have hdigit : ∀ d < 10, (decimalDigit d).toNat - 48 = d := by decide
  -- the digits are those of `n`, the last one first
  rw [unsignedText_eq, numeral_of_ne_zero hn, number, List.foldl_reverse, List.foldr_map]
  conv_rhs => rw [← Nat.ofDigits_digits 10 n, Nat.ofDigits_eq_foldr]
  refine List.foldr_ext _ _ _ fun d hd m => ?_
  rw [hdigit d (Nat.digits_lt_base (by decide) hd), Nat.cast_id, Nat.add_comm]

lemma statusOf_statusLine (r : HttpResponse) :
    statusOf r.statusLine = some ((r.statusCode_ : ℕ), r.statusMessage_) := by
  have hversion : version = octets ['H', 'T', 'T', 'P', '/', '1', '.', '1'] ++ [SP] := rfl
  have hline : r.statusLine = octets ['H', 'T', 'T', 'P', '/', '1', '.', '1'] ++
      SP :: (unsignedText r.statusCode_ ++ SP :: r.statusMessage_) := by
    rw [statusLine, hversion]
    simp only [List.append_assoc, List.cons_append, List.nil_append]
  have hcode : cut SP (unsignedText r.statusCode_ ++ SP :: r.statusMessage_) =
      (unsignedText r.statusCode_, some r.statusMessage_) :=
    cut_append _ (not_mem_unsignedText (by decide))
  rw [hline, statusOf, cut_append _ (by decide +kernel)]
  simp only [hcode, Option.bind_eq_bind, Option.bind_some, number_unsignedText]

lemma headersOf_plain {hs : List (Bytes × Bytes)} (h : ∀ x ∈ hs, Plain x) (body : Bytes) :
    headersOf (WireRequest.encodeHeaders (hs.map headerLine) ++ body) =
      some ((∅ : Std.ExtTreeMap Bytes Bytes).insertMany hs, body) := by
  rw [headersOf, LineParser.run_append_of_stopped _ (run_plain h HttpRequest.ctor) body]
  rfl

/-- A response is read up to its body. -/
lemma headOf_text {r : HttpResponse} (h : r.Sendable) :
    headOf r.text = some (⟨r.statusCode_, r.statusMessage_, r.sentHeaders⟩, r.body_) := by
  have hheaders := headersOf_plain (fun x hx => h.plain hx) r.body_
  rw [h.insertMany_eq] at hheaders
  rw [text_eq h.body]
  exact headOf_of (WireRequest.nextLine_crlf h.statusLine_free _) (statusOf_statusLine r) hheaders

lemma headOf_badRequest : headOf HttpServer.badRequest = some
    (⟨400, octets ['B', 'a', 'd', ' ', 'R', 'e', 'q', 'u', 'e', 's', 't'], ∅⟩, []) := by
  have hplain : ∀ x ∈ ([] : List (Bytes × Bytes)), Plain x :=
    fun x hx => absurd hx List.not_mem_nil
  have hheaders := headersOf_plain hplain []
  have hline := WireRequest.nextLine_crlf (t := 0)
    (u := octets ['H', 'T', 'T', 'P', '/', '1', '.', '1', ' ', '4', '0', '0', ' ',
      'B', 'a', 'd', ' ', 'R', 'e', 'q', 'u', 'e', 's', 't']) (by decide +kernel) Buffer.kCRLF
  refine headOf_of hline (by decide +kernel) ?_
  rw [Std.ExtTreeMap.insertMany_nil] at hheaders
  exact hheaders

end HttpClient

namespace Exchange

open HttpClient

/-- What a client is to read. -/
def reply : Exchange → Reply
  | .refused =>
      ⟨⟨400, Firey.octets ['B', 'a', 'd', ' ', 'R', 'e', 'q', 'u', 'e', 's', 't'], ∅⟩, []⟩
  | .served _ r => ⟨⟨r.statusCode_, r.statusMessage_, r.sentHeaders⟩, r.body_⟩

/-- A response, if it is one, keeps to what can be sent. -/
def Sendable : Exchange → Prop
  | .refused => True
  | .served _ r => r.Sendable

variable {x : Exchange} (h : x.Sendable)

include h

lemma headOf_octets : headOf x.octets = some (x.reply.head, x.reply.body) := by
  cases x with
  | refused => exact headOf_badRequest
  | served request r => exact headOf_text h

lemma getElem?_contentLength : x.reply.head.headers[contentLength]? =
    if x.closes then none else some (unsignedText x.reply.body.length) := by
  cases x with
  | refused => exact Std.ExtTreeMap.getElem?_empty
  | served request r =>
    have hlen := HttpResponse.Sendable.getElem?_added h (.inr rfl)
    show r.sentHeaders[contentLength]? = if r.closeConnection_ then none else _
    unfold sentHeaders
    cases r.closeConnection_ with
    | true =>
      rw [if_pos rfl, if_pos rfl, Std.ExtTreeMap.getElem?_insert]
      rw [if_neg (by decide), hlen]
    | false =>
      rw [if_neg Bool.false_ne_true, if_neg Bool.false_ne_true, Std.ExtTreeMap.getElem?_insert,
        if_neg (by decide), Std.ExtTreeMap.getElem?_insert_self]
      rfl

/-- An answer that keeps the connection is a frame. -/
lemma frames_octets (hopen : x.closes = false) : framing.Frames x.octets x.reply := by
  have htext := getElem?_contentLength h
  rw [hopen, if_neg Bool.false_ne_true] at htext
  have hnext := next_of (headOf_octets h) htext (number_unsignedText _).le
  rw [number_unsignedText, List.take_length, List.drop_length] at hnext
  exact hnext

/-- One that closes is none, -/
lemma next_octets (hcloses : x.closes = true) : framing.next x.octets = none := by
  have hnone := getElem?_contentLength h
  rw [hcloses, if_pos rfl] at hnone
  show next x.octets = none
  simp only [next, headOf_octets h, hnone, Option.bind_eq_bind, Option.bind_some,
    Option.bind_none]

/-- and is read at the end of the stream. -/
lemma atEnd_octets (hcloses : x.closes = true) : atEnd x.octets = some x.reply := by
  have hnone := getElem?_contentLength h
  rw [hcloses, if_pos rfl] at hnone
  have hnot : contentLength ∉ x.reply.head.headers := fun hmem => by
    rw [Std.ExtTreeMap.mem_iff_isSome_getElem?, hnone] at hmem
    cases hmem
  simp only [atEnd, headOf_octets h, Option.bind_eq_bind, Option.bind_some, if_neg hnot]

/-- If it is cut, something else is read, or nothing. -/
lemma atEnd_part_iff (hcloses : x.closes = true) {p more : Bytes} (hp : p ++ more = x.octets) :
    atEnd p = some x.reply ↔ more = [] := by
  refine ⟨fun hpart => ?_, fun hnil => ?_⟩
  · have hwhole := atEnd_append hpart more
    rw [hp, atEnd_octets h hcloses] at hwhole
    have hbody := congrArg Reply.body (Option.some.inj hwhole)
    have hlen := congrArg List.length hbody
    rw [List.length_append] at hlen
    exact List.eq_nil_of_length_eq_zero (Nat.add_eq_left.mp hlen.symm)
  · rw [hnil, List.append_nil] at hp
    rw [hp]
    exact atEnd_octets h hcloses

omit h in
lemma answered_eq_nil_iff {xs : List Exchange} : answered xs = [] ↔ xs = [] := by
  cases xs with
  | nil => exact Iff.rfl
  | cons y ys => exact iff_of_false (List.cons_ne_nil _ _) (List.cons_ne_nil _ _)

omit h in
lemma answered_prefix (xs : List Exchange) : answered xs <+: xs := by
  induction xs with
  | nil => exact List.nil_prefix
  | cons y ys ih =>
    rw [answered, List.cons_prefix_cons]
    refine ⟨rfl, ?_⟩
    cases y.closes with
    | true => exact List.nil_prefix
    | false => exact ih

omit h in
/-- Only the last answer can be one that closes. -/
lemma answered_eq_concat {xs ys : List Exchange} (hxs : answered xs = ys ++ [x]) :
    (∀ y ∈ ys, y.closes = false) ∧ x.closes = xs.any closes := by
  induction xs generalizing ys with
  | nil => exact absurd hxs.symm (by simp [answered])
  | cons z xs ih =>
    rw [answered, List.cons_eq_append_iff] at hxs
    rcases hxs with ⟨rfl, hlast⟩ | ⟨ys, rfl, htail⟩
    · obtain ⟨rfl, hnil⟩ := List.cons.inj hlast
      refine ⟨fun y hy => absurd hy List.not_mem_nil, ?_⟩
      cases hx : x.closes with
      | true => rw [List.any_cons, hx, Bool.true_or]
      | false =>
        rw [hx, if_neg Bool.false_ne_true, eq_comm, answered_eq_nil_iff] at hnil
        rw [hnil, List.any_cons, hx]
        rfl
    · cases hz : z.closes with
      | true =>
        rw [hz, if_pos rfl] at htail
        exact absurd htail.symm (by simp)
      | false =>
        rw [hz, if_neg Bool.false_ne_true] at htail
        obtain ⟨hopen, hx⟩ := ih htail
        refine ⟨fun y hy => ?_, by rw [List.any_cons, hz, Bool.false_or, hx]⟩
        rcases List.mem_cons.mp hy with rfl | hy
        · exact hz
        · exact hopen y hy

end Exchange

/-! ## What the client has of a conversation -/

namespace Conversation

open HttpClient

/-- The answers that go out, as they are to be read. -/
def replies (xs : List Exchange) : List Reply := (Exchange.answered xs).map Exchange.reply

/-- What a client has read of what has been handed over, when it has got all of it and when it has
got a part.  An answer that closes is read when the stream has ended. -/
structure ReadBack (s : Conversation) : Prop where
  drained : closing s.exchanges = false → s.wire.conn.pending = [] →
    framing.read s.wire.handed = (replies s.exchanges, [])
  undrained : closing s.exchanges = false → s.wire.conn.pending ≠ [] →
    (framing.read s.wire.handed).1 = (replies s.exchanges).dropLast
  closed : closing s.exchanges = true → ∃ last ∈ (replies s.exchanges).getLast?,
    (framing.read s.wire.handed).1 = (replies s.exchanges).dropLast ∧
      (atEnd (framing.read s.wire.handed).2 = some last ↔ s.wire.conn.pending = [])
  part : ∀ p, p <+: s.wire.handed → (framing.read p).1 <+: replies s.exchanges

lemma run_inv {is : List ConversationInput} {s : Conversation}
    (hrun : machine.run start is = .ok s) : s.Inv := by
  refine machine.run_invariant (fun s i t hs hstep => ?_) start_inv hrun
  have hstep : s.step i = .ok t := hstep
  rcases step_comes hs i with ⟨-, t', ht, hinv, -⟩ | ⟨-, e, he, -⟩
  · rw [hstep] at ht
    cases ht
    exact hinv
  · rw [hstep] at he
    cases he

/-- What has been handed over: the answers but the last, and a part of the last. -/
lemma handed_eq {s : Conversation} (h : s.Faithful) {ys : List Exchange} {x : Exchange}
    (hxs : Exchange.answered s.exchanges = ys ++ [x]) :
    ∃ p, s.wire.handed = (ys.map Exchange.octets).flatten ++ p ∧
      p ++ s.wire.conn.pending = x.octets := by
  have hanswers : answers s.exchanges = ys.map Exchange.octets ++ [x.octets] := by
    rw [answers, hxs, List.map_append, List.map_singleton]
  have hwhole := h.whole
  rw [hanswers, List.dropLast_concat] at hwhole
  obtain ⟨p, hp⟩ := hwhole
  refine ⟨p, hp.symm, ?_⟩
  have hconserved := h.conserved
  rw [hanswers, List.flatten_concat, ← hp, List.append_assoc] at hconserved
  exact List.append_cancel_left hconserved

/-- What the client reads of what has been handed over. -/
lemma read_handed {s : Conversation} (h : s.Faithful) {ys : List Exchange} {x : Exchange}
    (hxs : Exchange.answered s.exchanges = ys ++ [x])
    (hsendable : ∀ y ∈ Exchange.answered s.exchanges, y.Sendable) :
    closing s.exchanges = false ∧ s.wire.conn.pending = [] ∧
        framing.read s.wire.handed = (replies s.exchanges, []) ∨
      ¬ (closing s.exchanges = false ∧ s.wire.conn.pending = []) ∧
        ∃ p, framing.read s.wire.handed = (ys.map Exchange.reply, p) ∧
          p ++ s.wire.conn.pending = x.octets := by
  obtain ⟨hopen, hlast⟩ := Exchange.answered_eq_concat hxs
  obtain ⟨p, hhanded, hp⟩ := handed_eq h hxs
  rw [hxs] at hsendable
  have hx : x.Sendable := hsendable x (List.mem_append_right _ List.mem_cons_self)
  have hread : framing.read ((ys.map Exchange.octets).flatten ++ p) =
      (ys.map Exchange.reply ++ (framing.read p).1, (framing.read p).2) :=
    Framing.read_frames (fun y hy => Exchange.frames_octets
      (hsendable y (List.mem_append_left _ hy)) (hopen y hy)) p
  rw [← hhanded] at hread
  rw [closing, ← hlast]
  by_cases hall : x.closes = false ∧ s.wire.conn.pending = []
  · obtain ⟨hkeeps, hnil⟩ := hall
    rw [hnil, List.append_nil] at hp
    rw [hp, Framing.read_of_some (Exchange.frames_octets hx hkeeps), Framing.read_nil] at hread
    refine Or.inl ⟨hkeeps, hnil, ?_⟩
    rw [hread, replies, hxs, List.map_append]
    rfl
  · have hwaits : framing.next p = none := by
      cases hcloses : x.closes with
      | true =>
        have hwhole : framing.next (p ++ s.wire.conn.pending) = none := by
          rw [hp]
          exact Exchange.next_octets hx hcloses
        exact Framing.next_eq_none_of_append hwhole
      | false =>
        have hwhole : framing.Frames (p ++ s.wire.conn.pending) x.reply := by
          rw [hp]
          exact Exchange.frames_octets hx hcloses
        exact Framing.next_eq_none_of_part hwhole fun hnil => hall ⟨hcloses, hnil⟩
    rw [Framing.read_of_none hwaits, List.append_nil] at hread
    exact Or.inr ⟨hall, p, hread, hp⟩

/-- **The client's side.**  If the responses of a conversation can be sent, the client reads them
one by one, each as the callback gave it, wherever the stream is cut: of an open connection all that
have been handed over whole, and of one that the server has half closed all but the last, which the
end of the stream gives as it was exactly if nothing is pending. -/
theorem replies_read {is : List ConversationInput} {s : Conversation}
    (hrun : machine.run start is = .ok s)
    (hsendable : ∀ x ∈ Exchange.answered s.exchanges, x.Sendable) : s.ReadBack := by
  have hfaithful := (run_inv hrun).faithful
  rcases List.eq_nil_or_concat' (Exchange.answered s.exchanges) with hnil | ⟨ys, x, hxs⟩
  · have hempty := Exchange.answered_eq_nil_iff.mp hnil
    have hconserved := hfaithful.conserved
    rw [answers, hnil, List.map_nil, List.flatten_nil, List.append_eq_nil_iff] at hconserved
    obtain ⟨hhanded, hpending⟩ := hconserved
    refine ⟨fun _ _ => ?_, fun _ hne => absurd hpending hne, fun hc => ?_, fun p hp => ?_⟩
    · rw [hhanded, hempty, Framing.read_nil]
      rfl
    · rw [hempty] at hc
      cases hc
    · rw [hhanded, List.prefix_nil] at hp
      rw [hp, Framing.read_nil]
      exact List.nil_prefix
  · have hreplies : replies s.exchanges = ys.map Exchange.reply ++ [x.reply] := by
      rw [replies, hxs, List.map_append, List.map_singleton]
    have hdropLast : (replies s.exchanges).dropLast = ys.map Exchange.reply := by
      rw [hreplies, List.dropLast_concat]
    have hpart : ∀ p, p <+: s.wire.handed →
        (framing.read s.wire.handed).1 <+: replies s.exchanges →
          (framing.read p).1 <+: replies s.exchanges := by
      rintro p ⟨more, hmore⟩ hle
      rw [← hmore] at hle
      exact (Framing.read_append_prefix p more).trans hle
    rcases read_handed hfaithful hxs hsendable with
      ⟨hkeeps, hnil, hread⟩ | ⟨hnot, p, hread, hp⟩
    · refine ⟨fun _ _ => hread, fun _ hne => absurd hnil hne, fun hc => ?_, fun p hpre => ?_⟩
      · exact absurd (hkeeps.symm.trans hc) Bool.false_ne_true
      · exact hpart p hpre (by rw [hread])
    · refine ⟨fun hc hnil => absurd ⟨hc, hnil⟩ hnot, fun _ _ => ?_, fun hc => ?_,
        fun q hpre => hpart q hpre ?_⟩
      · rw [hread, hdropLast]
      · have hx : x.Sendable := hsendable x (hxs ▸ List.mem_append_right _ List.mem_cons_self)
        have hcloses : x.closes = true := (Exchange.answered_eq_concat hxs).2.trans hc
        refine ⟨x.reply, ?_, ?_, ?_⟩
        · rw [hreplies, List.getLast?_concat]
          rfl
        · rw [hread, hdropLast]
        · rw [hread]
          exact Exchange.atEnd_part_iff hx hcloses hp
      · rw [hread, hreplies]
        exact List.prefix_append _ _

/-- Two requests that arrive in two pieces each. -/
theorem replies_read_inTwo : ∃ s, machine.run start
        (.connectionEstablished ::
          ([Delivery.inTwo, .inTwo].flatMap Delivery.arrivals).map (read fun _ _ => twoOctets)) =
            .ok s ∧
      s.ReadBack := by
  obtain ⟨s₀, hstart, hfollows⟩ := @start_follows fun _ _ => twoOctets
  obtain ⟨q, hq, -, -⟩ := HttpSession.deliveries_round_trip [.inTwo, .inTwo]
  obtain ⟨s, hrun, hend⟩ := hfollows.run (by decide +kernel) hq
  have hwhole := (machine.run_append hstart _).trans hrun
  refine ⟨s, hwhole, replies_read hwhole fun x hx => ?_⟩
  rcases hend.responses x ((Exchange.answered_prefix _).subset hx) with rfl | ⟨request, rfl⟩
  · trivial
  · exact twoOctets_sendable

end Conversation

end Firey
