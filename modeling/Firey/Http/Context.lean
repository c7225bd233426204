import Firey.Framework.LineParser
import Firey.Framework.Loop
import Firey.Http.RequestLine
import Firey.Net.Buffer

/-!
# `HttpContextff::parseRequest`

`round` is the body of the `while` loop over the input buffer.  Two of the four states have no
exit, so the loop is given fuel and says `Fault.diverges` when that runs out; one round more than
there are readable octets is always enough in the other two.

What the loop does to the octets is the line parser `requestParser`: a round takes a line, and
`parseRequest_refines` says that the two agree.  From there on nothing looks into the buffer again.
-/

set_option autoImplicit false

namespace Firey

inductive HttpRequestParseState
  | kExpectRequestLine
  | kExpectHeaders
  | kExpectBody
  | kGotAll
  deriving DecidableEq, Repr

/-- `HttpContextff`. -/
structure HttpContext where
  state_ : HttpRequestParseState
  request_ : HttpRequest
  deriving DecidableEq

namespace HttpContext

/-! ## The loop -/

def ctor : HttpContext where
  state_ := .kExpectRequestLine
  request_ := HttpRequest.ctor

def gotAll (c : HttpContext) : Bool := c.state_ = .kGotAll

/-- `reset` swaps the request with a new one. -/
def reset (c : HttpContext) : HttpContext :=
  { c with state_ := .kExpectRequestLine, request_ := HttpRequest.ctor }

/-- The body of the `while` loop, with `hasMore` as the choice between going on and exiting.  `ok`
is true whenever a round begins, so only the round that refuses a request line answers false; the
refused line stays in the buffer. -/
def round (receiveTime : Timestamp) :
    HttpContext × Buffer → Except Fault (Round (HttpContext × Buffer) (HttpContext × Buffer × Bool))
  | (c, b) =>
      match c.state_ with
      | .kExpectRequestLine =>
          match b.findCRLF with
          | some crlf => do
              let (request, ok) ←
                c.request_.processRequestLine (window b.buffer b.readerIndex crlf)
              if ok then
                let request := request.setReceiveTime receiveTime
                let b ← b.retrieveUntil (crlf + 2)
                .ok (.goesOn (⟨.kExpectHeaders, request⟩, b))
              else
                .ok (.exits ({ c with request_ := request }, b, false))
          | none => .ok (.exits (c, b, true))
      | .kExpectHeaders =>
          match b.findCRLF with
          | some crlf =>
              match cut COLON (window b.buffer b.readerIndex crlf) with
              | (field, some behind) => do
                  let c := { c with request_ := c.request_.addHeader field behind }
                  let b ← b.retrieveUntil (crlf + 2)
                  .ok (.goesOn (c, b))
              | (_, none) => do
                  let b ← b.retrieveUntil (crlf + 2)
                  .ok (.exits ({ c with state_ := .kGotAll }, b, true))
          | none => .ok (.exits (c, b, true))
      -- nothing is done in these two, so nothing ends the loop
      | .kExpectBody => .ok (.goesOn (c, b))
      | .kGotAll => .ok (.goesOn (c, b))

def rounds (receiveTime : Timestamp) :
    Loop (HttpContext × Buffer) (HttpContext × Buffer × Bool) Fault :=
  ⟨round receiveTime, .diverges⟩

/-- The loop of `parseRequest`. -/
def parseLoop (receiveTime : Timestamp) (n : ℕ) (c : HttpContext) (b : Buffer) :
    Except Fault (HttpContext × Buffer × Bool) :=
  (rounds receiveTime).run n (c, b)

def parseRequest (c : HttpContext) (b : Buffer) (receiveTime : Timestamp) :
    Except Fault (HttpContext × Buffer × Bool) :=
  parseLoop receiveTime (b.readableBytes + 1) c b

/-! ## The loop as a line parser -/

/-- One line in each state. -/
def parseLine (receiveTime : Timestamp) (c : HttpContext) (line : Bytes) :
    Except Fault (Verdict HttpContext) :=
  match c.state_ with
  | .kExpectRequestLine => do
      let (request, ok) ← c.request_.processRequestLine line
      .ok (if ok then .goesOn ⟨.kExpectHeaders, request.setReceiveTime receiveTime⟩
        else .refuses { c with request_ := request })
  | .kExpectHeaders =>
      match cut COLON line with
      | (field, some behind) =>
          .ok (.goesOn { c with request_ := c.request_.addHeader field behind })
      | (_, none) => .ok (.stops { c with state_ := .kGotAll })
  | .kExpectBody => .error .diverges
  | .kGotAll => .error .diverges

/-- `parseRequest` on octets. -/
def requestParser (receiveTime : Timestamp) : LineParser Byte HttpContext Fault where
  mark := Buffer.kCRLF
  mark_ne := by decide
  line := parseLine receiveTime

section

variable {t : Timestamp} {c : HttpContext} {line : Bytes}

lemma line_accepts (hc : c.state_ = .kExpectRequestLine) {r : HttpRequest}
    (h : c.request_.processRequestLine line = .ok (r, true)) :
    (requestParser t).line c line =
      .ok (.goesOn ⟨.kExpectHeaders, r.setReceiveTime t⟩) := by
  simp only [requestParser, parseLine, hc, h, ok_bind, if_true]

lemma line_refuses (hc : c.state_ = .kExpectRequestLine) {r : HttpRequest}
    (h : c.request_.processRequestLine line = .ok (r, false)) :
    (requestParser t).line c line = .ok (.refuses { c with request_ := r }) := by
  simp only [requestParser, parseLine, hc, h, ok_bind, Bool.false_eq_true, if_false]

lemma line_fails (hc : c.state_ = .kExpectRequestLine) {e : Fault}
    (h : c.request_.processRequestLine line = .error e) :
    (requestParser t).line c line = .error e := by
  simp only [requestParser, parseLine, hc, h, error_bind]

lemma line_header (hc : c.state_ = .kExpectHeaders) {field behind : Bytes}
    (h : cut COLON line = (field, some behind)) :
    (requestParser t).line c line =
      .ok (.goesOn { c with request_ := c.request_.addHeader field behind }) := by
  simp only [requestParser, parseLine, hc, h]

lemma line_last (hc : c.state_ = .kExpectHeaders) {all : Bytes}
    (h : cut COLON line = (all, none)) :
    (requestParser t).line c line = .ok (.stops { c with state_ := .kGotAll }) := by
  simp only [requestParser, parseLine, hc, h]

end

/-- The states in which `parseRequest` gets anywhere. -/
def Expects (c : HttpContext) : Prop :=
  c.state_ = .kExpectRequestLine ∨ c.state_ = .kExpectHeaders

instance (c : HttpContext) : Decidable c.Expects :=
  inferInstanceAs (Decidable (_ ∨ _))

lemma ctor_expects : ctor.Expects := Or.inl rfl

/-- Where a line leads, and only the assertion of `setMethod` can fail. -/
lemma line_spec {t : Timestamp} {c : HttpContext} (hc : c.Expects) (u : Bytes) :
    Returns (· = .assertion .setMethod) (Verdict.Meets Expects (·.state_ = .kGotAll) Expects)
      ((requestParser t).line c u) := by
  rcases hc with hc | hc
  · rcases hproc : c.request_.processRequestLine u with e | ⟨r, ok⟩
    · rw [line_fails hc hproc]
      exact HttpRequest.processRequestLine_error hproc
    · cases ok with
      | true =>
        rw [line_accepts hc hproc]
        exact Or.inr rfl
      | false =>
        rw [line_refuses hc hproc]
        exact Or.inl hc
  · rcases hcut : cut COLON u with ⟨field, _ | behind⟩
    · rw [line_last hc hcut]
      rfl
    · rw [line_header hc hcut]
      exact Or.inr hc

/-! ## The refinement -/

variable {t : Timestamp} {b : Buffer}

lemma findCRLF_none (h : (requestParser t).nextLine b.readable = none) :
    b.findCRLF = none := by
  have hsearch := (LineParser.nextLine_eq_none_iff _).mp h
  rw [Buffer.findCRLF, Option.map_eq_none_iff]
  exact hsearch

/-- A line found in the buffer is the range up to `crlf`, and `retrieveUntil(crlf+2)` leaves
what is behind it. -/
lemma findCRLF_some (hb : b.WF) {u v : Bytes}
    (h : (requestParser t).nextLine b.readable = some (u, v)) :
    ∃ crlf b', b.findCRLF = some crlf ∧ window b.buffer b.readerIndex crlf = u ∧
      b.retrieveUntil (crlf + 2) = .ok b' ∧ b'.WF ∧ b'.readable = v := by
  obtain ⟨n, hn, rfl, rfl⟩ := LineParser.search_of_nextLine _ h
  have hn : search Buffer.kCRLF b.readable = some n := hn
  have hle : n + 2 ≤ b.readableBytes := by
    rw [← hb.length_readable]
    exact (search_some_le hn).resolve_right (by decide)
  obtain ⟨b', hret, hwf, hread⟩ := Buffer.retrieveUntil_spec hb hle
  refine ⟨b.readerIndex + n, b', ?_, ?_, ?_, hwf, hread⟩
  · rw [Buffer.findCRLF, hn]
    rfl
  · have hwriter := Nat.add_sub_of_le hb.reader_le
    rw [Buffer.readable, window_take]
    unfold Buffer.readableBytes at hle
    omega
  · rw [Nat.add_assoc]
    exact hret

/-- What a round is that makes this of its line, and has the buffer `b'` behind the line. -/
def roundOf (b b' : Buffer) : Verdict HttpContext → Round (HttpContext × Buffer)
    (HttpContext × Buffer × Bool)
  | .goesOn c => .goesOn (c, b')
  | .stops c => .exits (c, b', true)
  | .refuses c => .exits (c, b, false)

lemma round_none {c : HttpContext} (hc : c.Expects)
    (h : (requestParser t).nextLine b.readable = none) :
    round t (c, b) = .ok (.exits (c, b, true)) := by
  have hnone := findCRLF_none h
  rcases hc with hc | hc
  · simp only [round, hc, hnone]
  · simp only [round, hc, hnone]

/-- **A round is a line.** -/
lemma round_some {c : HttpContext} (hc : c.Expects) (hb : b.WF) {u v : Bytes}
    (h : (requestParser t).nextLine b.readable = some (u, v)) :
    ∃ b', b'.WF ∧ b'.readable = v ∧
      round t (c, b) = ((requestParser t).line c u).map (roundOf b b') := by
  obtain ⟨crlf, b', hcrlf, hrange, hret, hwf, hread⟩ := findCRLF_some hb h
  refine ⟨b', hwf, hread, ?_⟩
  rcases hc with hc | hc
  · rcases hproc : c.request_.processRequestLine u with e | ⟨request, ok⟩
    · rw [line_fails hc hproc]
      simp only [round, hc, hcrlf, hrange, hproc, error_bind]
      rfl
    · cases ok with
      | true =>
        rw [line_accepts hc hproc]
        simp only [round, hc, hcrlf, hrange, hproc, ok_bind, if_true, hret]
        rfl
      | false =>
        rw [line_refuses hc hproc]
        simp only [round, hc, hcrlf, hrange, hproc, ok_bind, Bool.false_eq_true, if_false]
        rfl
  · rcases hcut : cut COLON u with ⟨field, _ | behind⟩
    · rw [line_last hc hcut]
      simp only [round, hc, hcrlf, hrange, hcut, hret, ok_bind]
      rfl
    · rw [line_header hc hcut]
      simp only [round, hc, hcrlf, hrange, hcut, hret, ok_bind]
      rfl

/-- What the loop returns is what the line parser makes of the readable octets. -/
def Agrees (x : Except Fault (HttpContext × Buffer × Bool))
    (y : Except Fault (Outcome Byte HttpContext)) : Prop :=
  (∃ e, x = .error e ∧ y = .error e) ∨
    ∃ b' o, x = .ok (o.state, b', o.ending ≠ .refused) ∧ y = .ok o ∧ b'.WF ∧ b'.readable = o.rest

/-- **The loop is the line parser**, given a round for each readable octet and one more. -/
theorem parseLoop_refines {n : ℕ} {c : HttpContext} (hc : c.Expects) (hb : b.WF)
    (hn : b.readable.length < n) :
    Agrees (parseLoop t n c b) ((requestParser t).run c b.readable) := by
  induction n generalizing c b with
  | zero => omega
  | succ n ih =>
    rcases hline : (requestParser t).nextLine b.readable with _ | ⟨u, v⟩
    · rw [LineParser.run_none _ c hline, parseLoop, Loop.run_exits _ (round_none hc hline)]
      exact Or.inr ⟨b, _, rfl, rfl, hb, rfl⟩
    · obtain ⟨b', hwf, hread, hround⟩ := round_some hc hb hline
      have hlt := LineParser.length_lt_of_nextLine _ hline
      have hfuel : b'.readable.length < n := by
        rw [hread]
        omega
      have hverdict := line_spec (t := t) hc u
      rw [LineParser.run_some _ c hline, parseLoop]
      rcases hd : (requestParser t).line c u with e | ⟨c'⟩ | ⟨c'⟩ | ⟨c'⟩
      · rw [hd] at hround
        rw [Loop.run_error _ hround]
        exact Or.inl ⟨e, rfl, rfl⟩
      · rw [hd] at hround hverdict
        have hgoes : (rounds t).Continues (c, b) (c', b') := hround
        rw [Loop.run_goesOn _ hgoes, ← hread]
        exact ih hverdict hwf hfuel
      · rw [hd] at hround
        rw [Loop.run_exits _ hround]
        exact Or.inr ⟨b', _, rfl, rfl, hwf, hread⟩
      · rw [hd] at hround
        rw [Loop.run_exits _ hround]
        exact Or.inr ⟨b, _, rfl, rfl, hb, rfl⟩

theorem parseRequest_refines {c : HttpContext} (hc : c.Expects) (hb : b.WF) :
    Agrees (c.parseRequest b t) ((requestParser t).run c b.readable) := by
  refine parseLoop_refines hc hb ?_
  rw [hb.length_readable]
  exact Nat.lt_succ_self _

/-- A call returns what the parse of the readable octets comes to. -/
lemma parseRequest_of_run {c : HttpContext} (hc : c.Expects) (hb : b.WF)
    {o : Outcome Byte HttpContext} (h : (requestParser t).run c b.readable = .ok o) :
    ∃ b', c.parseRequest b t = .ok (o.state, b', o.ending ≠ .refused) ∧ b'.WF ∧
      b'.readable = o.rest := by
  rcases parseRequest_refines (t := t) hc hb with ⟨e, -, hrun⟩ | ⟨b', o', hreq, hrun, hwf, hread⟩
  · rw [h] at hrun
    cases hrun
  · rw [h] at hrun
    cases hrun
    exact ⟨b', hreq, hwf, hread⟩

lemma run_of_parseRequest {c c' : HttpContext} (hc : c.Expects) (hb : b.WF) {b' : Buffer}
    {ok : Bool} (h : c.parseRequest b t = .ok (c', b', ok)) :
    b'.WF ∧ ∃ ending, (requestParser t).run c b.readable = .ok ⟨ending, c', b'.readable⟩ ∧
      ok = decide (ending ≠ .refused) := by
  rcases parseRequest_refines (t := t) hc hb with ⟨e, hreq, -⟩ | ⟨b₁, o, hreq, hrun, hwf, hread⟩
  · rw [h] at hreq
    cases hreq
  · rw [h] at hreq
    cases hreq
    rw [hread]
    exact ⟨hwf, o.ending, hrun, rfl⟩

end HttpContext

end Firey
