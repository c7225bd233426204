import Firey.Framework.Machine
import Firey.Http.Context

/-!
# `HttpServerff::onMessage`

`onMessage` hands the input buffer to `parseRequest`, answers a refused request line by a 400
and `shutdown()`, and dispatches the request once it is complete.  What it asks of the
connection and of the user is listed as effects.

`HttpSession` is the server's side of one connection: each arrival puts a chunk behind the
readable octets, as `readFd` does, and calls `onMessage`.  Octets go on arriving after a 400,
since `shutdown()` closes the other direction only.  The session keeps what was dispatched and,
for each refusal, the request before and after.

`step_refines` says what an arrival does in terms of the line parser.
-/

set_option autoImplicit false

namespace Firey

/-- What `onMessage` asks for. -/
inductive HttpEffect
  | send (message : Bytes)
  | shutdown
  | onRequest (request : HttpRequest)
  deriving DecidableEq

namespace HttpServer

open HttpContext

/-! ## The server -/

def badRequest : Bytes :=
  octets ['H', 'T', 'T', 'P', '/', '1', '.', '1', ' ', '4', '0', '0', ' ',
    'B', 'a', 'd', ' ', 'R', 'e', 'q', 'u', 'e', 's', 't'] ++ Buffer.kCRLF ++ Buffer.kCRLF

def onMessage (context : HttpContext) (buffer : Buffer) (receiveTime : Timestamp) :
    Except Fault (HttpContext × Buffer × List HttpEffect) := do
  let (context, buffer, ok) ← context.parseRequest buffer receiveTime
  let answer := if ok then [] else [.send badRequest, .shutdown]
  if context.gotAll then
    .ok (context.reset, buffer, answer ++ [.onRequest context.request_])
  else
    .ok (context, buffer, answer)

/-- The requests among the effects. -/
def requestsOf (es : List HttpEffect) : List HttpRequest :=
  es.filterMap fun
    | .onRequest r => some r
    | _ => none

end HttpServer

/-- A call of `parseRequest` that answers false. -/
structure Refusal where
  before : HttpRequest
  after : HttpRequest
  deriving DecidableEq

/-- Octets that arrive, and when. -/
structure Arrival where
  chunk : Bytes
  receiveTime : Timestamp
  deriving DecidableEq, Repr

/-- The server's side of a connection and its history. -/
structure HttpSession where
  context : HttpContext
  inputBuffer : Buffer
  dispatched : List HttpRequest
  refusals : List Refusal
  deriving DecidableEq

namespace HttpSession

open HttpContext HttpServer HttpRequest

/-- `onConnection` gives a new connection a new context. -/
def start : HttpSession where
  context := HttpContext.ctor
  inputBuffer := Buffer.ofInitialSize Buffer.kInitialSize
  dispatched := []
  refusals := []

def step (s : HttpSession) (a : Arrival) : Except Fault HttpSession := do
  let buffer ← s.inputBuffer.append a.chunk
  let (context, buffer, es) ← onMessage s.context buffer a.receiveTime
  .ok { context := context
        inputBuffer := buffer
        dispatched := s.dispatched ++ requestsOf es
        refusals := s.refusals ++
          if .send badRequest ∈ es then [⟨s.context.request_, context.request_⟩] else [] }

def machine : Machine HttpSession Arrival Fault := ⟨step⟩

def pending (s : HttpSession) : Bytes := s.inputBuffer.readable

/-! ## An arrival -/

/-- Between two calls the parser is in one of the two states in which it gets anywhere. -/
structure Inv (s : HttpSession) : Prop where
  buffer : s.inputBuffer.WF
  expects : s.context.Expects

lemma start_inv : start.Inv where
  buffer := Buffer.ofInitialSize_wf _
  expects := ctor_expects

/-- The parse an arrival starts. -/
def parse (s : HttpSession) (a : Arrival) : Except Fault (Outcome Byte HttpContext) :=
  (requestParser a.receiveTime).run s.context (s.pending ++ a.chunk)

/-- The session after a parse that ended so. -/
def after (s : HttpSession) (o : Outcome Byte HttpContext) (b : Buffer) : HttpSession :=
  match o.ending with
  | .waits => { s with context := o.state, inputBuffer := b }
  | .stopped =>
      { s with
        context := HttpContext.ctor
        inputBuffer := b
        dispatched := s.dispatched ++ [o.state.request_] }
  | .refused =>
      { s with
        context := o.state
        inputBuffer := b
        refusals := s.refusals ++ [⟨s.context.request_, o.state.request_⟩] }

/-- Where a parse can end. -/
lemma ends_in {t : Timestamp} {c : HttpContext} (hc : c.Expects) (l : Bytes) :
    Returns (· = .assertion .setMethod) (Outcome.Meets Expects (·.state_ = .kGotAll) Expects)
      ((requestParser t).run c l) :=
  LineParser.run_rule _ (fun _ u hc => line_spec hc u) hc l

lemma not_gotAll_of_expects {c : HttpContext} (hc : c.Expects) : c.gotAll = false := by
  unfold gotAll
  rcases hc with hc | hc
  · rw [hc]
    rfl
  · rw [hc]
    rfl

lemma after_inv {s : HttpSession} {a : Arrival} (h : s.Inv) {o : Outcome Byte HttpContext}
    (hparse : s.parse a = .ok o) {b : Buffer} (hb : b.WF) : (s.after o b).Inv := by
  have hends := ends_in (t := a.receiveTime) h.expects (s.pending ++ a.chunk)
  unfold parse at hparse
  rw [hparse] at hends
  rcases o with ⟨_ | _ | _, c, rest⟩
  · exact ⟨hb, hends⟩
  · exact ⟨hb, ctor_expects⟩
  · exact ⟨hb, hends⟩

/-- **An arrival is a parse** of the pending octets and the new ones: it fails with the parse
or leads where the parse ends. -/
theorem step_refines {s : HttpSession} (h : s.Inv) (a : Arrival) :
    (∃ e, s.parse a = .error e ∧ s.step a = .error e) ∨
      ∃ o b, s.parse a = .ok o ∧ s.step a = .ok (s.after o b) ∧ (s.after o b).Inv ∧
        b.readable = o.rest := by
  obtain ⟨b₁, happ, hwf₁, hread₁⟩ := Buffer.append_spec h.buffer a.chunk
  have hrefines := parseRequest_refines (t := a.receiveTime) h.expects hwf₁
  rw [hread₁] at hrefines
  rcases hrefines with ⟨e, hreq, hparse⟩ | ⟨b, o, hreq, hparse, hwf, hread⟩
  · refine Or.inl ⟨e, hparse, ?_⟩
    simp only [step, happ, ok_bind, onMessage, hreq, error_bind]
  · refine Or.inr ⟨o, b, hparse, ?_, after_inv h hparse hwf, hread⟩
    have hends := ends_in (t := a.receiveTime) h.expects (s.pending ++ a.chunk)
    unfold pending at hends
    rw [hparse] at hends
    rcases o with ⟨_ | _ | _, c, rest⟩
    · have hgot : c.gotAll = false := not_gotAll_of_expects hends
      simp [step, happ, onMessage, hreq, hgot, after, requestsOf]
    · have hgot : c.gotAll = true := decide_eq_true hends
      simp [step, happ, onMessage, hreq, hgot, after, requestsOf, reset, HttpContext.ctor]
    · have hgot : c.gotAll = false := not_gotAll_of_expects hends
      simp [step, happ, onMessage, hreq, hgot, after, requestsOf]

lemma step_of_parse {s : HttpSession} (h : s.Inv) {a : Arrival} {o : Outcome Byte HttpContext}
    (hparse : s.parse a = .ok o) :
    ∃ b, s.step a = .ok (s.after o b) ∧ (s.after o b).Inv ∧ b.readable = o.rest := by
  rcases step_refines h a with ⟨e, herr, -⟩ | ⟨o', b, hok, hstep⟩
  · rw [hparse] at herr
    cases herr
  · rw [hparse] at hok
    cases hok
    exact ⟨b, hstep⟩

end HttpSession

end Firey
