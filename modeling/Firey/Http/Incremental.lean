import Firey.Http.Refusals
import Firey.Http.Segmentation

/-!
# Interrupted calls of `parseRequest`

A call that returns true without the end of the request has kept all that it needs: the state, the
request so far, and the octets of the line it waits for, which it left in the buffer.  Called again
with more octets it returns what one call on all of them would have returned, up to the receive
time (`parseRequest_append`).  The octets may be cut anywhere, between CR and LF too.

The argument is the library's (`LineParser.run_append`); the receive time drops out because the
parser at time zero does to contexts without times what the parser at any time does.
-/

set_option autoImplicit false

namespace Firey

namespace HttpContext

open HttpRequest

/-- A request line is expected and nothing of a request is there, or headers are expected. -/
def Begun (c : HttpContext) : Prop :=
  c.state_ = .kExpectRequestLine ∧ c.request_.method_ = .kInvalid ∨ c.state_ = .kExpectHeaders

lemma Begun.expects {c : HttpContext} (hc : c.Begun) : c.Expects := hc.imp_left And.left

/-- On such a context every parse succeeds. -/
lemma Begun.run_ok {c : HttpContext} (hc : c.Begun) (t : Timestamp) (l : Bytes) :
    ∃ o, (requestParser t).run c l = .ok o := by
  have hfresh : c.state_ = .kExpectRequestLine → c.request_.method_ = .kInvalid := by
    intro hst
    rcases hc with ⟨-, hmethod⟩ | hheaders
    · exact hmethod
    · rw [hst] at hheaders
      cases hheaders
  rcases HttpSession.parse_cases (t := t) hc.expects hfresh l with
    ⟨o, hrun, -⟩ | ⟨n, r, -, -, hrun, -⟩
  · exact ⟨o, hrun⟩
  · exact ⟨_, hrun⟩

/-- What a call returns, up to the receive time and to where the octets lie in the buffer. -/
structure SameReturn (x y : HttpContext × Buffer × Bool) : Prop where
  result : x.2.2 = y.2.2
  context : x.1.eraseTime = y.1.eraseTime
  readable : x.2.1.readable = y.2.1.readable

/-- A call that returns true before the end of the request waits for the end of a line. -/
lemma waits_of_parseRequest {c c' : HttpContext} (hc : c.Expects) {b b' : Buffer} (hb : b.WF)
    {t : Timestamp} (h : c.parseRequest b t = .ok (c', b', true)) (hgot : c'.gotAll = false) :
    b'.WF ∧ c'.Expects ∧
      (requestParser t).run c b.readable = .ok ⟨.waits, c', b'.readable⟩ := by
  obtain ⟨hwf, ending, hrun, hok⟩ := run_of_parseRequest hc hb h
  have hends := HttpSession.ends_in (t := t) hc b.readable
  rw [hrun] at hends
  cases ending with
  | waits => exact ⟨hwf, hends, hrun⟩
  | stopped =>
    have hst : c'.state_ = .kGotAll := hends
    exact absurd hst (of_decide_eq_false hgot)
  | refused => exact absurd hok (by decide)

/-- The receive times of two calls make no difference to what a parse comes to. -/
lemma eraseTime_run_congr {t t' : Timestamp} {c c' : HttpContext}
    (h : c.eraseTime = c'.eraseTime) (l : Bytes) :
    ((requestParser t).run c l).map (Outcome.map eraseTime) =
      ((requestParser t').run c' l).map (Outcome.map eraseTime) := by
  rw [← eraseTime_run, ← eraseTime_run, h]

/-- **Incremental parsing.**  A call on `a` that returns true before the end of the request, and a
call after `b` has been put behind what it left, return what one call on `a ++ b` returns. -/
theorem parseRequest_append {c c₁ : HttpContext} (hc : c.Begun) {first whole rest : Buffer}
    {a b : Bytes} (hfirst : first.WF) (ha : first.readable = a) (hwhole : whole.WF)
    (hab : whole.readable = a ++ b) {t t₁ t₂ : Timestamp}
    (h : c.parseRequest first t₁ = .ok (c₁, rest, true)) (hgot : c₁.gotAll = false) :
    ∃ more x y, rest.append b = .ok more ∧ c₁.parseRequest more t₂ = .ok x ∧
      c.parseRequest whole t = .ok y ∧ SameReturn x y := by
  obtain ⟨hrest, hc₁, hwaits⟩ := waits_of_parseRequest hc.expects hfirst h hgot
  obtain ⟨more, happend, hmore, hread⟩ := Buffer.append_spec hrest b
  obtain ⟨o, ho⟩ := hc.run_ok t (a ++ b)
  have hsame : ((requestParser t₂).run c₁ more.readable).map (Outcome.map eraseTime) =
      .ok (o.map eraseTime) := by
    calc ((requestParser t₂).run c₁ more.readable).map (Outcome.map eraseTime)
        = ((requestParser t₁).run c₁ more.readable).map (Outcome.map eraseTime) :=
          eraseTime_run_congr rfl _
      _ = ((requestParser t₁).run c (a ++ b)).map (Outcome.map eraseTime) := by
          rw [hread, ← ha, LineParser.run_append_of_waits _ hwaits]
      _ = ((requestParser t).run c (a ++ b)).map (Outcome.map eraseTime) :=
          eraseTime_run_congr rfl _
      _ = .ok (o.map eraseTime) := by
          rw [ho]
          rfl
  rcases hrun : (requestParser t₂).run c₁ more.readable with e | o'
  · rw [hrun] at hsame
    cases hsame
  · rw [hrun] at hsame
    obtain ⟨hending, hstate, hleft⟩ := Outcome.mk.inj (Except.ok.inj hsame)
    obtain ⟨b', hx, -, hb'⟩ := parseRequest_of_run hc₁ hmore hrun
    obtain ⟨b'', hy, -, hb''⟩ := parseRequest_of_run (t := t) hc.expects hwhole (hab ▸ ho)
    refine ⟨more, _, _, happend, hx, hy, ?_, hstate, ?_⟩
    · show decide (o'.ending ≠ .refused) = decide (o.ending ≠ .refused)
      rw [hending]
    · show b'.readable = b''.readable
      rw [hb', hb'', hleft]

/-- A buffer with these octets behind the prepend area. -/
def holding (l : Bytes) : Buffer where
  buffer := List.replicate Buffer.kCheapPrepend 0 ++ l
  readerIndex := Buffer.kCheapPrepend
  writerIndex := Buffer.kCheapPrepend + l.length

lemma holding_wf (l : Bytes) : (holding l).WF := by
  constructor <;> simp [holding]

@[simp] lemma readable_holding (l : Bytes) : (holding l).readable = l := by
  simp [holding, Buffer.readable, window]

/-- The request is cut inside the CRLF of its first line. -/
theorem parseRequest_append_cutInCRLF :
    ∃ c₁ rest, HttpContext.ctor.parseRequest
        (holding (HttpSession.getRoot.encode.take 15)) 1 = .ok (c₁, rest, true) ∧
      ∃ more x y, rest.append (HttpSession.getRoot.encode.drop 15) = .ok more ∧
        c₁.parseRequest more 2 = .ok x ∧
        HttpContext.ctor.parseRequest (holding HttpSession.getRoot.encode) 3 = .ok y ∧
        SameReturn x y := by
  have hfirst : ∃ x, HttpContext.ctor.parseRequest
      (holding (HttpSession.getRoot.encode.take 15)) 1 = .ok x ∧
        x.2.2 = true ∧ x.1.gotAll = false := by
    decide +kernel
  obtain ⟨⟨c₁, rest, ok⟩, h, rfl, hgot⟩ := hfirst
  refine ⟨c₁, rest, h, ?_⟩
  exact parseRequest_append (.inl ⟨rfl, rfl⟩) (holding_wf _) (readable_holding _) (holding_wf _)
    ((readable_holding _).trans (List.take_append_drop 15 _).symm) h hgot

end HttpContext

end Firey
