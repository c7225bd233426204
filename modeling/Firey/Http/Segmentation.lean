import Firey.Framework.Dispatch
import Firey.Http.Server

/-!
# Segmentation

A stream of well-formed requests without bodies, cut into chunks in any way.  The requests are
a `Code` for the parser, and a session is that code's reader up to receive times
(`session_lockstep`), so the library's account of readers applies: `onMessage` dispatches one
request for each call and never comes back to what it leaves in the buffer.

`dispatch_independent_iff` says when two segmentations of one stream agree and leave nothing
lying: exactly when no chunk of either completes more than one request.
-/

set_option autoImplicit false

namespace Firey

open HttpRequest

/-! ## Receive times -/

/-- The request up to its receive time. -/
def HttpRequest.eraseTime (r : HttpRequest) : HttpRequest := { r with receiveTime_ := 0 }

/-- The context up to the receive time of its request. -/
def HttpContext.eraseTime (c : HttpContext) : HttpContext :=
  { c with request_ := c.request_.eraseTime }

namespace HttpRequest

lemma eraseTime_setTarget (r : HttpRequest) (t : Bytes) :
    (r.setTarget t).eraseTime = r.eraseTime.setTarget t := by
  unfold setTarget
  split <;> rfl

lemma eraseTime_processRest (r : HttpRequest) (rest : Bytes) :
    r.eraseTime.processRest rest =
      ((r.processRest rest).1.eraseTime, (r.processRest rest).2) := by
  unfold processRest
  split
  · rfl
  · split
    · rw [← eraseTime_setTarget]
      rfl
    · rw [← eraseTime_setTarget]

/-- The receive time plays no part in parsing a request line. -/
lemma eraseTime_processRequestLine (r : HttpRequest) (line : Bytes) :
    r.eraseTime.processRequestLine line =
      (r.processRequestLine line).map fun x => (x.1.eraseTime, x.2) := by
  unfold processRequestLine
  rcases cut SP line with ⟨w, _ | rest⟩
  · rfl
  · by_cases hm : r.method_ = .kInvalid
    · have hm' : r.eraseTime.method_ = .kInvalid := hm
      simp only [setMethod_fresh hm, setMethod_fresh hm', ok_bind, Except.map]
      split_ifs
      · exact congrArg Except.ok (eraseTime_processRest { r with method_ := methodOf w } rest)
      · rfl
    · have hm' : r.eraseTime.method_ ≠ .kInvalid := hm
      simp only [setMethod_twice hm, setMethod_twice hm', error_bind, Except.map]

end HttpRequest

namespace HttpContext

/-- The parser at time zero does to contexts without times what the parser at any time does. -/
lemma eraseTime_line (t : Timestamp) (c : HttpContext) (u : Bytes) :
    (requestParser 0).line c.eraseTime u =
      ((requestParser t).line c u).map (Verdict.map eraseTime) := by
  rcases hc : c.state_
  · have hproc := eraseTime_processRequestLine c.request_ u
    rcases h : c.request_.processRequestLine u with e | ⟨r', _ | _⟩
    · rw [h] at hproc
      rw [line_fails (c := c) hc h, line_fails (c := c.eraseTime) hc hproc]
      rfl
    · rw [h] at hproc
      rw [line_refuses (c := c) hc h, line_refuses (c := c.eraseTime) hc hproc]
      rfl
    · rw [h] at hproc
      rw [line_accepts (c := c) hc h, line_accepts (c := c.eraseTime) hc hproc]
      rfl
  · rcases hcut : cut COLON u with ⟨field, _ | behind⟩
    · rw [line_last (c := c) hc hcut, line_last (c := c.eraseTime) hc hcut]
      rfl
    · rw [line_header (c := c) hc hcut, line_header (c := c.eraseTime) hc hcut]
      rfl
  · simp only [requestParser, parseLine, eraseTime, hc]
    rfl
  · simp only [requestParser, parseLine, eraseTime, hc]
    rfl

lemma eraseTime_run (t : Timestamp) (c : HttpContext) (l : Bytes) :
    (requestParser 0).run c.eraseTime l =
      ((requestParser t).run c l).map (Outcome.map eraseTime) :=
  (requestParser t).run_map (Q := requestParser 0) (f := eraseTime) rfl (eraseTime_line t) c l

end HttpContext

/-! ## Well-formed requests -/

/-- A request as a client sends it: a request line of the grammar and header lines.  No line
holds a CRLF, and a header line has a colon. -/
structure WireRequest where
  line : RequestLine
  headers : List Bytes
  target_free : search Buffer.kCRLF line.target = none
  headers_free : ∀ h ∈ headers, search Buffer.kCRLF h = none
  headers_colon : ∀ h ∈ headers, COLON ∈ h

namespace WireRequest

open HttpContext

/-- The header section: each line with its CRLF, and the empty line. -/
def encodeHeaders (headers : List Bytes) : Bytes :=
  (headers.map (· ++ Buffer.kCRLF)).flatten ++ Buffer.kCRLF

def encode (r : WireRequest) : Bytes :=
  r.line.encode ++ Buffer.kCRLF ++ encodeHeaders r.headers

/-- A header line as the parser takes it. -/
def takeHeader (r : HttpRequest) (h : Bytes) : HttpRequest :=
  match cut COLON h with
  | (field, some behind) => r.addHeader field behind
  | (_, none) => r

/-- The request line as the parser takes it. -/
def takeLine (p : RequestLine) : HttpRequest :=
  (({ HttpRequest.ctor with method_ := p.method } : HttpRequest).setTarget p.target).setVersion
    ((versionOf (versionToString p.version)).getD .kUnknown)

/-- The context at the end of the request. -/
def value (r : WireRequest) : HttpContext :=
  ⟨.kGotAll, r.headers.foldl takeHeader (takeLine r.line)⟩

/-- Every version of the grammar is accepted. -/
lemma versionOf_of_ne {x : Version} (hx : x ≠ .kUnknown) :
    versionOf (versionToString x) = some ((versionOf (versionToString x)).getD .kUnknown) := by
  cases x with
  | kUnknown => exact absurd rfl hx
  | kHttp10 => decide
  | kHttp11 => decide
  | kHttp20 => decide

lemma processRequestLine_takeLine (p : RequestLine) :
    HttpRequest.ctor.processRequestLine p.encode = .ok (takeLine p, true) :=
  processRequestLine_lineOf (r := HttpRequest.ctor) rfl p.method_ne p.target_free
    (versionOf_of_ne p.version_ne)

lemma takeLine_time (p : RequestLine) : (takeLine p).setReceiveTime 0 = takeLine p := by
  have htarget := eraseTime_setTarget { HttpRequest.ctor with method_ := p.method } p.target
  exact congrArg (HttpRequest.setVersion · _) htarget

/-- A request line without a CRLF in its target has none at all. -/
lemma encode_line_free {p : RequestLine} (h : search Buffer.kCRLF p.target = none) :
    search Buffer.kCRLF p.encode = none := by
  have hversion : search Buffer.kCRLF (versionToString p.version) = none := by
    cases p.version <;> decide
  have hmethod : search Buffer.kCRLF (methodToString p.method) = none := by
    cases p.method <;> decide
  have htail : search Buffer.kCRLF (p.target ++ SP :: versionToString p.version) = none :=
    search_append_cons_eq_none (by decide) (by decide) hversion h
  exact search_append_cons_eq_none (by decide) (by decide) htail hmethod

/-- A line sent with its CRLF is the next line. -/
lemma nextLine_crlf {t : Timestamp} {u : Bytes} (hu : search Buffer.kCRLF u = none) (r : Bytes) :
    (requestParser t).nextLine (u ++ Buffer.kCRLF ++ r) = some (u, r) :=
  (requestParser t).nextLine_append_mark rfl (by decide) hu r

/-- The header section is taken to its empty line. -/
lemma run_encodeHeaders {t : Timestamp} {hs : List Bytes} (q : HttpRequest)
    (hfree : ∀ h ∈ hs, search Buffer.kCRLF h = none) (hcolon : ∀ h ∈ hs, COLON ∈ h) :
    (requestParser t).run ⟨.kExpectHeaders, q⟩ (encodeHeaders hs) =
      .ok ⟨.stopped, ⟨.kGotAll, hs.foldl takeHeader q⟩, []⟩ := by
  induction hs generalizing q with
  | nil =>
    have hnext : (requestParser t).nextLine (encodeHeaders []) = some ([], []) :=
      nextLine_crlf (u := []) rfl []
    exact LineParser.run_stops _ hnext (line_last rfl rfl)
  | cons h hs ih =>
    have hsplit : encodeHeaders (h :: hs) = h ++ Buffer.kCRLF ++ encodeHeaders hs := by
      simp only [encodeHeaders, List.map_cons, List.flatten_cons, List.append_assoc]
    have hnext := nextLine_crlf (t := t) (hfree h List.mem_cons_self) (encodeHeaders hs)
    rw [← hsplit] at hnext
    rcases hcut : cut COLON h with ⟨field, _ | behind⟩
    · exact absurd (hcolon h List.mem_cons_self) (cut_eq_none hcut).2
    · have hrest := ih (q.addHeader field behind) (fun x hx => hfree x (List.mem_cons_of_mem h hx))
        (fun x hx => hcolon x (List.mem_cons_of_mem h hx))
      rw [LineParser.run_goesOn _ hnext (line_header rfl hcut), hrest, List.foldl_cons, takeHeader,
        hcut]

/-- A request is taken whole by a new context. -/
lemma run_encode (r : WireRequest) :
    (requestParser 0).run HttpContext.ctor r.encode = .ok ⟨.stopped, r.value, []⟩ := by
  have hnext := nextLine_crlf (t := 0) (encode_line_free r.target_free) (encodeHeaders r.headers)
  have haccept : (requestParser 0).line HttpContext.ctor r.line.encode =
      .ok (.goesOn ⟨.kExpectHeaders, takeLine r.line⟩) := by
    rw [line_accepts rfl (processRequestLine_takeLine r.line), takeLine_time]
  rw [encode, LineParser.run_goesOn _ hnext haccept]
  exact run_encodeHeaders (takeLine r.line) r.headers_free r.headers_colon

/-- The requests as messages of the parser. -/
def code : Code Byte HttpContext Fault WireRequest where
  parser := requestParser 0
  fresh := HttpContext.ctor
  encode := encode
  value := value
  run_encode := run_encode

end WireRequest

/-! ## Sessions as readers -/

namespace HttpSession

open HttpContext WireRequest

/-- A session and the reader of its stream agree up to receive times. -/
structure Shows (s : HttpSession) (d : Reader Byte HttpContext) : Prop where
  inv : s.Inv
  state : d.state = s.context.eraseTime
  pending : d.pending = s.pending
  dispatched : d.dispatched.map request_ = s.dispatched.map HttpRequest.eraseTime

lemma start_shows : start.Shows code.start where
  inv := start_inv
  state := rfl
  pending := (Buffer.readable_ofInitialSize _).symm
  dispatched := rfl

/-- **An arrival is a read.** -/
theorem session_lockstep : Machine.Lockstep machine code.machine Shows Arrival.chunk := by
  intro s d a h
  have hread := eraseTime_run a.receiveTime s.context (s.pending ++ a.chunk)
  rw [← h.state, ← parse] at hread
  rcases step_refines h.inv a with ⟨e, hparse, hstep⟩ | ⟨o, b, hparse, hstep, hinv, hrest⟩
  · rw [hparse, ← h.pending] at hread
    refine Or.inl ⟨e, hstep, ?_⟩
    show code.read d a.chunk = .error e
    simp only [Code.read, code, hread, Except.map]
  · rw [hparse, ← h.pending] at hread
    rcases o with ⟨_ | _ | _, c, rest⟩
    · refine Or.inr ⟨_, ⟨c.eraseTime, rest, d.dispatched⟩, hstep, ?_, ?_⟩
      · show code.read d a.chunk = _
        simp only [Code.read, code, hread, Except.map, Outcome.map]
      · exact ⟨hinv, rfl, hrest.symm, h.dispatched⟩
    · refine Or.inr
        ⟨_, ⟨HttpContext.ctor, rest, d.dispatched ++ [c.eraseTime]⟩, hstep, ?_, ?_⟩
      · show code.read d a.chunk = _
        simp only [Code.read, code, hread, Except.map, Outcome.map]
      · refine ⟨hinv, rfl, hrest.symm, ?_⟩
        simp only [after, List.map_append, h.dispatched, List.map_cons, List.map_nil]
        rfl
    · refine Or.inr ⟨_, ⟨c.eraseTime, rest, d.dispatched⟩, hstep, ?_, ?_⟩
      · show code.read d a.chunk = _
        simp only [Code.read, code, hread, Except.map, Outcome.map]
      · exact ⟨hinv, rfl, hrest.symm, h.dispatched⟩

/-- After each call the buffer holds no complete request, and no call fails. -/
def prompt : RunSpec HttpSession Fault where
  good s := ∀ r : WireRequest, ¬ r.encode <+: s.pending
  move _ _ := True
  stop _ := False

lemma meets_prompt_iff (as : List Arrival) :
    machine.Meets prompt start as ↔
      code.machine.Meets code.prompt code.start (as.map Arrival.chunk) := by
  refine session_lockstep.meets_iff ?_ (fun _ _ _ _ _ _ => Iff.rfl) (fun _ => Iff.rfl)
    start_shows as
  intro s d h
  show (∀ r : WireRequest, ¬ r.encode <+: s.pending) ↔ ∀ r : WireRequest, ¬ r.encode <+: d.pending
  rw [h.pending]

/-! ## Two segmentations -/

/-- The octets of the requests. -/
def stream (rs : List WireRequest) : Bytes := (rs.map encode).flatten

/-- Two segmentations agree: both run without a fault, dispatch the same requests up to receive
times, and after each call leave no complete request in the buffer. -/
def Agree (as bs : List Arrival) : Prop :=
  machine.Meets prompt start as ∧ machine.Meets prompt start bs ∧
    ∃ s t, machine.run start as = .ok s ∧ machine.run start bs = .ok t ∧
      s.dispatched.map HttpRequest.eraseTime = t.dispatched.map HttpRequest.eraseTime

/-- No chunk of the segmentation completes more than one of the requests. -/
def OneEach (rs : List WireRequest) (as : List Arrival) : Prop :=
  Code.OnePerRead (rs.map encode) 0 (as.map Arrival.chunk)

instance (rs : List WireRequest) (as : List Arrival) : Decidable (OneEach rs as) :=
  inferInstanceAs (Decidable (Code.OnePerRead _ _ _))

/-- If each chunk completes at most one request, the requests are dispatched in order. -/
theorem dispatched_of_oneEach {rs : List WireRequest} {as : List Arrival}
    (hstream : (as.map Arrival.chunk).flatten = stream rs) (h : OneEach rs as) :
    ∃ s, machine.run start as = .ok s ∧
      s.dispatched.map HttpRequest.eraseTime = rs.map fun r => r.value.request_ := by
  obtain ⟨-, d, hrun, hdis⟩ :=
    Code.run_of_onePerRead (Code.start_inside (C := code) rs) code.start_good hstream h
  obtain ⟨s, hs, hshows⟩ := session_lockstep.run_ok start_shows hrun
  refine ⟨s, hs, ?_⟩
  rw [← hshows.dispatched, hdis, List.map_append, List.map_map]
  rfl

/-- **Segmentation.**  Two segmentations of a stream of requests agree exactly if no chunk of
either completes more than one request. -/
theorem dispatch_independent_iff (rs : List WireRequest) (as bs : List Arrival)
    (ha : (as.map Arrival.chunk).flatten = stream rs)
    (hb : (bs.map Arrival.chunk).flatten = stream rs) :
    Agree as bs ↔ OneEach rs as ∧ OneEach rs bs := by
  have hpa := (meets_prompt_iff as).trans (Code.meets_prompt_iff (C := code) ha)
  have hpb := (meets_prompt_iff bs).trans (Code.meets_prompt_iff (C := code) hb)
  constructor
  · rintro ⟨hma, hmb, -⟩
    exact ⟨hpa.mp hma, hpb.mp hmb⟩
  · rintro ⟨hoa, hob⟩
    obtain ⟨s, hs, hds⟩ := dispatched_of_oneEach ha hoa
    obtain ⟨t, ht, hdt⟩ := dispatched_of_oneEach hb hob
    exact ⟨hpa.mpr hoa, hpb.mpr hob, s, t, hs, ht, hds.trans hdt.symm⟩

/-- `GET / HTTP/1.1` with one header line. -/
def getRoot : WireRequest where
  line := ⟨.kGet, [47], .kHttp11, by decide, by decide, by decide⟩
  headers := [octets ['H', 'o', 's', 't', ':', 'a']]
  target_free := by decide
  headers_free := by decide
  headers_colon := by decide

/-- A request that arrives at once, and the same request cut inside its first CRLF. -/
theorem dispatch_independent_cutInCRLF :
    Agree [⟨getRoot.encode, 0⟩] [⟨getRoot.encode.take 15, 1⟩, ⟨getRoot.encode.drop 15, 2⟩] :=
  (dispatch_independent_iff [getRoot] _ _ (by decide) (by decide)).mpr ⟨by decide, by decide⟩

/-- Two requests that arrive together. -/
def together : List Arrival := [⟨getRoot.encode ++ getRoot.encode, 0⟩]

/-- The same two requests, one after the other. -/
def apart : List Arrival := [⟨getRoot.encode, 0⟩, ⟨getRoot.encode, 0⟩]

/-- The stream is the same, but of the requests that arrive together only one is dispatched. -/
theorem dispatch_depends_together :
    (together.map Arrival.chunk).flatten = stream [getRoot, getRoot] ∧
      (apart.map Arrival.chunk).flatten = stream [getRoot, getRoot] ∧
      (∃ s, machine.run start together = .ok s ∧ s.dispatched.length = 1) ∧
      (∃ t, machine.run start apart = .ok t ∧ t.dispatched.length = 2) ∧
      ¬ Agree together apart := by
  have htogether : ∃ s, machine.run start together = .ok s ∧ s.dispatched.length = 1 := by
    decide +kernel
  have hapart : ∃ t, machine.run start apart = .ok t ∧ t.dispatched.length = 2 := by
    decide +kernel
  refine ⟨by decide +kernel, by decide +kernel, htogether, hapart, ?_⟩
  rintro ⟨-, -, s, t, hs, ht, hsame⟩
  obtain ⟨s', hs', hlen⟩ := htogether
  obtain ⟨t', ht', hlen'⟩ := hapart
  rw [hs] at hs'
  rw [ht] at ht'
  cases hs'
  cases ht'
  have hcount := congrArg List.length hsame
  rw [List.length_map, List.length_map, hlen, hlen'] at hcount
  exact absurd hcount (by decide)

end HttpSession

end Firey
