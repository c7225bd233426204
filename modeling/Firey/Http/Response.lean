import Firey.Framework.Numeral
import Firey.Http.RoundTrip

/-!
# `HttpResponseff`

A response and `appendToBuffer`, which writes it behind a status line as header lines, an empty
line and the body.  The two lines that hold a number go through an array of 32 characters; the
longest that has to fit is that of `Content-Length`, with thirteen digits.

Nothing in the repository reads a response.  Its request parser takes header lines in the same
form, though, and `response_round_trip` says that it takes from a response the headers that were
set, with those that `appendToBuffer` adds, and leaves the body.

`HttpServerff::onRequest` is what makes a response and sends it.
-/

set_option autoImplicit false

namespace Firey

/-! ## Responses -/

/-- The enumeration has no fixed type, so its values are those of the nine bits of its largest one,
which is 500.  These are the names that are used. -/
abbrev HttpStatusCode := Fin 512

namespace HttpStatusCode

def kUnknown : HttpStatusCode := 0

def k200Ok : HttpStatusCode := 200

def k404NotFound : HttpStatusCode := 404

end HttpStatusCode

/-- `HttpResponseff`. -/
structure HttpResponse where
  statusCode_ : HttpStatusCode
  statusMessage_ : Bytes
  closeConnection_ : Bool
  headers_ : Std.ExtTreeMap Bytes Bytes
  body_ : Bytes

namespace HttpResponse

open HttpRequest

/-- The constructor. -/
def ctor (close : Bool) : HttpResponse where
  statusCode_ := .kUnknown
  statusMessage_ := []
  closeConnection_ := close
  headers_ := ∅
  body_ := []

def setStatusCode (r : HttpResponse) (status : HttpStatusCode) : HttpResponse :=
  { r with statusCode_ := status }

def setStatusMessage (r : HttpResponse) (message : Bytes) : HttpResponse :=
  { r with statusMessage_ := message }

def setCloseConnection (r : HttpResponse) (on : Bool) : HttpResponse :=
  { r with closeConnection_ := on }

def addHeader (r : HttpResponse) (field value : Bytes) : HttpResponse :=
  { r with headers_ := r.headers_.insert field value }

def setContentType (r : HttpResponse) (type : Bytes) : HttpResponse :=
  r.addHeader (octets ['C', 'o', 'n', 't', 'e', 'n', 't', '-', 'T', 'y', 'p', 'e']) type

def setBody (r : HttpResponse) (body : Bytes) : HttpResponse := { r with body_ := body }

/-! ## `appendToBuffer` -/

/-- `HTTP/1.1 ` -/
def version : Bytes := octets ['H', 'T', 'T', 'P', '/', '1', '.', '1', ' ']

/-- `Connection` -/
def connection : Bytes := octets ['C', 'o', 'n', 'n', 'e', 'c', 't', 'i', 'o', 'n']

/-- `Content-Length` -/
def contentLength : Bytes :=
  octets ['C', 'o', 'n', 't', 'e', 'n', 't', '-', 'L', 'e', 'n', 'g', 't', 'h']

/-- `close` -/
def close : Bytes := octets ['c', 'l', 'o', 's', 'e']

/-- `Keep-Alive` -/
def keepAlive : Bytes := octets ['K', 'e', 'e', 'p', '-', 'A', 'l', 'i', 'v', 'e']

/-- `: ` -/
def colonSpace : Bytes := octets [':', ' ']

def appendHeader (output : Buffer) (header : Bytes × Bytes) : Except Fault Buffer := do
  let output ← output.append header.1
  let output ← output.append colonSpace
  let output ← output.append header.2
  output.append Buffer.kCRLF

/-- The branch on `closeConnection_`. -/
def appendConnection (r : HttpResponse) (output : Buffer) : Except Fault Buffer :=
  if r.closeConnection_ then
    output.append (connection ++ colonSpace ++ close ++ Buffer.kCRLF)
  else do
    let output ← output.append
      (snprintf 32 (contentLength ++ colonSpace ++ unsignedText r.body_.length ++ Buffer.kCRLF))
    output.append (connection ++ colonSpace ++ keepAlive ++ Buffer.kCRLF)

def appendToBuffer (r : HttpResponse) (output : Buffer) : Except Fault Buffer := do
  let output ← output.append (snprintf 32 (version ++ unsignedText r.statusCode_ ++ [SP]))
  let output ← output.append r.statusMessage_
  let output ← output.append Buffer.kCRLF
  let output ← r.appendConnection output
  let output ← r.headers_.toList.foldlM appendHeader output
  let output ← output.append Buffer.kCRLF
  output.append r.body_

/-! ## What is written -/

/-- A computation puts `data` behind the readable octets. -/
def Puts (data : Bytes) (f : Buffer → Except Fault Buffer) : Prop :=
  ∀ b : Buffer, b.WF → ∃ b', f b = .ok b' ∧ b'.WF ∧ b'.readable = b.readable ++ data

lemma puts_append (data : Bytes) : Puts data (·.append data) :=
  fun _ hb => Buffer.append_spec hb data

lemma Puts.seq {x y : Bytes} {f g : Buffer → Except Fault Buffer} (hf : Puts x f)
    (hg : Puts y g) : Puts (x ++ y) (fun b => f b >>= g) := by
  intro b hb
  obtain ⟨b₁, h₁, hwf₁, hread₁⟩ := hf b hb
  obtain ⟨b₂, h₂, hwf₂, hread₂⟩ := hg b₁ hwf₁
  refine ⟨b₂, ?_, hwf₂, ?_⟩
  · show (f b >>= g) = .ok b₂
    rw [h₁, ok_bind, h₂]
  · rw [hread₂, hread₁, List.append_assoc]

lemma Puts.foldlM {κ : Type} {x : κ → Bytes} {f : Buffer → κ → Except Fault Buffer}
    (h : ∀ k, Puts (x k) (f · k)) (ks : List κ) :
    Puts (ks.map x).flatten (ks.foldlM f) := by
  induction ks with
  | nil =>
    intro b hb
    exact ⟨b, rfl, hb, (List.append_nil _).symm⟩
  | cons k ks ih => exact (h k).seq ih

/-- A header line as it is sent. -/
def headerLine (header : Bytes × Bytes) : Bytes := header.1 ++ COLON :: SP :: header.2

/-- The fields that come before those that were set. -/
def firstHeaders (r : HttpResponse) : List (Bytes × Bytes) :=
  if r.closeConnection_ then [(connection, close)]
  else [(contentLength, unsignedText r.body_.length), (connection, keepAlive)]

def statusLine (r : HttpResponse) : Bytes :=
  version ++ unsignedText r.statusCode_ ++ SP :: r.statusMessage_

/-- The octets behind the status line. -/
def afterStatusLine (r : HttpResponse) : Bytes :=
  WireRequest.encodeHeaders ((r.firstHeaders ++ r.headers_.toList).map headerLine) ++ r.body_

lemma puts_appendHeader (header : Bytes × Bytes) :
    Puts (headerLine header ++ Buffer.kCRLF) (appendHeader · header) := by
  have hputs := (puts_append header.1).seq ((puts_append colonSpace).seq
    ((puts_append header.2).seq (puts_append Buffer.kCRLF)))
  have hline : header.1 ++ (colonSpace ++ (header.2 ++ Buffer.kCRLF)) =
      headerLine header ++ Buffer.kCRLF := by
    rw [headerLine, List.append_assoc]
    rfl
  exact hline ▸ hputs

/-! ## Numbers -/

lemma not_mem_unsignedText {n : ℕ} {c : Byte} (hc : c < 48) : c ∉ unsignedText n :=
  fun h => absurd (range_unsignedText h).1 (UInt8.not_le.mpr hc)

lemma isspace_of_mem_unsignedText {n : ℕ} {c : Byte} (h : c ∈ unsignedText n) :
    isspace c = false := by
  obtain ⟨hlow, -⟩ := range_unsignedText h
  have hspace : c ≠ 32 := fun hc => absurd (hc ▸ hlow) (by decide)
  have htab : ¬ c ≤ 13 := fun hc => absurd (UInt8.le_trans hlow hc) (by decide)
  simp [isspace, hspace, htab]

/-! ## What is written -/

/-- The status has three digits at most. -/
lemma snprintf_status (r : HttpResponse) :
    snprintf 32 (version ++ unsignedText r.statusCode_ ++ [SP]) =
      version ++ unsignedText r.statusCode_ ++ [SP] := by
  apply snprintf_of_lt
  have hdigits : (unsignedText r.statusCode_).length ≤ 3 :=
    length_unsignedText_le (by decide) (by have := r.statusCode_.isLt; omega)
  have hversion : version.length = 9 := rfl
  simp only [List.length_append, List.length_singleton, hversion]
  omega

/-- The length has thirteen digits at most. -/
lemma snprintf_contentLength {n : ℕ} (h : n < 10 ^ 13) :
    snprintf 32 (contentLength ++ colonSpace ++ unsignedText n ++ Buffer.kCRLF) =
      contentLength ++ colonSpace ++ unsignedText n ++ Buffer.kCRLF := by
  apply snprintf_of_lt
  have hdigits := length_unsignedText_le (by decide) h
  have hname : contentLength.length = 14 := rfl
  have hcolon : colonSpace.length = 2 := rfl
  have hcrlf : Buffer.kCRLF.length = 2 := rfl
  simp only [List.length_append, hname, hcolon, hcrlf]
  omega

lemma puts_appendConnection {r : HttpResponse} (hbody : r.body_.length < 10 ^ 13) :
    Puts (r.firstHeaders.map fun h => headerLine h ++ Buffer.kCRLF).flatten
      r.appendConnection := by
  unfold appendConnection
  rw [snprintf_contentLength hbody]
  cases hclose : r.closeConnection_ with
  | true =>
    simp only [firstHeaders, hclose, if_true, List.map_cons, List.map_nil, List.flatten_cons,
      List.flatten_nil, List.append_nil]
    exact puts_append _
  | false =>
    simp only [firstHeaders, hclose, Bool.false_eq_true, if_false, List.map_cons, List.map_nil,
      List.flatten_cons, List.flatten_nil, List.append_nil]
    have hputs := (puts_append
      (contentLength ++ colonSpace ++ unsignedText r.body_.length ++ Buffer.kCRLF)).seq
      (puts_append (connection ++ colonSpace ++ keepAlive ++ Buffer.kCRLF))
    have hline : contentLength ++ colonSpace ++ unsignedText r.body_.length =
        headerLine (contentLength, unsignedText r.body_.length) := by
      rw [headerLine, List.append_assoc]
      rfl
    rw [hline] at hputs ⊢
    exact hputs

/-- The octets, in the order in which the code appends them. -/
lemma encode_eq (r : HttpResponse) :
    version ++ unsignedText r.statusCode_ ++ [SP] ++ (r.statusMessage_ ++ (Buffer.kCRLF ++
        ((r.firstHeaders.map fun h => headerLine h ++ Buffer.kCRLF).flatten ++
          ((r.headers_.toList.map fun h => headerLine h ++ Buffer.kCRLF).flatten ++
            (Buffer.kCRLF ++ r.body_))))) =
      r.statusLine ++ Buffer.kCRLF ++ r.afterStatusLine := by
  simp only [statusLine, afterStatusLine, WireRequest.encodeHeaders, List.map_append, List.map_map,
    List.flatten_append, List.append_assoc, Function.comp_def, List.cons_append, List.nil_append]

/-- **What is written**, if the body is no longer than the array allows for: the status line, the
header section and the body. -/
theorem puts_appendToBuffer {r : HttpResponse} (hbody : r.body_.length < 10 ^ 13) :
    Puts (r.statusLine ++ Buffer.kCRLF ++ r.afterStatusLine) r.appendToBuffer := by
  have hputs := (puts_append (version ++ unsignedText r.statusCode_ ++ [SP])).seq
    ((puts_append r.statusMessage_).seq ((puts_append Buffer.kCRLF).seq
      ((puts_appendConnection hbody).seq ((Puts.foldlM puts_appendHeader r.headers_.toList).seq
        ((puts_append Buffer.kCRLF).seq (puts_append r.body_))))))
  rw [encode_eq] at hputs
  unfold appendToBuffer
  rw [snprintf_status]
  exact hputs

/-! ## What is read -/

/-- A field that the parser takes as it was written. -/
structure Plain (header : Bytes × Bytes) : Prop where
  name_colon : COLON ∉ header.1
  name_free : search Buffer.kCRLF header.1 = none
  value_free : search Buffer.kCRLF header.2 = none
  value_head : ∀ c ∈ header.2.head?, isspace c = false
  value_last : ∀ c ∈ header.2.getLast?, isspace c = false

lemma exists_fields {hs : List (Bytes × Bytes)} (h : ∀ x ∈ hs, Plain x) :
    ∃ fs : List HttpField, fs.map (fun f => (f.name, f.value)) = hs := by
  induction hs with
  | nil => exact ⟨[], rfl⟩
  | cons x hs ih =>
    obtain ⟨fs, rfl⟩ := ih fun y hy => h y (List.mem_cons_of_mem x hy)
    obtain ⟨hcolon, hname, hvalue, hhead, hlast⟩ := h x List.mem_cons_self
    exact ⟨⟨x.1, x.2, hcolon, hname, hvalue, hhead, hlast⟩ :: fs, rfl⟩

/-- The parser puts plain fields into the map one by one. -/
lemma run_plain {t : Timestamp} {hs : List (Bytes × Bytes)} (h : ∀ x ∈ hs, Plain x)
    (q : HttpRequest) :
    (HttpContext.requestParser t).run ⟨.kExpectHeaders, q⟩
        (WireRequest.encodeHeaders (hs.map headerLine)) =
      .ok ⟨.stopped, ⟨.kGotAll, { q with headers_ := q.headers_.insertMany hs }⟩, []⟩ := by
  obtain ⟨fs, rfl⟩ := exists_fields h
  have hrun := HttpField.run_fields (t := t) q fs
  rw [HttpField.takeHeaders] at hrun
  rw [List.map_map, Std.ExtTreeMap.insertMany_list_eq_foldl, List.foldl_map]
  exact hrun

/-- What is there after all of `m` has been put into `m₀`. -/
lemma getElem?_insertMany_toList (m₀ m : Std.ExtTreeMap Bytes Bytes) (k : Bytes) :
    (m₀.insertMany m.toList)[k]? = m[k]?.or m₀[k]? := by
  rcases hm : m[k]? with _ | v
  · have hnot : (m.toList.map Prod.fst).contains k = false := by
      rw [Std.ExtTreeMap.map_fst_toList_eq_keys, List.contains_eq_mem, decide_eq_false_iff_not,
        Std.ExtTreeMap.mem_keys, Std.ExtTreeMap.mem_iff_isSome_getElem?, hm]
      exact Bool.false_ne_true
    rw [Std.ExtTreeMap.getElem?_insertMany_list_of_contains_eq_false hnot]
    rfl
  · have hmem := Std.ExtTreeMap.mem_toList_iff_getElem?_eq_some.mpr hm
    rw [Std.ExtTreeMap.getElem?_insertMany_list_of_mem (k := k) Std.ReflCmp.compare_self
      Std.ExtTreeMap.distinct_keys_toList hmem]
    rfl

/-- The headers that were set, and those that `appendToBuffer` adds. -/
def sentHeaders (r : HttpResponse) : Std.ExtTreeMap Bytes Bytes :=
  if r.closeConnection_ then r.headers_.insert connection close
  else (r.headers_.insert contentLength (unsignedText r.body_.length)).insert connection keepAlive

/-- What the two ends agree on: no CR or LF in the message, the names and the values, no white
space around a value, no colon in a name, no name of a header that is added, and a body whose length
has thirteen digits at most. -/
structure Sendable (r : HttpResponse) : Prop where
  message : ∀ c ∈ r.statusMessage_, c ≠ 13 ∧ c ≠ 10
  value : ∀ {name v : Bytes}, r.headers_[name]? = some v → ∀ c ∈ v, c ≠ 13 ∧ c ≠ 10
  value_head : ∀ {name v : Bytes}, r.headers_[name]? = some v → ∀ c ∈ v.head?, isspace c = false
  value_last : ∀ {name v : Bytes}, r.headers_[name]? = some v → ∀ c ∈ v.getLast?, isspace c = false
  name : ∀ {name : Bytes}, name ∈ r.headers_ → ∀ c ∈ name, c ≠ COLON ∧ c ≠ 13 ∧ c ≠ 10
  name_ne : ∀ {name : Bytes}, name ∈ r.headers_ → name ≠ connection ∧ name ≠ contentLength
  body : r.body_.length < 10 ^ 13

lemma search_eq_none {l : Bytes} (h : ∀ c ∈ l, c ≠ 13) : search Buffer.kCRLF l = none :=
  search_eq_none_of_not_mem (x := 13) List.mem_cons_self fun hmem => h 13 hmem rfl

/-- The headers that are added are plain. -/
lemma plain_firstHeaders {r : HttpResponse} {x : Bytes × Bytes} (hx : x ∈ r.firstHeaders) :
    Plain x := by
  have hclose : Plain (connection, close) := by
    constructor <;> decide +kernel
  have hkeep : Plain (connection, keepAlive) := by
    constructor <;> decide +kernel
  have hlen : Plain (contentLength, unsignedText r.body_.length) :=
    ⟨show COLON ∉ contentLength by decide +kernel,
      show search Buffer.kCRLF contentLength = none by decide +kernel,
      search_eq_none fun c hc h13 => not_mem_unsignedText (by rw [h13]; decide) hc,
      fun c hc => isspace_of_mem_unsignedText (List.mem_of_mem_head? hc),
      fun c hc => isspace_of_mem_unsignedText (List.mem_of_mem_getLast? hc)⟩
  unfold firstHeaders at hx
  split at hx
  · rw [List.mem_singleton.mp hx]
    exact hclose
  · rcases List.mem_cons.mp hx with rfl | hx
    · exact hlen
    · rw [List.mem_singleton.mp hx]
      exact hkeep

namespace Sendable

variable {r : HttpResponse} (h : r.Sendable)

include h

lemma plain {x : Bytes × Bytes} (hx : x ∈ r.firstHeaders ++ r.headers_.toList) : Plain x := by
  rcases List.mem_append.mp hx with hx | hx
  · exact plain_firstHeaders hx
  · obtain ⟨name, v⟩ := x
    have hget := Std.ExtTreeMap.mem_toList_iff_getElem?_eq_some.mp hx
    have hname : name ∈ r.headers_ := by
      rw [Std.ExtTreeMap.mem_iff_isSome_getElem?, hget]
      rfl
    exact ⟨fun hmem => (h.name hname COLON hmem).1 rfl,
      search_eq_none fun c hc => (h.name hname c hc).2.1,
      search_eq_none fun c hc => (h.value hget c hc).1, h.value_head hget, h.value_last hget⟩

lemma getElem?_added {name : Bytes} (hname : name = connection ∨ name = contentLength) :
    r.headers_[name]? = none := by
  refine Std.ExtTreeMap.getElem?_eq_none fun hmem => ?_
  obtain ⟨hconn, hlen⟩ := h.name_ne hmem
  exact hname.elim hconn hlen

/-- The map of the parser is that of the response with the headers that were added. -/
lemma insertMany_eq :
    (∅ : Std.ExtTreeMap Bytes Bytes).insertMany (r.firstHeaders ++ r.headers_.toList) =
      r.sentHeaders := by
  have hconn := h.getElem?_added (.inl rfl)
  have hlen := h.getElem?_added (.inr rfl)
  rw [Std.ExtTreeMap.insertMany_append]
  refine Std.ExtTreeMap.ext_getElem? fun k => ?_
  rw [getElem?_insertMany_toList]
  unfold firstHeaders sentHeaders
  cases r.closeConnection_ with
  | true =>
    simp only [if_true, Std.ExtTreeMap.insertMany_cons, Std.ExtTreeMap.insertMany_nil,
      Std.ExtTreeMap.getElem?_insert, Std.compare_eq_iff_eq]
    by_cases hk : connection = k
    · rw [if_pos hk, if_pos hk, ← hk, hconn, Option.none_or]
    · rw [if_neg hk, if_neg hk, Std.ExtTreeMap.getElem?_empty, Option.or_none]
  | false =>
    simp only [Bool.false_eq_true, if_false, Std.ExtTreeMap.insertMany_cons,
      Std.ExtTreeMap.insertMany_nil, Std.ExtTreeMap.getElem?_insert, Std.compare_eq_iff_eq]
    by_cases hk : connection = k
    · rw [if_pos hk, if_pos hk, ← hk, hconn, Option.none_or]
    · rw [if_neg hk, if_neg hk]
      by_cases hk' : contentLength = k
      · rw [if_pos hk', if_pos hk', ← hk', hlen, Option.none_or]
      · rw [if_neg hk', if_neg hk', Std.ExtTreeMap.getElem?_empty, Option.or_none]

/-- No CRLF comes before the end of the status line. -/
lemma statusLine_free : search Buffer.kCRLF r.statusLine = none := by
  refine search_eq_none fun c hc => ?_
  rw [statusLine, List.mem_append, List.mem_append, List.mem_cons] at hc
  rcases hc with (hc | hc) | rfl | hc
  · revert c
    decide +kernel
  · exact fun h13 => not_mem_unsignedText (by rw [h13]; decide) hc
  · decide
  · exact (h.message c hc).1

end Sendable

/-! ## The round trip -/

open HttpContext in
/-- **Responses are read as they were sent.**  `appendToBuffer` puts the status line into an empty
buffer, and behind it octets from which the parser, expecting headers, takes the headers that were
set and those that were added, and leaves the body. -/
theorem response_round_trip {r : HttpResponse} (h : r.Sendable) {output : Buffer}
    (houtput : output.WF) (hempty : output.readable = []) :
    ∃ b rest, r.appendToBuffer output = .ok b ∧ b.WF ∧
      b.readable = r.statusLine ++ Buffer.kCRLF ++ rest ∧
      search Buffer.kCRLF b.readable = some r.statusLine.length ∧
      ∀ (c : HttpContext) (input : Buffer) (t : Timestamp), c.state_ = .kExpectHeaders →
        c.request_.headers_ = ∅ → input.WF → input.readable = rest →
        ∃ c' input', c.parseRequest input t = .ok (c', input', true) ∧ c'.gotAll = true ∧
          c'.request_.headers_ = r.sentHeaders ∧ input'.readable = r.body_ := by
  obtain ⟨b, happ, hwf, hread⟩ := puts_appendToBuffer h.body output houtput
  rw [hempty, List.nil_append] at hread
  have hfirst : search Buffer.kCRLF b.readable = some r.statusLine.length := by
    rw [hread]
    exact search_append_pair (by decide) _ h.statusLine_free
  refine ⟨b, r.afterStatusLine, happ, hwf, hread, hfirst, ?_⟩
  rintro ⟨st, q⟩ input t rfl hq hinput hrest
  have hrun := LineParser.run_append_of_stopped _
    (run_plain (t := t) (fun x hx => h.plain hx) q) r.body_
  rw [← afterStatusLine, ← hrest] at hrun
  obtain ⟨input', hreq, -, hleft⟩ := parseRequest_of_run (.inr rfl) hinput hrun
  refine ⟨_, input', hreq, rfl, ?_, hleft⟩
  have hmap : q.headers_ = ∅ := hq
  show q.headers_.insertMany _ = _
  rw [hmap, h.insertMany_eq]

/-- `200 OK` with a content type and a body of two octets. -/
def twoOctets : HttpResponse :=
  ((((ctor false).setStatusCode .k200Ok).setStatusMessage (octets ['O', 'K'])).setContentType
    (octets ['t', 'e', 'x', 't'])).setBody (octets ['h', 'i'])

lemma twoOctets_sendable : twoOctets.Sendable := by
  have hget : ∀ {name v : Bytes}, twoOctets.headers_[name]? = some v →
      name = octets ['C', 'o', 'n', 't', 'e', 'n', 't', '-', 'T', 'y', 'p', 'e'] ∧
        v = octets ['t', 'e', 'x', 't'] := by
    intro name v hv
    simp only [twoOctets, setBody, setContentType, addHeader, setStatusMessage, setStatusCode, ctor,
      Std.ExtTreeMap.getElem?_insert, Std.compare_eq_iff_eq, Std.ExtTreeMap.getElem?_empty] at hv
    split at hv
    case isTrue hname => exact ⟨hname.symm, (Option.some.inj hv).symm⟩
    case isFalse => cases hv
  have hname : ∀ {name : Bytes}, name ∈ twoOctets.headers_ →
      name = octets ['C', 'o', 'n', 't', 'e', 'n', 't', '-', 'T', 'y', 'p', 'e'] :=
    fun hmem => (hget (Std.ExtTreeMap.getElem?_eq_some_getElem hmem)).1
  constructor
  case message => decide +kernel
  case body => decide
  case value | value_head | value_last =>
    intro name v hv
    rw [(hget hv).2]
    decide +kernel
  case name | name_ne =>
    intro name hmem
    rw [hname hmem]
    decide +kernel

/-- A response that keeps the connection, written into a new buffer. -/
theorem response_round_trip_twoOctets :
    ∃ b rest, twoOctets.appendToBuffer (Buffer.ofInitialSize Buffer.kInitialSize) = .ok b ∧ b.WF ∧
      b.readable = twoOctets.statusLine ++ Buffer.kCRLF ++ rest ∧
      search Buffer.kCRLF b.readable = some twoOctets.statusLine.length ∧
      ∀ (c : HttpContext) (input : Buffer) (t : Timestamp), c.state_ = .kExpectHeaders →
        c.request_.headers_ = ∅ → input.WF → input.readable = rest →
        ∃ c' input', c.parseRequest input t = .ok (c', input', true) ∧ c'.gotAll = true ∧
          c'.request_.headers_ = twoOctets.sentHeaders ∧ input'.readable = twoOctets.body_ :=
  response_round_trip twoOctets_sendable (Buffer.ofInitialSize_wf _)
    (Buffer.readable_ofInitialSize _)

end HttpResponse

/-! ## `onRequest` -/

namespace HttpServer

open HttpRequest HttpResponse

/-- The callback that a server has before `setHttpCallback`. -/
def defaultHttpCallback (_request : HttpRequest) (response : HttpResponse) : HttpResponse :=
  ((response.setStatusCode .k404NotFound).setStatusMessage
    (octets ['N', 'o', 't', ' ', 'F', 'o', 'u', 'n', 'd'])).setCloseConnection true

/-- Whether the response starts out as one that closes the connection. -/
def closes (request : HttpRequest) : Bool :=
  request.getHeader connection = close ∨
    (request.version_ = .kHttp10 ∧ request.getHeader connection ≠ keepAlive)

/-- `onRequest`: the user's callback fills in the response. -/
def onRequest (httpCallback : HttpRequest → HttpResponse → HttpResponse) (request : HttpRequest) :
    Except Fault (List HttpEffect) := do
  let response := httpCallback request (HttpResponse.ctor (closes request))
  let buf ← response.appendToBuffer (Buffer.ofInitialSize Buffer.kInitialSize)
  .ok (.send buf.readable :: if response.closeConnection_ then [.shutdown] else [])

/-- A request is answered by one message, and the connection is shut down if the response says
so. -/
theorem onRequest_spec {httpCallback : HttpRequest → HttpResponse → HttpResponse}
    {request : HttpRequest} {response : HttpResponse}
    (hresponse : httpCallback request (HttpResponse.ctor (closes request)) = response)
    (hbody : response.body_.length < 10 ^ 13) :
    onRequest httpCallback request =
      .ok (.send (response.statusLine ++ Buffer.kCRLF ++ response.afterStatusLine) ::
        if response.closeConnection_ then [.shutdown] else []) := by
  obtain ⟨b, happ, -, hread⟩ :=
    puts_appendToBuffer hbody _ (Buffer.ofInitialSize_wf Buffer.kInitialSize)
  rw [Buffer.readable_ofInitialSize, List.nil_append] at hread
  simp only [onRequest, hresponse, happ, ok_bind, hread]

end HttpServer

end Firey
