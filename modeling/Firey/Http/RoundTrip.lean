import Firey.Http.Segmentation

/-!
# Requests, sent and received

What a client sends for a request is given field by field, and what the callback gets is read
back field by field (`Decodes`).  The requests are a `Code` for the parser, as in the account
of segmentation, but with header fields in place of raw lines and with every version token that
the parser accepts.  Messages that arrive by themselves are taken one by one
(`Code.run_messages`), and `session_lockstep` carries this to `onMessage`.
-/

set_option autoImplicit false

namespace Firey

open HttpRequest

/-- A header field: no colon in the name, no CRLF in either part, and no white space around the
value. -/
structure HttpField where
  name : Bytes
  value : Bytes
  name_colon : COLON ∉ name
  name_free : search Buffer.kCRLF name = none
  value_free : search Buffer.kCRLF value = none
  value_head : ∀ c ∈ value.head?, isspace c = false
  value_last : ∀ c ∈ value.getLast?, isspace c = false

/-- A request as a client has it. -/
structure HttpMessage where
  method : Method
  target : Bytes
  version : Bytes
  fields : List HttpField
  method_ne : method ≠ .kInvalid
  target_free : SP ∉ target
  target_line : search Buffer.kCRLF target = none
  version_ok : (versionOf version).isSome = true

namespace HttpField

/-- `name: value`. -/
def line (f : HttpField) : Bytes := f.name ++ COLON :: SP :: f.value

lemma cut_line (f : HttpField) : cut COLON f.line = (f.name, some (SP :: f.value)) :=
  cut_append _ f.name_colon

lemma line_free (f : HttpField) : search Buffer.kCRLF f.line = none := by
  have hvalue : search Buffer.kCRLF ([] ++ SP :: f.value) = none :=
    search_append_cons_eq_none (by decide) (by decide) f.value_free rfl
  exact search_append_cons_eq_none (by decide) (by decide) hvalue f.name_free

/-- The space behind the colon is the only white space to go. -/
lemma headerValue_line (f : HttpField) : headerValue (SP :: f.value) = f.value := by
  have hhead : f.value.dropWhile isspace = f.value := by
    rcases hv : f.value with _ | ⟨c, cs⟩
    · rfl
    · have hc := f.value_head c (by rw [hv]; rfl)
      rw [List.dropWhile_cons_of_neg (by rw [hc]; exact Bool.false_ne_true)]
  have hlast : f.value.rdropWhile isspace = f.value := by
    rw [List.rdropWhile_eq_self_iff]
    intro hne
    rw [f.value_last _ (List.getLast?_eq_getLast_of_ne_nil hne)]
    exact Bool.false_ne_true
  rw [headerValue, List.dropWhile_cons_of_pos (by decide), hhead, hlast]

lemma takeHeader_line (f : HttpField) (q : HttpRequest) :
    WireRequest.takeHeader q f.line = { q with headers_ := q.headers_.insert f.name f.value } := by
  rw [WireRequest.takeHeader, f.cut_line]
  dsimp only
  rw [addHeader, f.headerValue_line]

open WireRequest HttpContext in
/-- Fields are taken one by one, to the empty line. -/
lemma run_fields {t : Timestamp} (q : HttpRequest) (fs : List HttpField) :
    (requestParser t).run ⟨.kExpectHeaders, q⟩ (encodeHeaders (fs.map HttpField.line)) =
      .ok ⟨.stopped, ⟨.kGotAll, (fs.map HttpField.line).foldl takeHeader q⟩, []⟩ := by
  apply run_encodeHeaders
  · intro h hh
    obtain ⟨f, -, rfl⟩ := List.mem_map.mp hh
    exact f.line_free
  · intro h hh
    obtain ⟨f, -, rfl⟩ := List.mem_map.mp hh
    exact List.mem_append_right _ List.mem_cons_self

/-- The header lines are taken one by one. -/
lemma takeHeaders (fs : List HttpField) (q : HttpRequest) :
    (fs.map HttpField.line).foldl WireRequest.takeHeader q =
      { q with headers_ := fs.foldl (fun m f => m.insert f.name f.value) q.headers_ } := by
  induction fs generalizing q with
  | nil => rfl
  | cons f fs ih => rw [List.map_cons, List.foldl_cons, f.takeHeader_line, ih, List.foldl_cons]

end HttpField

namespace HttpMessage

open WireRequest HttpContext

/-- `METHOD SP target SP version CRLF (name: value CRLF)* CRLF`. -/
def encode (r : HttpMessage) : Bytes :=
  lineOf r.method r.target r.version ++ Buffer.kCRLF ++ encodeHeaders (r.fields.map HttpField.line)

/-- The value a name has in the request: that of its last field. -/
def field? (r : HttpMessage) (name : Bytes) : Option Bytes :=
  (r.fields.reverse.find? (·.name = name)).map HttpField.value

/-- What the callback gets is the request that was sent: each of its parts, and no other
header. -/
structure Decodes (r : HttpMessage) (q : HttpRequest) : Prop where
  method : q.method_ = r.method
  target : q.path_ ++ q.query_ = r.target
  path : q.path_ = r.target.takeWhile (· ≠ QUESTION)
  version : some q.version_ = versionOf r.version
  headers : ∀ name, q.headers_[name]? = r.field? name

/-! ## What the parser makes of a request -/

/-- The request after its first line. -/
def first (r : HttpMessage) : HttpRequest :=
  (({ HttpRequest.ctor with method_ := r.method } : HttpRequest).setTarget r.target).setVersion
    ((versionOf r.version).getD .kUnknown)

/-- The context at the end of the request. -/
def value (r : HttpMessage) : HttpContext :=
  ⟨.kGotAll, (r.fields.map HttpField.line).foldl takeHeader r.first⟩

lemma versionOf_version (r : HttpMessage) :
    versionOf r.version = some ((versionOf r.version).getD .kUnknown) := by
  obtain ⟨x, hx⟩ := Option.isSome_iff_exists.mp r.version_ok
  rw [hx]
  rfl

lemma processRequestLine_first (r : HttpMessage) :
    HttpRequest.ctor.processRequestLine (lineOf r.method r.target r.version) =
      .ok (r.first, true) :=
  processRequestLine_lineOf (r := HttpRequest.ctor) rfl r.method_ne r.target_free
    r.versionOf_version

lemma first_time (r : HttpMessage) : r.first.setReceiveTime 0 = r.first := by
  have htarget := eraseTime_setTarget { HttpRequest.ctor with method_ := r.method } r.target
  exact congrArg (HttpRequest.setVersion · _) htarget

/-- A version token that is accepted has its only free character at the end. -/
lemma version_free (r : HttpMessage) : search Buffer.kCRLF r.version = none := by
  have hlast : ∀ c : Byte, search Buffer.kCRLF [c] = none := by
    intro c
    simp [search, Buffer.kCRLF]
  obtain ⟨c, ⟨hv, -⟩ | ⟨hv, -⟩⟩ := versionOf_eq_some_iff.mp r.versionOf_version
  · rw [hv]
    exact search_append_cons_eq_none (u := octets ['H', 'T', 'T', 'P', '/', '1']) (x := 46)
      (by decide) (by decide) (hlast c) (by decide)
  · rw [hv]
    exact search_append_cons_eq_none (u := octets ['H', 'T', 'T', 'P', '/', '2']) (x := 46)
      (by decide) (by decide) (hlast c) (by decide)

lemma line_free (r : HttpMessage) :
    search Buffer.kCRLF (lineOf r.method r.target r.version) = none := by
  have hmethod : search Buffer.kCRLF (methodToString r.method) = none := by
    rcases r.method <;> decide
  have htail : search Buffer.kCRLF (r.target ++ SP :: r.version) = none :=
    search_append_cons_eq_none (by decide) (by decide) r.version_free r.target_line
  exact search_append_cons_eq_none (by decide) (by decide) htail hmethod

/-- A request is taken whole by a new context. -/
lemma run_encode (r : HttpMessage) :
    (requestParser 0).run HttpContext.ctor r.encode = .ok ⟨.stopped, r.value, []⟩ := by
  have hnext := nextLine_crlf (t := 0) r.line_free (encodeHeaders (r.fields.map HttpField.line))
  have haccept : (requestParser 0).line HttpContext.ctor (lineOf r.method r.target r.version) =
      .ok (.goesOn ⟨.kExpectHeaders, r.first⟩) := by
    rw [line_accepts rfl r.processRequestLine_first, r.first_time]
  rw [encode, LineParser.run_goesOn _ hnext haccept]
  exact HttpField.run_fields r.first r.fields

/-- The requests as messages of the parser. -/
def code : Code Byte HttpContext Fault HttpMessage where
  parser := requestParser 0
  fresh := HttpContext.ctor
  encode := encode
  value := value
  run_encode := run_encode

/-! ## What the callback gets -/

/-- The last field of a name decides. -/
lemma foldl_insert_getElem? (fs : List HttpField) (name : Bytes) :
    (fs.foldl (fun m f => m.insert f.name f.value) (∅ : Std.ExtTreeMap Bytes Bytes))[name]? =
      (fs.reverse.find? (·.name = name)).map HttpField.value := by
  induction fs using List.reverseRecOn with
  | nil => rfl
  | append_singleton fs f ih =>
    rw [List.foldl_append, List.foldl_cons, List.foldl_nil, Std.ExtTreeMap.getElem?_insert,
      List.reverse_append, List.reverse_singleton, List.singleton_append, List.find?_cons]
    simp only [Std.compare_eq_iff_eq]
    by_cases hname : f.name = name
    · rw [if_pos hname, decide_eq_true hname]
      rfl
    · rw [if_neg hname, decide_eq_false hname, ih]

lemma value_decodes (r : HttpMessage) : r.Decodes r.value.request_ := by
  obtain ⟨hpath, htarget⟩ :=
    setTarget_parts (r := { HttpRequest.ctor with method_ := r.method }) rfl r.target
  have hmap : r.first.headers_ = ∅ := by
    unfold first setTarget
    split <;> rfl
  rw [value]
  dsimp only
  rw [HttpField.takeHeaders, hmap]
  exact ⟨setTarget_method _ _, htarget, hpath, r.versionOf_version.symm,
    foldl_insert_getElem? r.fields⟩

/-- The receive time is no part of what was sent. -/
lemma Decodes.of_eraseTime {r : HttpMessage} {q : HttpRequest} (h : r.Decodes q.eraseTime) :
    r.Decodes q :=
  ⟨h.method, h.target, h.path, h.version, h.headers⟩

end HttpMessage

/-! ## The round trip -/

/-- A request and the chunks in which it arrives, by itself. -/
structure Delivery where
  request : HttpMessage
  arrivals : List Arrival
  whole : (arrivals.map Arrival.chunk).flatten = request.encode

namespace HttpSession

open HttpMessage

lemma forall₂_decodes {rs : List HttpMessage} {qs : List HttpRequest}
    (h : qs.map HttpRequest.eraseTime = rs.map fun r => r.value.request_) :
    List.Forall₂ Decodes rs qs := by
  induction rs generalizing qs with
  | nil =>
    rw [List.map_nil, List.map_eq_nil_iff] at h
    rw [h]
    exact List.Forall₂.nil
  | cons r rs ih =>
    rcases qs with _ | ⟨q, qs⟩
    · exact nomatch h
    · rw [List.map_cons, List.map_cons, List.cons.injEq] at h
      exact List.Forall₂.cons (Decodes.of_eraseTime (h.1 ▸ r.value_decodes)) (ih h.2)

lemma deliveries_round_trip (ds : List Delivery) :
    ∃ s, machine.run start (ds.flatMap Delivery.arrivals) = .ok s ∧
      List.Forall₂ Decodes (ds.map Delivery.request) s.dispatched ∧ s.pending = [] := by
  have hwhole : ∀ m ∈ ds.map fun d => (d.request, d.arrivals.map Arrival.chunk),
      m.2.flatten = code.encode m.1 := by
    intro m hm
    obtain ⟨d, -, rfl⟩ := List.mem_map.mp hm
    exact d.whole
  have hrun := code.run_messages _ hwhole []
  have hchunks : (ds.map fun d => (d.request, d.arrivals.map Arrival.chunk)).flatMap Prod.snd =
      (ds.flatMap Delivery.arrivals).map Arrival.chunk := by
    rw [List.flatMap_map, List.map_flatMap]
  rw [hchunks] at hrun
  obtain ⟨s, hs, hshows⟩ := session_lockstep.run_ok start_shows hrun
  refine ⟨s, hs, forall₂_decodes ?_, hshows.pending.symm⟩
  rw [← hshows.dispatched, List.nil_append, List.map_map, List.map_map, List.map_map]
  rfl

/-- **Requests are received as they were sent.**  Behind each request of the list, the callback
has been called once for each of the requests so far, in order and with what was sent, and the
buffer is empty. -/
theorem requests_round_trip (ds : List Delivery) (k : ℕ) :
    ∃ s, machine.run start ((ds.take k).flatMap Delivery.arrivals) = .ok s ∧
      List.Forall₂ Decodes ((ds.take k).map Delivery.request) s.dispatched ∧ s.pending = [] :=
  deliveries_round_trip (ds.take k)

end HttpSession

/-- `Host: a`. -/
def HttpField.host : HttpField where
  name := octets ['H', 'o', 's', 't']
  value := [97]
  name_colon := by decide
  name_free := by decide +kernel
  value_free := by decide +kernel
  value_head := by decide +kernel
  value_last := by decide +kernel

/-- `HEAD /a HTTP/1.1` with one field. -/
def HttpMessage.headIndex : HttpMessage where
  method := .kHead
  target := [47, 97]
  version := octets ['H', 'T', 'T', 'P', '/', '1', '.', '1']
  fields := [.host]
  method_ne := by decide
  target_free := by decide
  target_line := by decide
  version_ok := by decide

/-- It arrives in two pieces. -/
def Delivery.inTwo : Delivery where
  request := .headIndex
  arrivals := [⟨HttpMessage.headIndex.encode.take 15, 1⟩, ⟨HttpMessage.headIndex.encode.drop 15, 2⟩]
  whole := by
    rw [List.map_cons, List.map_singleton, List.flatten_cons, List.flatten_singleton,
      List.take_append_drop]

namespace HttpSession

/-- Twice the same request, after the first one of them. -/
theorem requests_round_trip_inTwo :
    ∃ s, machine.run start (([Delivery.inTwo, .inTwo].take 1).flatMap Delivery.arrivals) = .ok s ∧
      List.Forall₂ HttpMessage.Decodes (([Delivery.inTwo, .inTwo].take 1).map Delivery.request)
        s.dispatched ∧ s.pending = [] :=
  requests_round_trip [.inTwo, .inTwo] 1

end HttpSession

end Firey
