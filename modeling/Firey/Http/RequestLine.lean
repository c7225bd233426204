import Firey.Http.Request

/-!
# `HttpContextff::processRequestLine`

The function cuts the line at two spaces and the target at its first `?`, and then compares
the version by `std::equal` over ranges of the line.  The last of these ranges ends one
character early, so of `HTTP/1.c` and `HTTP/2.c` the final character is never read: the first
is always taken for `kHttp10` and the comparison for `kHttp11` is never reached
(`versionOf_eq_some_iff`).  `processRequestLine_grammar_iff` says for which lines this leaves
the grammar intact.

A line that is refused has set the method all the same if it names one
(`processRequestLine_spec`).
-/

set_option autoImplicit false

namespace Firey

namespace HttpRequest

/-! ## The function -/

/-- `std::equal(first, last, literal)` looks at as many characters of the literal as the range
has. -/
def equal (range literal : Bytes) : Bool := range = literal.take range.length

/-- The version set for the range from `start` to `end`, if the function succeeds on it. -/
def versionOf (v : Bytes) : Option Version :=
  if v.length = 8 ∧ equal (v.take (v.length - 3)) (octets ['H', 'T', 'T', 'P', '/']) then
    -- the range from `end-3` to `end-1`
    let number := (v.drop (v.length - 3)).take 2
    if equal number (octets ['1', '.', '0']) then some .kHttp10
    else if equal number (octets ['1', '.', '1']) then some .kHttp11
    else if equal number (octets ['2', '.', '0']) then some .kHttp20
    else none
  else none

/-- The path and the query; the query keeps its `?`. -/
def setTarget (r : HttpRequest) (target : Bytes) : HttpRequest :=
  match cut QUESTION target with
  | (path, some query) => (r.setPath path).setQuery (QUESTION :: query)
  | (_, none) => r.setPath target

/-- What is done with the line behind the method. -/
def processRest (r : HttpRequest) (rest : Bytes) : HttpRequest × Bool :=
  match cut SP rest with
  | (_, none) => (r, false)
  | (target, some version) =>
      match versionOf version with
      | some v => ((r.setTarget target).setVersion v, true)
      | none => (r.setTarget target, false)

def processRequestLine (r : HttpRequest) (line : Bytes) : Except Fault (HttpRequest × Bool) :=
  match cut SP line with
  | (_, none) => .ok (r, false)
  | (method, some rest) => do
      let (r, known) ← r.setMethod method
      .ok (if known then r.processRest rest else (r, false))

/-! ## Versions -/

/-- `HTTP/1.c`. -/
def http1 (c : Byte) : Bytes := octets ['H', 'T', 'T', 'P', '/', '1', '.'] ++ [c]

/-- `HTTP/2.c`. -/
def http2 (c : Byte) : Bytes := octets ['H', 'T', 'T', 'P', '/', '2', '.'] ++ [c]

/-- The three versions of the source have the minor digits `0`, `1` and `0`. -/
lemma versionToString_kHttp10 : versionToString .kHttp10 = http1 48 := by decide

lemma versionToString_kHttp11 : versionToString .kHttp11 = http1 49 := by decide

lemma versionToString_kHttp20 : versionToString .kHttp20 = http2 48 := by decide

lemma http1_inj {c d : Byte} (h : http1 c = http1 d) : c = d := by
  simpa [http1] using h

lemma http2_inj {c d : Byte} (h : http2 c = http2 d) : c = d := by
  simpa [http2] using h

/-- The shape of eight octets whose parts are known. -/
lemma eq_of_parts {v number : Bytes} (hlen : v.length = 8)
    (hname : v.take 5 = octets ['H', 'T', 'T', 'P', '/']) (hnum : (v.drop 5).take 2 = number) :
    ∃ c, v = octets ['H', 'T', 'T', 'P', '/'] ++ number ++ [c] := by
  obtain ⟨c, hc⟩ : ∃ c, v.drop 7 = [c] := by
    apply List.length_eq_one_iff.mp
    rw [List.length_drop, hlen]
  refine ⟨c, ?_⟩
  rw [← hname, ← hnum, ← hc, List.append_assoc]
  have hsplit : (v.drop 5).take 2 ++ v.drop 7 = v.drop 5 := by
    have hdrop : v.drop 7 = (v.drop 5).drop 2 := by rw [List.drop_drop]
    rw [hdrop, List.take_append_drop]
  rw [hsplit, List.take_append_drop]

/-- **Versions.**  What is accepted as a version is `HTTP/1.c` or `HTTP/2.c`, with any
character in the last place. -/
lemma versionOf_eq_some_iff {v : Bytes} {x : Version} :
    versionOf v = some x ↔
      ∃ c, (v = http1 c ∧ x = .kHttp10) ∨ (v = http2 c ∧ x = .kHttp20) := by
  constructor
  · intro h
    unfold versionOf at h
    split at h
    · next hparts =>
      obtain ⟨hlen, hname⟩ := hparts
      simp only [equal, hlen, decide_eq_true_eq, List.length_take, List.length_drop] at hname h
      split_ifs at h with h10 h11 h20
      · obtain ⟨c, hc⟩ := eq_of_parts hlen hname h10
        exact ⟨c, Or.inl ⟨hc, (Option.some.inj h).symm⟩⟩
      · -- the characters compared are the same as before, so this branch is dead
        exact absurd h11 h10
      · obtain ⟨c, hc⟩ := eq_of_parts hlen hname h20
        exact ⟨c, Or.inr ⟨hc, (Option.some.inj h).symm⟩⟩
    · cases h
  · rintro ⟨c, ⟨rfl, rfl⟩ | ⟨rfl, rfl⟩⟩
    · rfl
    · rfl

/-! ## Lines -/

/-- `m SP t SP v`. -/
def lineOf (m : Method) (t v : Bytes) : Bytes := methodToString m ++ SP :: (t ++ SP :: v)

/-- The parts of a line can be told from it. -/
lemma lineOf_inj {m m' : Method} {t t' v v' : Bytes} (ht : SP ∉ t) (ht' : SP ∉ t')
    (h : lineOf m t v = lineOf m' t' v') : m = m' ∧ t = t' ∧ v = v' := by
  have hcut := congrArg (cut SP) h
  rw [lineOf, lineOf, cut_append _ (SP_not_mem_methodToString m),
    cut_append _ (SP_not_mem_methodToString m')] at hcut
  obtain ⟨hm, hrest⟩ := Prod.mk.inj hcut
  have hcut' := congrArg (cut SP) (Option.some.inj hrest)
  rw [cut_append _ ht, cut_append _ ht'] at hcut'
  obtain ⟨ht, hv⟩ := Prod.mk.inj hcut'
  refine ⟨?_, ht, Option.some.inj hv⟩
  rw [← methodOf_methodToString m, hm, methodOf_methodToString]

/-- The line names a method of the source and goes on behind it. -/
def NamesMethod (line : Bytes) (m : Method) (rest : Bytes) : Prop :=
  m ≠ .kInvalid ∧ line = methodToString m ++ SP :: rest

/-- A line either names a method or leaves the request alone. -/
lemma processRequestLine_cases {r : HttpRequest} (hr : r.method_ = .kInvalid) (line : Bytes) :
    (∃ m rest, NamesMethod line m rest ∧
        r.processRequestLine line = .ok (({ r with method_ := m } : HttpRequest).processRest rest))
      ∨ ((¬ ∃ m rest, NamesMethod line m rest) ∧
        r.processRequestLine line = .ok (r, false)) := by
  unfold processRequestLine
  rcases hcut : cut SP line with ⟨w, _ | rest⟩
  · refine Or.inr ⟨?_, rfl⟩
    rintro ⟨m, rest, -, rfl⟩
    rw [cut_append _ (SP_not_mem_methodToString m)] at hcut
    cases hcut
  · simp only [setMethod_fresh hr, ok_bind, decide_eq_true_eq]
    by_cases hm : methodOf w = .kInvalid
    · refine Or.inr ⟨?_, ?_⟩
      · rintro ⟨m, rest', hne, rfl⟩
        rw [cut_append _ (SP_not_mem_methodToString m)] at hcut
        obtain ⟨rfl, -⟩ := Prod.mk.inj hcut
        exact hne ((methodOf_methodToString m).symm.trans hm)
      · rw [if_neg (not_not_intro hm), hm, ← hr]
    · refine Or.inl ⟨methodOf w, rest, ⟨hm, ?_⟩, ?_⟩
      · rw [methodToString_methodOf hm]
        exact cut_eq_some hcut
      · rw [if_pos hm]

/-- `processRest` on a target without spaces and whatever stands behind it. -/
lemma processRest_append {r : HttpRequest} {t : Bytes} (ht : SP ∉ t) (v : Bytes) :
    r.processRest (t ++ SP :: v) =
      match versionOf v with
      | some x => ((r.setTarget t).setVersion x, true)
      | none => (r.setTarget t, false) := by
  rw [processRest, cut_append v ht]

@[simp] lemma setTarget_method (r : HttpRequest) (t : Bytes) :
    (r.setTarget t).method_ = r.method_ := by
  unfold setTarget
  split <;> rfl

@[simp] lemma processRest_method (r : HttpRequest) (rest : Bytes) :
    (r.processRest rest).1.method_ = r.method_ := by
  unfold processRest
  split
  · rfl
  · split <;> simp [setVersion]

/-- The path is the part of the target before the first `?`, and the query is the rest. -/
lemma setTarget_parts {r : HttpRequest} (hq : r.query_ = []) (t : Bytes) :
    (r.setTarget t).path_ = t.takeWhile (· ≠ QUESTION) ∧
      (r.setTarget t).path_ ++ (r.setTarget t).query_ = t := by
  unfold setTarget
  have hfst := cut_fst QUESTION t
  rcases hcut : cut QUESTION t with ⟨path, _ | query⟩
  · rw [hcut] at hfst
    obtain ⟨hpath, -⟩ := cut_eq_none hcut
    refine ⟨?_, ?_⟩
    · rw [← hfst, ← hpath]
      rfl
    · show t ++ r.query_ = t
      rw [hq, List.append_nil]
  · rw [hcut] at hfst
    refine ⟨hfst, ?_⟩
    exact (cut_eq_some hcut).symm

/-- A line of the right shape on a request without a method. -/
lemma processRequestLine_lineOf {r : HttpRequest} (hr : r.method_ = .kInvalid) {m : Method}
    (hm : m ≠ .kInvalid) {t v : Bytes} {x : Version} (ht : SP ∉ t) (hv : versionOf v = some x) :
    r.processRequestLine (lineOf m t v) =
      .ok (((({ r with method_ := m } : HttpRequest).setTarget t).setVersion x), true) := by
  have hcut : cut SP (lineOf m t v) = (methodToString m, some (t ++ SP :: v)) :=
    cut_append _ (SP_not_mem_methodToString m)
  simp only [processRequestLine, hcut, setMethod_fresh hr, ok_bind, decide_eq_true_eq,
    methodOf_methodToString, if_pos hm, processRest_append ht, hv]

/-- A line that is accepted has the right shape. -/
lemma lineOf_of_accepted {r r' : HttpRequest} (hr : r.method_ = .kInvalid) {line : Bytes}
    (h : r.processRequestLine line = .ok (r', true)) :
    ∃ m t v x, m ≠ .kInvalid ∧ SP ∉ t ∧ versionOf v = some x ∧ line = lineOf m t v := by
  rcases processRequestLine_cases hr line with ⟨m, rest, ⟨hm, hline⟩, hok⟩ | ⟨-, hok⟩
  · rw [hok] at h
    have hrest := Except.ok.inj h
    unfold processRest at hrest
    rcases hcut : cut SP rest with ⟨t, _ | v⟩
    · rw [hcut] at hrest
      cases hrest
    · have ht : SP ∉ t := by
        have hfree := cut_fst_not_mem SP rest
        rwa [hcut] at hfree
      simp only [hcut] at hrest
      rcases hv : versionOf v with _ | x
      · rw [hv] at hrest
        cases hrest
      · refine ⟨m, t, v, x, hm, ht, hv, ?_⟩
        rw [hline, cut_eq_some hcut, lineOf]
  · rw [hok] at h
    cases h

/-- A request line up to the last character, which may be anything. -/
def Acceptable (line : Bytes) : Prop :=
  ∃ m t c, m ≠ .kInvalid ∧ SP ∉ t ∧ (line = lineOf m t (http1 c) ∨ line = lineOf m t (http2 c))

lemma Acceptable.namesMethod {line : Bytes} (h : Acceptable line) :
    ∃ m rest, NamesMethod line m rest := by
  obtain ⟨m, t, c, hm, -, rfl | rfl⟩ := h
  · exact ⟨m, _, hm, rfl⟩
  · exact ⟨m, _, hm, rfl⟩

/-- Only the assertion of `setMethod` can fail. -/
lemma processRequestLine_error {r : HttpRequest} {line : Bytes} {e : Fault}
    (h : r.processRequestLine line = .error e) : e = .assertion .setMethod := by
  unfold processRequestLine at h
  split at h
  · cases h
  · by_cases hm : r.method_ = .kInvalid
    · rw [setMethod_fresh hm, ok_bind] at h
      cases h
    · rw [setMethod_twice hm, error_bind] at h
      exact (Except.error.inj h).symm

/-- **Request lines.**  On a request without a method the function returns, accepts the
acceptable lines, and leaves the request alone only if the line names no method. -/
theorem processRequestLine_spec {r : HttpRequest} (hr : r.method_ = .kInvalid) (line : Bytes) :
    ∃ r' ok, r.processRequestLine line = .ok (r', ok) ∧ (ok = true ↔ Acceptable line) ∧
      (r' = r ↔ ¬ ∃ m rest, NamesMethod line m rest) := by
  by_cases hacc : Acceptable line
  · have hnames := hacc.namesMethod
    obtain ⟨m, t, c, hm, ht, hline⟩ := hacc
    obtain ⟨v, x, hv, rfl⟩ : ∃ v x, versionOf v = some x ∧ line = lineOf m t v := by
      rcases hline with rfl | rfl
      · exact ⟨_, _, versionOf_eq_some_iff.mpr ⟨c, Or.inl ⟨rfl, rfl⟩⟩, rfl⟩
      · exact ⟨_, _, versionOf_eq_some_iff.mpr ⟨c, Or.inr ⟨rfl, rfl⟩⟩, rfl⟩
    refine ⟨_, _, processRequestLine_lineOf hr hm ht hv, ?_, ?_⟩
    · exact ⟨fun _ => ⟨m, t, c, hm, ht, hline⟩, fun _ => rfl⟩
    · refine ⟨fun hsame => absurd ?_ hm, fun hno => absurd hnames hno⟩
      have hmethod := congrArg method_ hsame
      rw [hr] at hmethod
      rw [← hmethod, setVersion, setTarget_method]
  · have hrefused : ∀ r', r.processRequestLine line ≠ .ok (r', true) := by
      intro r' h
      obtain ⟨m, t, v, x, hm, ht, hv, rfl⟩ := lineOf_of_accepted hr h
      obtain ⟨c, ⟨rfl, -⟩ | ⟨rfl, -⟩⟩ := versionOf_eq_some_iff.mp hv
      · exact hacc ⟨m, t, c, hm, ht, Or.inl rfl⟩
      · exact hacc ⟨m, t, c, hm, ht, Or.inr rfl⟩
    rcases processRequestLine_cases hr line with ⟨m, rest, hnames, hok⟩ | ⟨hno, hok⟩
    · rcases hrest : ({ r with method_ := m } : HttpRequest).processRest rest with ⟨r', ok⟩
      rw [hrest] at hok
      refine ⟨r', ok, hok, ⟨fun h => ?_, fun h => absurd h hacc⟩, fun hsame => ?_, fun hno => ?_⟩
      · rw [h] at hok
        exact absurd hok (hrefused r')
      · have hmethod := processRest_method { r with method_ := m } rest
        rw [hrest, hsame, hr] at hmethod
        exact absurd hmethod.symm hnames.1
      · exact absurd ⟨m, rest, hnames⟩ hno
    · refine ⟨r, false, hok, ⟨fun h => ?_, fun h => absurd h hacc⟩, fun _ => hno, fun _ => rfl⟩
      cases h

/-! ## The grammar -/

/-- A request line of the grammar. -/
structure RequestLine where
  method : Method
  target : Bytes
  version : Version
  method_ne : method ≠ .kInvalid
  target_free : SP ∉ target
  version_ne : version ≠ .kUnknown

/-- The line as it is sent. -/
def RequestLine.encode (p : RequestLine) : Bytes :=
  lineOf p.method p.target (versionToString p.version)

lemma versionToString_inj {x y : Version} (h : versionToString x = versionToString y) : x = y := by
  cases x <;> cases y <;> first | rfl | exact absurd h (by decide)

/-- The grammar is unambiguous. -/
lemma RequestLine.encode_inj {p q : RequestLine} (h : p.encode = q.encode) : p = q := by
  obtain ⟨m, t, v, _, hfree, _⟩ := p
  obtain ⟨m', t', v', _, hfree', _⟩ := q
  obtain ⟨hm, ht, hv⟩ := lineOf_inj hfree hfree' h
  rw [RequestLine.mk.injEq]
  exact ⟨hm, ht, versionToString_inj hv⟩

/-- On a fresh request the function accepts `line` exactly if it is in the grammar, and then
the request says what the line says. -/
def MeetsGrammar (line : Bytes) : Prop :=
  ∃ r ok, ctor.processRequestLine line = .ok (r, ok) ∧
    (ok = true ↔ ∃ p : RequestLine, line = p.encode) ∧
    ∀ p : RequestLine, line = p.encode →
      r.method_ = p.method ∧ r.path_ ++ r.query_ = p.target ∧
        r.path_ = p.target.takeWhile (· ≠ QUESTION) ∧ r.version_ = p.version

/-- The line ends in `HTTP/1.c` or `HTTP/2.c` for a `c` other than `0`. -/
def OtherMinor (line : Bytes) : Prop :=
  ∃ m t c, m ≠ .kInvalid ∧ SP ∉ t ∧ c ≠ (48 : Byte) ∧
    (line = lineOf m t (http1 c) ∨ line = lineOf m t (http2 c))

/-- The versions of the grammar whose minor digit is `0`. -/
lemma versionOf_versionToString {x : Version} (hx : x = .kHttp10 ∨ x = .kHttp20) :
    versionOf (versionToString x) = some x := by
  rcases hx with rfl | rfl <;> decide

/-- What the function makes of a line of the grammar whose minor digit is `0`. -/
lemma processRequestLine_encode (p : RequestLine)
    (hx : p.version = .kHttp10 ∨ p.version = .kHttp20) :
    ∃ r, ctor.processRequestLine p.encode = .ok (r, true) ∧
      r.method_ = p.method ∧ r.path_ ++ r.query_ = p.target ∧
        r.path_ = p.target.takeWhile (· ≠ QUESTION) ∧ r.version_ = p.version := by
  have hline := processRequestLine_lineOf (r := ctor) rfl p.method_ne p.target_free
    (versionOf_versionToString hx)
  obtain ⟨hpath, hquery⟩ :=
    setTarget_parts (r := { ctor with method_ := p.method }) rfl p.target
  exact ⟨_, hline, setTarget_method _ _, hquery, hpath, rfl⟩

/-- A line of the grammar with minor digit `1` is an exception, so without exceptions the
version is one of the other two. -/
lemma RequestLine.version_cases {p : RequestLine} (h : ¬ OtherMinor p.encode) :
    p.version = .kHttp10 ∨ p.version = .kHttp20 := by
  rcases hv : p.version with _ | _ | _ | _
  · exact absurd hv p.version_ne
  · exact Or.inl rfl
  · refine absurd ⟨p.method, p.target, 49, p.method_ne, p.target_free, by decide, Or.inl ?_⟩ h
    rw [RequestLine.encode, hv, versionToString_kHttp11]
  · exact Or.inr rfl

/-- What is accepted as a version is that version, or an exception. -/
lemma version_or_otherMinor {v : Bytes} {x : Version} (hv : versionOf v = some x) :
    v = versionToString x ∧ x ≠ .kUnknown ∨ ∃ c, c ≠ 48 ∧ (v = http1 c ∨ v = http2 c) := by
  obtain ⟨c, ⟨rfl, rfl⟩ | ⟨rfl, rfl⟩⟩ := versionOf_eq_some_iff.mp hv
  · by_cases hc : c = 48
    · exact Or.inl ⟨by rw [hc, versionToString_kHttp10], by decide⟩
    · exact Or.inr ⟨c, hc, Or.inl rfl⟩
  · by_cases hc : c = 48
    · exact Or.inl ⟨by rw [hc, versionToString_kHttp20], by decide⟩
    · exact Or.inr ⟨c, hc, Or.inr rfl⟩

/-- A line that is accepted and is no exception is in the grammar. -/
lemma encode_of_accepted {r : HttpRequest} {line : Bytes} (hline : ¬ OtherMinor line)
    (h : ctor.processRequestLine line = .ok (r, true)) : ∃ p : RequestLine, line = p.encode := by
  obtain ⟨m, t, v, x, hm, ht, hv, rfl⟩ := lineOf_of_accepted rfl h
  rcases version_or_otherMinor hv with ⟨rfl, hx⟩ | ⟨c, hc, rfl | rfl⟩
  · exact ⟨⟨m, t, x, hm, ht, hx⟩, rfl⟩
  · exact absurd ⟨m, t, c, hm, ht, hc, Or.inl rfl⟩ hline
  · exact absurd ⟨m, t, c, hm, ht, hc, Or.inr rfl⟩ hline

/-- A line accepted as a version that it does not have is not treated by the grammar. -/
lemma not_meetsGrammar_of_version {m : Method} {t v : Bytes} {x : Version} (hm : m ≠ .kInvalid)
    (ht : SP ∉ t) (hv : versionOf v = some x) (hne : v ≠ versionToString x) :
    ¬ MeetsGrammar (lineOf m t v) := by
  rintro ⟨r, ok, hproc, hiff, hsame⟩
  rw [processRequestLine_lineOf rfl hm ht hv] at hproc
  obtain ⟨hr, hok⟩ := Prod.mk.inj (Except.ok.inj hproc)
  obtain ⟨p, hp⟩ := hiff.mp hok.symm
  obtain ⟨-, -, hver⟩ := lineOf_inj ht p.target_free hp
  obtain ⟨-, -, -, hsame⟩ := hsame p hp
  rw [← hsame, ← hr] at hver
  exact hne hver

lemma not_meetsGrammar_of_otherMinor {line : Bytes} (h : OtherMinor line) :
    ¬ MeetsGrammar line := by
  obtain ⟨m, t, c, hm, ht, hc, rfl | rfl⟩ := h
  · refine not_meetsGrammar_of_version hm ht (x := .kHttp10) rfl fun h => hc ?_
    exact http1_inj (h.trans versionToString_kHttp10)
  · refine not_meetsGrammar_of_version hm ht (x := .kHttp20) rfl fun h => hc ?_
    exact http2_inj (h.trans versionToString_kHttp20)

/-- **The request-line grammar.**  `processRequestLine` follows the grammar on a line exactly
if the line does not end in `HTTP/1.c` or `HTTP/2.c` for a `c` other than `0`. -/
theorem processRequestLine_grammar_iff (line : Bytes) :
    MeetsGrammar line ↔ ¬ OtherMinor line := by
  refine ⟨fun h hother => not_meetsGrammar_of_otherMinor hother h, fun h => ?_⟩
  by_cases hp : ∃ p : RequestLine, line = p.encode
  · obtain ⟨p, rfl⟩ := hp
    obtain ⟨r, hproc, hsame⟩ := processRequestLine_encode p (RequestLine.version_cases h)
    refine ⟨r, true, hproc, ⟨fun _ => ⟨p, rfl⟩, fun _ => rfl⟩, fun q hq => ?_⟩
    rw [← RequestLine.encode_inj hq]
    exact hsame
  · obtain ⟨r, ok, hproc, -⟩ := processRequestLine_spec (r := ctor) rfl line
    refine ⟨r, ok, hproc, ⟨fun hok => ?_, fun hex => absurd hex hp⟩, fun q hq => absurd ⟨q, hq⟩ hp⟩
    rw [hok] at hproc
    exact encode_of_accepted h hproc

/-- `GET / HTTP/1.1`. -/
def http11Line : Bytes := lineOf .kGet [47] (versionToString .kHttp11)

/-- The line most clients send is taken for a request of `HTTP/1.0`. -/
theorem processRequestLine_grammar_fails_http11 :
    (∃ r, ctor.processRequestLine http11Line = .ok r ∧ r.2 = true ∧ r.1.version_ = .kHttp10) ∧
      ¬ MeetsGrammar http11Line := by
  refine ⟨⟨_, rfl, rfl, rfl⟩, not_meetsGrammar_of_otherMinor ?_⟩
  exact ⟨.kGet, [47], 49, by decide, by decide, by decide, Or.inl (by decide)⟩

end HttpRequest

end Firey
