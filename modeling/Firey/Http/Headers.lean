import Firey.Http.Refusals
import Firey.Http.Segmentation

/-!
# The end of the headers

The header section ends with its first empty line.  `parseRequest` ends it at the first line
without a colon, which the empty line is, but not the only one: the branch for the rest is still to
be written in the source.  A line such as `Host` makes the request complete, and what follows it
stays in the buffer, to be parsed as another request.

`ends_at_empty_line_iff` says that these lines are all that goes wrong, for headers that arrive in
any number of pieces.
-/

set_option autoImplicit false

namespace Firey

open HttpContext WireRequest

/-! ## Header sections -/

/-- Lines of a header section: not empty, and without CRLF. -/
def AreLines (hs : List Bytes) : Prop := ∀ h ∈ hs, h ≠ [] ∧ search Buffer.kCRLF h = none

/-- The octets begin with a header section up to its first empty line, and go on with `rest`. -/
def EndsBefore (received rest : Bytes) : Prop :=
  ∃ hs, AreLines hs ∧ received = encodeHeaders hs ++ rest

/-- Each line that is not empty and comes before the first empty line has a colon. -/
def HasColons (received : Bytes) : Prop :=
  ∀ hs h rest, AreLines hs → h ≠ [] → search Buffer.kCRLF h = none →
    received = (hs.map (· ++ Buffer.kCRLF)).flatten ++ (h ++ Buffer.kCRLF ++ rest) → COLON ∈ h

/-! ## Lines -/

/-- The lines of the library's account. -/
def headerParser : LineParser Byte HttpContext Fault := requestParser 0

lemma encodeHeaders_eq (hs : List Bytes) : encodeHeaders hs = headerParser.joined (hs ++ [[]]) := by
  rw [LineParser.joined_append]
  rfl

lemma flatten_eq (hs : List Bytes) (h rest : Bytes) :
    (hs.map (· ++ Buffer.kCRLF)).flatten ++ (h ++ Buffer.kCRLF ++ rest) =
      headerParser.joined (hs ++ [h]) ++ rest := by
  rw [LineParser.joined_append, LineParser.joined_cons, LineParser.joined_nil, List.append_nil]
  exact (List.append_assoc _ (h ++ Buffer.kCRLF) rest).symm

/-- Two ways to begin the same octets with lines. -/
lemma lines_split {us vs : List Bytes} {l r : Bytes}
    (hus : ∀ u ∈ us, search Buffer.kCRLF u = none) (hvs : ∀ v ∈ vs, search Buffer.kCRLF v = none)
    (h : headerParser.joined us ++ l = headerParser.joined vs ++ r) :
    (∃ ws, vs = us ++ ws ∧ l = headerParser.joined ws ++ r) ∨
      ∃ ws, us = vs ++ ws ∧ r = headerParser.joined ws ++ l :=
  headerParser.joined_split rfl (by decide) hus hvs h

/-- A line and one more behind lines that hold no CRLF. -/
lemma free_concat {us : List Bytes} {u : Bytes} (hus : ∀ x ∈ us, search Buffer.kCRLF x = none)
    (hu : search Buffer.kCRLF u = none) : ∀ x ∈ us ++ [u], search Buffer.kCRLF x = none := by
  intro x hx
  rcases List.mem_append.mp hx with hx | hx
  · exact hus x hx
  · exact List.mem_singleton.mp hx ▸ hu

lemma AreLines.free {hs : List Bytes} (h : AreLines hs) : ∀ x ∈ hs, search Buffer.kCRLF x = none :=
  fun x hx => (h x hx).2

lemma AreLines.nil_not_mem {hs : List Bytes} (h : AreLines hs) : [] ∉ hs :=
  fun hmem => (h [] hmem).1 rfl

/-- A header line with a colon. -/
def IsHeader (u : Bytes) : Prop := search Buffer.kCRLF u = none ∧ COLON ∈ u

lemma areLines_of_isHeader {us : List Bytes} (hus : ∀ u ∈ us, IsHeader u) : AreLines us :=
  fun u hu => ⟨List.ne_nil_of_mem (hus u hu).2, (hus u hu).1⟩

/-- The first empty line of a list is its only one if the list ends with it. -/
lemma eq_nil_of_append {hs us ws : List Bytes} (hne : [] ∉ hs)
    (h : hs ++ [[]] = us ++ [[]] ++ ws) : ws = [] := by
  rcases List.eq_nil_or_concat ws with rfl | ⟨ws, w, rfl⟩
  · rfl
  · rw [List.concat_eq_append, ← List.append_assoc] at h
    obtain ⟨rfl, -⟩ := List.append_inj' h rfl
    exact absurd (List.mem_append_left ws (List.mem_append_right us List.mem_cons_self)) hne

section

variable {us : List Bytes} {received v : Bytes} (hus : ∀ u ∈ us, IsHeader u)

include hus

/-! ### Header lines, and no line behind them -/

/-- What begins with lines begins with some of these. -/
lemma mem_of_waits (hv : headerParser.nextLine v = none) {ks : List Bytes} {w : Bytes}
    (hks : ∀ k ∈ ks, search Buffer.kCRLF k = none)
    (h : headerParser.joined us ++ v = headerParser.joined ks ++ w) : ∀ k ∈ ks, k ∈ us := by
  rcases lines_split (areLines_of_isHeader hus).free hks h with ⟨ws, rfl, hws⟩ | ⟨ws, rfl, -⟩
  · cases ws with
    | nil => simp
    | cons x ws =>
      have hx := hks x (List.mem_append_right us List.mem_cons_self)
      rw [LineParser.joined_cons, List.append_assoc] at hws
      have hnext := headerParser.nextLine_append_mark rfl (by decide) hx
        (headerParser.joined ws ++ w)
      rw [← hws, hv] at hnext
      cases hnext
  · exact fun k hk => List.mem_append_left ws hk

lemma not_endsBefore_of_waits (hv : headerParser.nextLine v = none) (rest : Bytes) :
    ¬ EndsBefore (headerParser.joined us ++ v) rest := by
  rintro ⟨hs, hhs, heq⟩
  rw [encodeHeaders_eq] at heq
  have hmem := mem_of_waits hus hv (free_concat hhs.free rfl) heq []
    (List.mem_append_right hs List.mem_cons_self)
  exact (areLines_of_isHeader hus).nil_not_mem hmem

lemma hasColons_of_waits (hv : headerParser.nextLine v = none) :
    HasColons (headerParser.joined us ++ v) := by
  intro hs h rest hhs hne hfree heq
  rw [flatten_eq] at heq
  have hmem := mem_of_waits hus hv (free_concat hhs.free hfree) heq h
    (List.mem_append_right hs List.mem_cons_self)
  exact (hus h hmem).2

/-! ### Header lines, and an empty line behind them -/

lemma endsBefore_iff_of_empty (rest : Bytes) :
    EndsBefore (headerParser.joined (us ++ [[]]) ++ v) rest ↔ v = rest := by
  have hlines := areLines_of_isHeader hus
  constructor
  · rintro ⟨hs, hhs, heq⟩
    rw [encodeHeaders_eq] at heq
    rcases lines_split (free_concat hlines.free rfl) (free_concat hhs.free rfl) heq with
      ⟨ws, hws, hv⟩ | ⟨ws, hws, hv⟩
    · rw [hv, eq_nil_of_append hhs.nil_not_mem hws, LineParser.joined_nil, List.nil_append]
    · rw [hv, eq_nil_of_append hlines.nil_not_mem hws, LineParser.joined_nil, List.nil_append]
  · rintro rfl
    exact ⟨us, hlines, by rw [encodeHeaders_eq]⟩

lemma hasColons_of_empty : HasColons (headerParser.joined (us ++ [[]]) ++ v) := by
  have hlines := areLines_of_isHeader hus
  intro hs h rest hhs hne hfree heq
  rw [flatten_eq] at heq
  rcases lines_split (free_concat hlines.free rfl) (free_concat hhs.free hfree) heq with
    ⟨ws, hws, -⟩ | ⟨ws, hws, -⟩
  · have hmem : [] ∈ hs ++ [h] := by
      rw [hws]
      simp
    rcases List.mem_append.mp hmem with hmem | hmem
    · exact absurd hmem hhs.nil_not_mem
    · exact absurd (List.mem_singleton.mp hmem).symm hne
  · have hmem : h ∈ us ++ [[]] := by
      rw [hws]
      simp
    rcases List.mem_append.mp hmem with hmem | hmem
    · exact (hus h hmem).2
    · exact absurd (List.mem_singleton.mp hmem) hne

/-! ### Header lines, and a line without a colon behind them -/

variable {u : Bytes} (hfree : search Buffer.kCRLF u = none) (hne : u ≠ [])

include hfree hne

lemma not_hasColons_of_line (hcolon : COLON ∉ u) :
    ¬ HasColons (headerParser.joined (us ++ [u]) ++ v) := by
  intro h
  exact hcolon (h us u v (areLines_of_isHeader hus) hne hfree (flatten_eq us u v).symm)

lemma not_endsBefore_of_line : ¬ EndsBefore (headerParser.joined (us ++ [u]) ++ v) v := by
  rintro ⟨hs, hhs, heq⟩
  rw [encodeHeaders_eq] at heq
  have hsame := headerParser.joined_inj rfl (by decide)
    (free_concat (areLines_of_isHeader hus).free hfree) (free_concat hhs.free rfl)
    (List.append_cancel_right heq)
  obtain ⟨-, hlast⟩ := List.append_inj' hsame rfl
  exact hne (List.singleton_inj.mp hlast)

end

/-! ## Calls of `parseRequest` -/

/-- The parser while it takes the headers, and all octets that it has had for them. -/
structure HeaderPhase where
  context : HttpContext
  buffer : Buffer
  received : Bytes

namespace HeaderPhase

def start (c : HttpContext) (b : Buffer) : HeaderPhase where
  context := c
  buffer := b
  received := b.readable

/-- Octets arrive, and `parseRequest` is called.  It is not called again for a request that is
complete. -/
def step (s : HeaderPhase) (a : Arrival) : Except Fault HeaderPhase :=
  if s.context.gotAll then .ok s
  else do
    let buffer ← s.buffer.append a.chunk
    let (context, buffer, _) ← s.context.parseRequest buffer a.receiveTime
    .ok { context := context, buffer := buffer, received := s.received ++ a.chunk }

def machine : Machine HeaderPhase Arrival Fault := ⟨step⟩

/-- The request is complete if the section's first empty line has arrived, and what is left in the
buffer is what follows that line. -/
def AtEmptyLine (s : HeaderPhase) : Prop :=
  (s.context.gotAll = true ↔ ∃ rest, EndsBefore s.received rest) ∧
    ∀ rest, EndsBefore s.received rest → s.buffer.readable = rest

/-- After each call the parser is at the empty line or has not come to it, and no call fails. -/
def endsAtEmptyLine : RunSpec HeaderPhase Fault where
  good _ := True
  move _ t := t.AtEmptyLine
  stop _ := False

/-- If the headers go on, the lines that have arrived have their colons. -/
def Colons (s : HeaderPhase) (a : Arrival) : Prop :=
  s.context.gotAll = false → HasColons (s.received ++ a.chunk)

/-! ## What a call takes -/

/-- A call while headers are expected takes header lines with a colon, and then waits for the end of
a line, or has come to a line without a colon. -/
lemma parse_takes {t : Timestamp} {c : HttpContext} (hc : c.state_ = .kExpectHeaders) (l : Bytes) :
    ∃ o us, (requestParser t).run c l = .ok o ∧ (∀ u ∈ us, IsHeader u) ∧
      ((o.ending = .waits ∧ o.state.state_ = .kExpectHeaders ∧
          l = headerParser.joined us ++ o.rest ∧ headerParser.nextLine o.rest = none) ∨
        (o.ending = .stopped ∧ o.state.state_ = .kGotAll ∧
          ∃ u, search Buffer.kCRLF u = none ∧ COLON ∉ u ∧
            l = headerParser.joined (us ++ [u]) ++ o.rest)) := by
  have hends := HttpSession.parse_headers (t := t) hc l
  obtain ⟨o, hrun, -⟩ := HttpSession.parse_headers_ok (t := t) hc l
  have hlines := (requestParser t).run_lines (I := fun c => c.state_ = .kExpectHeaders)
    (G := fun u => COLON ∈ u) (S := fun u => COLON ∉ u) ?_ ?_ hc hrun
  · obtain ⟨us, hus, htakes⟩ := hlines
    refine ⟨o, us, hrun, hus, ?_⟩
    rw [hrun] at hends
    rcases o with ⟨_ | _ | _, c', rest⟩
    · exact .inl ⟨rfl, hends, htakes⟩
    · exact .inr ⟨rfl, hends, htakes⟩
    · exact hends.elim
  · intro c u c' hc hline
    rcases hcut : cut COLON u with ⟨field, _ | behind⟩
    · rw [line_last hc hcut] at hline
      cases hline
    · rw [line_header hc hcut] at hline
      cases hline
      exact ⟨hc, cut_eq_some hcut ▸ List.mem_append_right _ List.mem_cons_self⟩
  · intro c u c' hc hline
    rcases hcut : cut COLON u with ⟨field, _ | behind⟩
    · exact (cut_eq_none hcut).2
    · rw [line_header hc hcut] at hline
      cases hline

/-- While the headers go on, header lines with a colon have been taken and the rest is in the
buffer.  Once the request is complete, it is so at the empty line. -/
structure Inv (s : HeaderPhase) : Prop where
  buffer : s.buffer.WF
  expects : s.context.gotAll = false → s.context.state_ = .kExpectHeaders
  taken : s.context.gotAll = false →
    ∃ us, (∀ u ∈ us, IsHeader u) ∧ s.received = headerParser.joined us ++ s.buffer.readable
  complete : s.context.gotAll = true → s.AtEmptyLine

lemma start_inv {c : HttpContext} {b : Buffer} (hc : c.state_ = .kExpectHeaders) (hb : b.WF) :
    (start c b).Inv where
  buffer := hb
  expects := fun _ => hc
  taken := fun _ => ⟨[], nofun, rfl⟩
  complete := by
    intro hgot
    have hst : c.state_ = .kGotAll := of_decide_eq_true hgot
    rw [hc] at hst
    cases hst

/-- A call: header lines with a colon have been taken, and then the parser waits, or it has taken a
line without a colon and the request is complete. -/
lemma step_takes {s : HeaderPhase} (h : s.Inv) (hgot : s.context.gotAll = false) (a : Arrival) :
    ∃ t us, step s a = .ok t ∧ t.buffer.WF ∧ t.received = s.received ++ a.chunk ∧
      (∀ u ∈ us, IsHeader u) ∧
      ((t.context.state_ = .kExpectHeaders ∧
          t.received = headerParser.joined us ++ t.buffer.readable ∧
          headerParser.nextLine t.buffer.readable = none) ∨
        (t.context.gotAll = true ∧ ∃ u, search Buffer.kCRLF u = none ∧ COLON ∉ u ∧
          t.received = headerParser.joined (us ++ [u]) ++ t.buffer.readable)) := by
  obtain ⟨us, hus, hreceived⟩ := h.taken hgot
  have hst := h.expects hgot
  obtain ⟨b, happ, hb, hread⟩ := Buffer.append_spec h.buffer a.chunk
  obtain ⟨o, vs, hrun, hvs, htakes⟩ := parse_takes (t := a.receiveTime) hst b.readable
  obtain ⟨b', hreq, hb', hrest⟩ := parseRequest_of_run (.inr hst) hb hrun
  have hstep : step s a = .ok ⟨o.state, b', s.received ++ a.chunk⟩ := by
    rw [step, if_neg (by rw [hgot]; exact Bool.false_ne_true), happ, ok_bind, hreq, ok_bind]
  have hall : ∀ u ∈ us ++ vs, IsHeader u := by
    intro u hu
    rcases List.mem_append.mp hu with hu | hu
    · exact hus u hu
    · exact hvs u hu
  have hwhole : s.received ++ a.chunk = headerParser.joined us ++ b.readable := by
    rw [hreceived, hread, List.append_assoc]
  refine ⟨_, us ++ vs, hstep, hb', rfl, hall, ?_⟩
  rcases htakes with ⟨-, hstate, hl, hnext⟩ | ⟨-, hstate, u, hfree, hcolon, hl⟩
  · refine .inl ⟨hstate, ?_, hrest ▸ hnext⟩
    show s.received ++ a.chunk = _
    rw [hwhole, hl, hrest, LineParser.joined_append, List.append_assoc]
  · refine .inr ⟨decide_eq_true hstate, u, hfree, hcolon, ?_⟩
    show s.received ++ a.chunk = _
    rw [hwhole, hl, hrest, List.append_assoc us, LineParser.joined_append _ us,
      List.append_assoc]

lemma step_ok {s : HeaderPhase} (h : s.Inv) (a : Arrival) : ∃ t, step s a = .ok t := by
  cases hgot : s.context.gotAll with
  | true => exact ⟨s, by rw [step, if_pos hgot]⟩
  | false =>
    obtain ⟨t, us, hstep, -⟩ := step_takes h hgot a
    exact ⟨t, hstep⟩

/-- Waiting for the end of a line, the parser has not come to the empty line. -/
lemma atEmptyLine_of_waits {s : HeaderPhase} {us : List Bytes} (hus : ∀ u ∈ us, IsHeader u)
    (hgot : s.context.gotAll = false)
    (hreceived : s.received = headerParser.joined us ++ s.buffer.readable)
    (hnext : headerParser.nextLine s.buffer.readable = none) : s.AtEmptyLine := by
  have hnot : ∀ rest, ¬ EndsBefore s.received rest := fun rest =>
    hreceived ▸ not_endsBefore_of_waits hus hnext rest
  refine ⟨⟨fun h => ?_, fun ⟨rest, h⟩ => absurd h (hnot rest)⟩, fun rest h => absurd h (hnot rest)⟩
  rw [hgot] at h
  cases h

lemma atEmptyLine_of_empty {s : HeaderPhase} {us : List Bytes} (hus : ∀ u ∈ us, IsHeader u)
    (hgot : s.context.gotAll = true)
    (hreceived : s.received = headerParser.joined (us ++ [[]]) ++ s.buffer.readable) :
    s.AtEmptyLine := by
  have hiff : ∀ rest, EndsBefore s.received rest ↔ s.buffer.readable = rest := fun rest =>
    hreceived ▸ endsBefore_iff_of_empty hus rest
  exact ⟨⟨fun _ => ⟨_, (hiff _).mpr rfl⟩, fun _ => hgot⟩, fun rest => (hiff rest).mp⟩

lemma step_keeps {s t : HeaderPhase} {a : Arrival} (h : s.Inv) (hcolons : s.Colons a)
    (hstep : step s a = .ok t) : t.Inv ∧ t.AtEmptyLine := by
  cases hgot : s.context.gotAll with
  | true =>
    rw [step, if_pos hgot] at hstep
    cases hstep
    exact ⟨h, h.complete hgot⟩
  | false =>
    have hlines := hcolons hgot
    obtain ⟨t', us, hstep', hb, hreceived, hus, htakes⟩ := step_takes h hgot a
    cases hstep.symm.trans hstep'
    rw [← hreceived] at hlines
    rcases htakes with ⟨hst, hl, hnext⟩ | ⟨hall, u, hfree, hcolon, hl⟩
    · have hnot := HttpSession.not_gotAll_of_expects (.inr hst)
      have hat := atEmptyLine_of_waits hus hnot hl hnext
      exact ⟨⟨hb, fun _ => hst, fun _ => ⟨us, hus, hl⟩, fun _ => hat⟩, hat⟩
    · have hempty : u = [] := by
        by_contra hne
        rw [hl] at hlines
        exact not_hasColons_of_line hus hfree hne hcolon hlines
      rw [hempty] at hl
      have hat := atEmptyLine_of_empty hus hall hl
      refine ⟨⟨hb, fun h => ?_, fun h => ?_, fun _ => hat⟩, hat⟩
      · rw [hall] at h
        cases h
      · rw [hall] at h
        cases h

/-- A line without a colon that is not empty is seen: the request is complete at a line that is not
the section's end. -/
lemma step_seen {s t : HeaderPhase} {a : Arrival} (h : s.Inv) (hcolons : ¬ s.Colons a)
    (hstep : step s a = .ok t) : ¬ t.AtEmptyLine := by
  obtain ⟨hgot, hlines⟩ := Classical.not_imp.mp hcolons
  obtain ⟨t', us, hstep', hb, hreceived, hus, htakes⟩ := step_takes h hgot a
  cases hstep.symm.trans hstep'
  rw [← hreceived] at hlines
  rintro ⟨hiff, hrest⟩
  rcases htakes with ⟨-, hl, hnext⟩ | ⟨hall, u, hfree, hcolon, hl⟩
  · rw [hl] at hlines
    exact hlines (hasColons_of_waits hus hnext)
  · obtain ⟨rest, hends⟩ := hiff.mp hall
    rw [← hrest rest hends, hl] at hends
    by_cases hne : u = []
    · rw [hl, hne] at hlines
      exact hlines (hasColons_of_empty hus)
    · exact not_endsBefore_of_line hus hfree hne hends

/-! ## The end of the headers -/

/-- **The end of the headers.**  From any context that expects headers and with any buffer, in
calls with any octets, the request is complete exactly when the section's first empty line has been
taken, as long as no line before it lacks its colon, and no longer. -/
theorem ends_at_empty_line_iff {c : HttpContext} {b : Buffer} (hc : c.state_ = .kExpectHeaders)
    (hb : b.WF) (as : List Arrival) :
    machine.Meets endsAtEmptyLine (start c b) as ↔ machine.Along Colons (start c b) as := by
  refine machine.meets_iff_along (I := Inv) (fun _ _ => trivial) ?_ ?_ ?_ ?_ (start_inv hc hb)
  · exact fun s a t h hcolons hstep => step_keeps h hcolons hstep
  · intro s a e h _ hstep
    obtain ⟨t, ht⟩ := step_ok h a
    cases ht.symm.trans hstep
  · exact fun s a t h hcolons hstep hgood => step_seen h hcolons hstep hgood.1
  · exact fun s a e _ _ _ hstop => hstop

/-- Headers are expected for a new request, and the buffer is empty. -/
def noHeaders : HeaderPhase :=
  start ⟨.kExpectHeaders, HttpRequest.ctor⟩ (Buffer.ofInitialSize 0)

/-- `Host:a`. -/
def hostA : Bytes := octets ['H', 'o', 's', 't', ':', 'a']

/-- A section with a colon in its line. -/
theorem ends_at_empty_line_hostA :
    machine.Meets endsAtEmptyLine noHeaders [⟨encodeHeaders [hostA], 0⟩] := by
  refine (ends_at_empty_line_iff rfl (Buffer.ofInitialSize_wf _) _).mpr ⟨fun _ => ?_, ?_⟩
  · have hhost : ∀ u ∈ [hostA], IsHeader u := by
      intro u hu
      rw [List.mem_singleton.mp hu]
      exact ⟨by decide, by decide⟩
    have hcolons := hasColons_of_empty (v := []) hhost
    rw [← encodeHeaders_eq, List.append_nil] at hcolons
    exact hcolons
  · split
    · trivial
    · trivial

/-- `Host`, without a colon. -/
def host : Bytes := octets ['H', 'o', 's', 't']

/-- The line ends the request, and the rest of the section stays in the buffer. -/
theorem ends_early_host :
    (∃ t, machine.run noHeaders [⟨encodeHeaders [host, hostA], 0⟩] = .ok t ∧
        t.context.gotAll = true ∧ t.buffer.readable = encodeHeaders [hostA]) ∧
      ¬ machine.Meets endsAtEmptyLine noHeaders [⟨encodeHeaders [host, hostA], 0⟩] := by
  have hone : ∃ t, machine.step noHeaders ⟨encodeHeaders [host, hostA], 0⟩ = .ok t ∧
      t.context.gotAll = true ∧ t.buffer.readable = encodeHeaders [hostA] ∧
        t.received = encodeHeaders [host, hostA] := by
    decide +kernel
  obtain ⟨t, hstep, hgot, hread, hreceived⟩ := hone
  have hrun := machine.run_cons_ok hstep []
  refine ⟨⟨t, hrun, hgot, hread⟩, ?_⟩
  rintro ⟨-, hmeets⟩
  rw [hstep] at hmeets
  have hends : EndsBefore t.received [] := by
    refine ⟨[host, hostA], ?_, by rw [hreceived, List.append_nil]⟩
    unfold AreLines
    decide
  have hrest := hmeets.1.2 [] hends
  rw [hread] at hrest
  exact absurd hrest (by decide)

end HeaderPhase

end Firey
