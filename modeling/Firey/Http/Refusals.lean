import Firey.Http.Server

/-!
# Refused requests

A refused request line stays in the buffer and is parsed again when more octets arrive, with
the request as the first attempt left it.  A line refused before its method is set leaves the
request alone and can be refused again and again.  A line refused late has set the method, and
then the next arrival fails the assertion of `setMethod`: two chunks of a client end the
process (`refusals_fail_missingVersion`).

`refusals_retryable_iff` says that these lines are the only ones: in a run that never meets one
while it expects a request line, every refusal leaves the request as it was and nothing fails,
and a run that meets one is spoilt by it.
-/

set_option autoImplicit false

namespace Firey

namespace HttpSession

open HttpContext HttpRequest

/-! ## The specification -/

/-- The line names a method, so that the method is set, and is refused by what follows. -/
def RefusedLate (line : Bytes) : Prop :=
  (∃ m rest, NamesMethod line m rest) ∧ ¬ Acceptable line

/-- If a request line is expected, the first complete one is not refused late. -/
def Keeps (s : HttpSession) (a : Arrival) : Prop :=
  s.context.state_ = .kExpectRequestLine →
    ∀ n, search Buffer.kCRLF (s.pending ++ a.chunk) = some n →
      ¬ RefusedLate ((s.pending ++ a.chunk).take n)

/-- Each refusal leaves the request as it was, and no assertion fails. -/
def retryable : RunSpec HttpSession Fault where
  good s := ∀ x ∈ s.refusals, x.after = x.before
  move _ _ := True
  stop _ := False

/-- While a request line is expected the request has no method. -/
structure Clean (s : HttpSession) : Prop extends s.Inv where
  fresh : s.context.state_ = .kExpectRequestLine → s.context.request_.method_ = .kInvalid
  kept : retryable.good s

lemma start_clean : start.Clean where
  toInv := start_inv
  fresh _ := rfl
  kept _ h := absurd h List.not_mem_nil

/-! ## One call -/

/-- Behind the request line nothing is refused and nothing fails. -/
lemma parse_headers {t : Timestamp} {c : HttpContext} (hc : c.state_ = .kExpectHeaders)
    (l : Bytes) :
    Returns (fun _ => False)
      (Outcome.Meets (·.state_ = .kExpectHeaders) (·.state_ = .kGotAll) fun _ => False)
      ((requestParser t).run c l) := by
  refine (requestParser t).run_rule (I := fun c => c.state_ = .kExpectHeaders)
    (fun c u hc => ?_) hc l
  rcases hcut : cut COLON u with ⟨field, _ | behind⟩
  · rw [line_last hc hcut]
    rfl
  · rw [line_header hc hcut]
    exact hc

/-- A parse that is past the request line is not refused. -/
lemma parse_headers_ok {t : Timestamp} {c : HttpContext} (hc : c.state_ = .kExpectHeaders)
    (l : Bytes) :
    ∃ o, (requestParser t).run c l = .ok o ∧ o.ending ≠ .refused ∧
      o.state.state_ ≠ .kExpectRequestLine := by
  have hends := parse_headers (t := t) hc l
  rcases hrun : (requestParser t).run c l with e | ⟨_ | _ | _, c', rest⟩
  · rw [hrun] at hends
    exact hends.elim
  · rw [hrun] at hends
    have hst : c'.state_ = .kExpectHeaders := hends
    exact ⟨_, rfl, by simp, by simp [hst]⟩
  · rw [hrun] at hends
    have hst : c'.state_ = .kGotAll := hends
    exact ⟨_, rfl, by simp, by simp [hst]⟩
  · rw [hrun] at hends
    exact hends.elim

/-- A call either refuses nothing, and then the first line was acceptable if it was a request
line, or it refuses its first line and nothing else happens. -/
lemma parse_cases {t : Timestamp} {c : HttpContext} (hc : c.Expects)
    (hfresh : c.state_ = .kExpectRequestLine → c.request_.method_ = .kInvalid) (l : Bytes) :
    (∃ o, (requestParser t).run c l = .ok o ∧ o.ending ≠ .refused ∧
        (o.state.state_ = .kExpectRequestLine → o.state.request_.method_ = .kInvalid) ∧
        (c.state_ = .kExpectRequestLine →
          ∀ n, search Buffer.kCRLF l = some n → Acceptable (l.take n))) ∨
      ∃ n r, c.state_ = .kExpectRequestLine ∧ search Buffer.kCRLF l = some n ∧
        (requestParser t).run c l = .ok ⟨.refused, { c with request_ := r }, l⟩ ∧
        ¬ Acceptable (l.take n) ∧
        (r = c.request_ ↔ ¬ ∃ m rest, NamesMethod (l.take n) m rest) := by
  rcases hc with hc | hc
  · rcases hline : (requestParser t).nextLine l with _ | ⟨u, v⟩
    · refine Or.inl ⟨_, LineParser.run_none _ c hline, by simp, hfresh, fun _ n hn => ?_⟩
      have hsearch := (LineParser.nextLine_eq_none_iff _).mp hline
      exact absurd (hn.symm.trans hsearch) (by simp)
    · obtain ⟨n, hn, rfl, rfl⟩ := LineParser.search_of_nextLine _ hline
      have hn : search Buffer.kCRLF l = some n := hn
      obtain ⟨r, ok, hproc, hok, hsame⟩ := processRequestLine_spec (hfresh hc) (l.take n)
      cases ok with
      | true =>
        obtain ⟨o, hrun, hending, hst⟩ := parse_headers_ok (t := t)
          (c := ⟨.kExpectHeaders, r.setReceiveTime t⟩) rfl
          (l.drop (n + (requestParser t).mark.length))
        refine Or.inl ⟨o, ?_, hending, fun h => absurd h hst, fun _ k hk => ?_⟩
        · rw [LineParser.run_goesOn _ hline (line_accepts hc hproc), hrun]
        · rw [hn] at hk
          rw [← Option.some.inj hk]
          exact hok.mp rfl
      | false =>
        refine Or.inr ⟨n, r, hc, hn, LineParser.run_refuses _ hline (line_refuses hc hproc),
          fun hacc => ?_, hsame⟩
        exact absurd (hok.mpr hacc) (by decide)
  · obtain ⟨o, hrun, hending, hst⟩ := parse_headers_ok (t := t) hc l
    refine Or.inl ⟨o, hrun, hending, fun h => absurd h hst, fun h => ?_⟩
    rw [hc] at h
    cases h

/-- What an arrival does to a clean session. -/
lemma step_cases {s : HttpSession} (h : s.Clean) (a : Arrival) :
    (∃ t, s.step a = .ok t ∧ t.Clean ∧ s.Keeps a) ∨
      ∃ t r, s.step a = .ok t ∧ t.Inv ∧ t.context = { s.context with request_ := r } ∧
        t.refusals = s.refusals ++ [⟨s.context.request_, r⟩] ∧
        (r = s.context.request_ ↔ s.Keeps a) := by
  rcases parse_cases (t := a.receiveTime) h.expects h.fresh (s.pending ++ a.chunk) with
    ⟨o, hrun, hending, hfresh, hacc⟩ | ⟨n, r, hst, hn, hrun, hacc, hsame⟩
  · obtain ⟨b, hstep, hinv, -⟩ := step_of_parse h.toInv hrun
    refine Or.inl ⟨_, hstep, ⟨hinv, ?_, ?_⟩, fun hst n hn hlate => ?_⟩
    · rcases o with ⟨_ | _ | _, c, rest⟩
      · exact hfresh
      · exact fun _ => rfl
      · exact absurd rfl hending
    · rcases o with ⟨_ | _ | _, c, rest⟩
      · exact h.kept
      · exact h.kept
      · exact absurd rfl hending
    · exact hlate.2 (hacc hst n hn)
  · obtain ⟨b, hstep, hinv, -⟩ := step_of_parse h.toInv hrun
    refine Or.inr ⟨_, r, hstep, hinv, rfl, rfl, hsame.trans ⟨?_, ?_⟩⟩
    · intro hno _ k hk hlate
      rw [hn] at hk
      rw [← Option.some.inj hk] at hlate
      exact hno hlate.1
    · intro hkeeps hnames
      exact hkeeps hst n hn ⟨hnames, hacc⟩

/-! ## Runs -/

/-- **Refusals.**  In a run every refusal leaves the request as it was, and no assertion fails,
exactly if no request line that the run comes to is refused late. -/
theorem refusals_retryable_iff (as : List Arrival) :
    machine.Meets retryable start as ↔ machine.Along Keeps start as := by
  refine machine.meets_iff_of_sound (I := Clean) (fun _ h => h.kept) ?_ ?_ start_clean
  · intro s a h hkeeps
    change retryable.Sound _ s (s.step a)
    rcases step_cases h a with ⟨t, ht, hclean, -⟩ | ⟨t, r, ht, hinv, hctx, href, hiff⟩
    · rw [ht]
      exact ⟨hclean, trivial⟩
    · have hr := hiff.mpr hkeeps
      rw [ht]
      refine ⟨⟨hinv, ?_, ?_⟩, trivial⟩
      · rw [hctx, hr]
        exact h.fresh
      · intro x hx
        rw [href, List.mem_append, List.mem_singleton] at hx
        rcases hx with hx | rfl
        · exact h.kept x hx
        · exact hr
  · intro s a h hkeeps
    change retryable.Seen s (s.step a)
    rcases step_cases h a with ⟨t, -, -, hkeeps'⟩ | ⟨t, r, ht, -, -, href, hiff⟩
    · exact absurd hkeeps' hkeeps
    · rw [ht]
      intro hgood
      refine hkeeps (hiff.mp (hgood.2 ⟨s.context.request_, r⟩ ?_))
      rw [href]
      exact List.mem_append_right _ (List.mem_singleton_self _)

/-- `GET /` and the end of the line, without a version; then any octet. -/
def missingVersion : List Arrival :=
  [⟨octets ['G', 'E', 'T', ' ', '/'] ++ Buffer.kCRLF, 0⟩, ⟨octets ['x'], 0⟩]

/-- The first chunk leaves the method set, and the second one ends the process. -/
theorem refusals_fail_missingVersion :
    machine.run start missingVersion = .error (.assertion .setMethod) ∧
      ¬ machine.Meets retryable start missingVersion := by
  have hrun : machine.run start missingVersion = .error (.assertion .setMethod) := by
    decide +kernel
  exact ⟨hrun, fun h => Machine.Meets.stop_of_run _ h hrun⟩

end HttpSession

end Firey
