import Firey.Http.Server

/-!
# The rounds of `parseRequest`

In two of the four states a round does nothing, and the loop would never end.  `onMessage` keeps
the parser out of them: it resets the context whenever the request is complete, and nothing ever
sets `kExpectBody`.  In the other two states each round that goes on takes a line with its CRLF out
of the buffer (`round_spec`), two octets at least.

`calls_end` says this of every call that `onMessage` makes, whatever arrives and in whatever
pieces.
-/

set_option autoImplicit false

namespace Firey

namespace HttpContext

/-! ## A round -/

variable {t : Timestamp} {b : Buffer}

/-- **A round.**  In a state in which something is expected, a round that goes on leads to such a
state, and takes a CRLF at least. -/
theorem round_spec {c : HttpContext} (hc : c.Expects) (hb : b.WF) :
    Returns (· = .assertion .setMethod)
      (Round.Meets (fun s => s.1.Expects ∧ s.2.WF ∧ s.2.readableBytes + 2 ≤ b.readableBytes)
        fun _ => True) (round t (c, b)) := by
  rcases hline : (requestParser t).nextLine b.readable with _ | ⟨u, v⟩
  · rw [round_none hc hline]
    trivial
  · obtain ⟨b', hwf, hread, hround⟩ := round_some hc hb hline
    have hlen : b'.readableBytes + 2 ≤ b.readableBytes := by
      have hcut : v.length + 2 + u.length = b.readable.length :=
        LineParser.length_of_nextLine _ hline
      rw [hb.length_readable, ← hread, hwf.length_readable] at hcut
      omega
    have hverdict := line_spec (t := t) hc u
    rw [hround]
    rcases hd : (requestParser t).line c u with e | ⟨c'⟩ | ⟨c'⟩ | ⟨c'⟩
    · rwa [hd] at hverdict
    · rw [hd] at hverdict
      exact ⟨hverdict, hwf, hlen⟩
    · trivial
    · trivial

/-- What holds at the head of the loop. -/
def AtHead (s : HttpContext × Buffer) : Prop := s.1.Expects ∧ s.2.WF

lemma rounds_shrinks : (rounds t).Shrinks AtHead (fun s => s.2.readableBytes) 2 where
  pos := by decide
  keeps := by
    rintro ⟨c, b⟩ s ⟨hc, hb⟩ hstep
    have hround := round_spec (t := t) hc hb
    rw [show round t (c, b) = .ok (.goesOn s) from hstep] at hround
    exact ⟨hround.1, hround.2.1⟩
  lowers := by
    rintro ⟨c, b⟩ s ⟨hc, hb⟩ hstep
    have hround := round_spec (t := t) hc hb
    rw [show round t (c, b) = .ok (.goesOn s) from hstep] at hround
    exact hround.2.2

/-! ## Calls -/

/-- A call is entered in a state in which something is expected, comes to no other state at the
head of its loop, takes two octets at least in each round that goes on, and so returns. -/
structure CallEnds (t : Timestamp) (c : HttpContext) (b : Buffer) : Prop where
  enters : c.Expects
  heads : ∀ s, (rounds t).Heads (c, b) s → s.1.Expects
  lowers : ∀ s s', (rounds t).Heads (c, b) s → (rounds t).Continues s s' →
    s'.2.readableBytes + 2 ≤ s.2.readableBytes
  finite : ¬ ∃ f : ℕ → HttpContext × Buffer,
    f 0 = (c, b) ∧ ∀ k, (rounds t).Continues (f k) (f (k + 1))
  returns : ∀ n, b.readableBytes / 2 < n → parseLoop t n c b = c.parseRequest b t
  fails : Returns (· = .assertion .setMethod) (fun _ => True) (c.parseRequest b t)

theorem parseRequest_ends {c : HttpContext} (hc : c.Expects) (hb : b.WF) : CallEnds t c b := by
  have hs : AtHead (c, b) := ⟨hc, hb⟩
  have hfuel : b.readableBytes / 2 < b.readableBytes + 1 := by omega
  refine ⟨hc, fun s h => (rounds_shrinks.of_heads hs h).1, fun s s' h hstep => ?_,
    rounds_shrinks.no_endless hs, fun n hn => ?_, ?_⟩
  · exact rounds_shrinks.lowers (rounds_shrinks.of_heads hs h) hstep
  · exact rounds_shrinks.run_eq hs hn hfuel
  · exact rounds_shrinks.run_rule
      (fun s hs => (round_spec hs.1 hs.2).imp fun r hr => hr.imp fun _ _ => trivial) hs hfuel

end HttpContext

namespace HttpSession

open HttpContext

/-- **Every call ends.**  Whatever arrives, in any chunks, each call of `parseRequest` that
`onMessage` makes is entered where something is expected, and ends. -/
theorem calls_end (as : List Arrival) :
    machine.Along (fun s a => ∃ b, s.inputBuffer.append a.chunk = .ok b ∧
      CallEnds a.receiveTime s.context b) start as := by
  refine machine.along_of_invariant (I := Inv) (Q := fun _ => True) ?_ ?_ start_inv
    (fun _ _ => trivial)
  · intro s a h _
    obtain ⟨b, happ, hwf, -⟩ := Buffer.append_spec h.buffer a.chunk
    exact ⟨b, happ, parseRequest_ends h.expects hwf⟩
  · intro s a t h _ hstep
    have hstep : s.step a = .ok t := hstep
    rcases step_refines h a with ⟨e, -, herr⟩ | ⟨o, b, -, hok, hinv, -⟩
    · rw [hstep] at herr
      cases herr
    · rw [hstep] at hok
      cases hok
      exact hinv

end HttpSession

end Firey
