import Firey.Logger.Conservation

/-!
# The logging thread always finds its buffers

`threadFunc` asserts that its two spare buffers are there and empty at the head of its loop, and
takes them back from what it has written at the end.  Two can be taken back because a spare buffer
of `append` that is gone has put a buffer into the queue (`Inv.next`), and dropping buffers leaves
two.  So whatever the order of the calls of `append` with its steps, the thread never fails
(`recycling`); a run can only end in `append`, with a line longer than a buffer.
-/

set_option autoImplicit false

namespace Firey

namespace AsyncLogging

variable {s : AsyncLogging}

/-- The buffers `endIteration` takes its spare buffers from. -/
def written (s : AsyncLogging) : List BufferPtr :=
  if 2 < s.bufferToWrite.length then s.bufferToWrite.take 2 else s.bufferToWrite

/-- A pointer to an empty buffer. -/
def IsSpare (p : BufferPtr) : Prop := ∃ b, p = some b ∧ b.buffer.length = 0

/-- What the assertions of `threadFunc` say, and that the functions go through. -/
structure Supplied (s : AsyncLogging) : Prop where
  /-- `append` has a buffer to fill. -/
  current : s.currentBuffer.isSome = true
  /-- The head of the loop. -/
  spares : s.phase = .testRunning →
    IsSpare s.newBuffer1 ∧ IsSpare s.newBuffer2 ∧ s.bufferToWrite = []
  /-- After the critical section. -/
  swapped : s.phase = .swapped → s.bufferToWrite ≠ []
  /-- The end of the loop's body: the first buffer that is taken back, and the second one. -/
  takenBack : ∀ done, s.phase = .writing done →
    (s.newBuffer1 = none → s.written ≠ []) ∧
      (s.newBuffer2 = none →
        (if s.newBuffer1 = none then s.written.dropLast else s.written) ≠ [])
  /-- No assertion of `threadFunc` fails, and no null pointer is followed. -/
  goes_on : ∀ time, ∃ t, s.next time = .ok t

lemma empty_isSpare : IsSpare (some .empty) := ⟨_, rfl, rfl⟩

/-- At most two of the written buffers are kept for the spare ones, and as many as there are. -/
lemma length_written (s : AsyncLogging) : s.written.length = min 2 s.bufferToWrite.length := by
  unfold written
  split
  · exact List.length_take
  · omega

/-- Where `append` has used its spare buffer two were swapped out, else one is enough. -/
lemma Inv.takenBack (h : s.Inv) {done : ℕ} (hphase : s.phase = .writing done) :
    s.written ≠ [] ∧ (s.newBuffer2 = none → s.written.dropLast ≠ []) := by
  obtain ⟨⟨-, hne, h2⟩, -⟩ := h.writing hphase
  have hlen := s.length_written
  have hpos := List.length_pos_iff.mpr hne
  constructor
  · apply List.ne_nil_of_length_pos
    omega
  · intro hnone
    rcases h2 with h2 | ⟨-, htwo⟩
    · rw [h2] at hnone
      cases hnone
    · apply List.ne_nil_of_length_pos
      rw [List.length_dropLast]
      omega

lemma Inv.supplied (h : s.Inv) : s.Supplied where
  current := by
    obtain ⟨b, hb, -⟩ := h.current
    rw [hb]
    rfl
  spares := by
    intro hphase
    obtain ⟨⟨h1, h2, h3⟩, -⟩ := h.idle (by rw [isIdle, hphase])
    rw [h1, h2]
    exact ⟨empty_isSpare, empty_isSpare, h3⟩
  swapped := by
    intro hphase
    have hspares := h.spares
    rw [Spares, if_neg (by rw [isIdle, hphase]; decide)] at hspares
    exact hspares.2.1
  takenBack := by
    intro done hphase
    obtain ⟨h1, -⟩ := (h.writing hphase).1
    obtain ⟨hfirst, hsecond⟩ := h.takenBack hphase
    rw [if_pos h1]
    exact ⟨fun _ => hfirst, hsecond⟩
  goes_on := by
    intro time
    obtain ⟨t, ht, -⟩ := next_inv h time
    exact ⟨t, ht⟩

/-- The only step that can fail is an `append`, and by its own assertion. -/
lemma step_error (h : s.Inv) {i : LogInput} {e : Fault} (hstep : s.step i = .error e) :
    e = .assertion .asyncAppend := by
  unfold step at hstep
  split at hstep
  · rename_i line
    obtain ⟨c, hc, -⟩ := h.current
    have hfresh := h.fresh
    unfold append at hstep
    rw [hc, BufferPtr.get] at hstep
    simp only [ok_bind] at hstep
    split at hstep
    · cases hstep
    · rw [hfresh, BufferPtr.get] at hstep
      simp only [ok_bind] at hstep
      by_cases hfit : line.length ≤ LogBuffer.empty.buffer.avail
      · rw [check_true hfit] at hstep
        cases hstep
      · rw [check_false hfit] at hstep
        cases hstep
        rfl
  · rename_i time
    obtain ⟨t, ht, -⟩ := next_inv h time
    cases ht.symm.trans hstep
  · split at hstep <;> cases hstep
  · split at hstep <;> cases hstep

/-- **The logging thread never runs dry.**  For every order of the calls of `append`, with lines
of any length, and the steps of the logging thread. -/
theorem recycling (is : List LogInput) :
    machine.Meets ⟨Supplied, fun _ _ => True, fun e => e = .assertion .asyncAppend⟩ start is := by
  apply machine.meets_of_along (P := fun _ _ => True) (I := Inv)
  · exact fun s h => h.supplied
  · exact fun s i t h _ hstep => ⟨step_ok h hstep, trivial⟩
  · exact fun s i e h _ hstep => step_error h hstep
  · exact start_inv
  · exact machine.along_of_forall (fun _ _ => trivial) start is

end AsyncLogging

end Firey
