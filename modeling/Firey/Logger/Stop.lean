import Firey.Logger.Conservation

/-!
# `stop`, and the lines it leaves behind

After `stop()` the logging thread takes the queue once more or not at all: once where it is
past the test of `running_` and has not swapped yet, and not at all elsewhere, for it leaves at
the next test.  So `stop_drains` is an equivalence, and what it needs is known when `stop()` is
called.
-/

set_option autoImplicit false

namespace Firey

/-- Past the test of `running_`, and before the swap. -/
def LogPhase.beforeSwap : LogPhase → Bool
  | .lock => true
  | .waiting => true
  | _ => false

namespace AsyncLogging

/-- The lines in the buffers that some iteration took. -/
def decided (s : AsyncLogging) : List Bytes :=
  s.iterations.flatMap Iteration.lines ++ linesOf s.taken

/-- The lines that are still to be swapped out. -/
def queued (s : AsyncLogging) : List Bytes := linesOf (s.buffers ++ [s.currentBuffer])

/-- What `stop()` returning in `t` promises, where it was called in `s`: the iterations took
the lines that were appended by then, and the file has what they made of them. -/
structure Drained (s t : AsyncLogging) : Prop where
  lines : s.appended <+: t.iterations.flatMap Iteration.lines
  octets : t.output = t.iterations.flatMap Iteration.octets
  settled : ∀ i ∈ t.iterations, i.Settled

variable {s t : AsyncLogging}

lemma Inv.appended_eq (h : s.Inv) : s.appended = s.decided ++ s.queued := h.lines

/-! ## What a step does -/

lemma append_frame {line : Bytes} (hstep : s.append line = .ok t) :
    t.appended = s.appended ++ [line] ∧ t.phase = s.phase ∧ t.running = s.running ∧
      t.stop = s.stop ∧ t.iterations = s.iterations ∧ t.bufferToWrite = s.bufferToWrite := by
  unfold append at hstep
  obtain ⟨c, _, hstep⟩ := bind_eq_ok hstep
  split at hstep
  · simp only [Except.ok.injEq] at hstep
    subst hstep
    exact ⟨rfl, rfl, rfl, rfl, rfl, rfl⟩
  · obtain ⟨fresh, _, hstep⟩ := bind_eq_ok hstep
    obtain ⟨_, _, hstep⟩ := bind_eq_ok hstep
    simp only [Except.ok.injEq] at hstep
    subst hstep
    exact ⟨rfl, rfl, rfl, rfl, rfl, rfl⟩

/-- A step of the logging thread that is not the swap. -/
structure Stays (s t : AsyncLogging) : Prop where
  appended : t.appended = s.appended
  buffers : t.buffers = s.buffers
  current : t.currentBuffer = s.currentBuffer
  running : t.running = s.running
  stop : t.stop = s.stop
  phase : s.running = false → t.phase.beforeSwap = s.phase.beforeSwap
  finished : s.phase = .finished → t.phase = .finished

lemma next_frame {time : Bytes} (hstep : s.next time = .ok t) :
    s.Stays t ∨ s.phase.beforeSwap = true ∧ t = s.swap := by
  unfold next at hstep
  split at hstep
  next hphase =>
    left
    unfold testRunning at hstep
    split at hstep
    next hrunning =>
      obtain ⟨_, _, hstep⟩ := bind_eq_ok hstep
      obtain ⟨_, _, hstep⟩ := bind_eq_ok hstep
      obtain ⟨_, _, hstep⟩ := bind_eq_ok hstep
      simp only [Except.ok.injEq] at hstep
      subst hstep
      exact ⟨rfl, rfl, rfl, rfl, rfl, fun h => absurd hrunning (by simp [h]), by simp [hphase]⟩
    · simp only [Except.ok.injEq] at hstep
      subst hstep
      exact ⟨rfl, rfl, rfl, rfl, rfl, fun _ => by simp [hphase, LogPhase.beforeSwap], fun _ => rfl⟩
  next hphase =>
    split at hstep <;> simp only [Except.ok.injEq] at hstep <;> subst hstep
    · exact Or.inl ⟨rfl, rfl, rfl, rfl, rfl, fun _ => by simp [hphase, LogPhase.beforeSwap],
        by simp [hphase]⟩
    · exact Or.inr ⟨by simp [hphase, LogPhase.beforeSwap], rfl⟩
  next hphase =>
    simp only [Except.ok.injEq] at hstep
    subst hstep
    exact Or.inr ⟨by simp [hphase, LogPhase.beforeSwap], rfl⟩
  next hphase =>
    left
    unfold drop at hstep
    obtain ⟨_, _, hstep⟩ := bind_eq_ok hstep
    split at hstep <;> simp only [Except.ok.injEq] at hstep <;> subst hstep <;>
      exact ⟨rfl, rfl, rfl, rfl, rfl, fun _ => by simp [hphase, LogPhase.beforeSwap],
        by simp [hphase]⟩
  next done hphase =>
    left
    split at hstep
    · obtain ⟨b, _, hstep⟩ := bind_eq_ok hstep
      simp only [Except.ok.injEq] at hstep
      subst hstep
      exact ⟨rfl, rfl, rfl, rfl, rfl, fun _ => by simp [hphase, LogPhase.beforeSwap],
        by simp [hphase]⟩
    · unfold endIteration at hstep
      obtain ⟨⟨n1, bs⟩, _, hstep⟩ := bind_eq_ok hstep
      obtain ⟨⟨n2, rest⟩, _, hstep⟩ := bind_eq_ok hstep
      simp only [Except.ok.injEq] at hstep
      subst hstep
      exact ⟨rfl, rfl, rfl, rfl, rfl, fun _ => by simp [hphase, LogPhase.beforeSwap],
        by simp [hphase]⟩
  next hphase =>
    simp only [Except.ok.injEq] at hstep
    subst hstep
    exact Or.inl ⟨rfl, rfl, rfl, rfl, rfl, fun _ => rfl, fun h => h⟩

/-- The swap leaves nothing behind. -/
lemma swap_queued (h : s.Inv) (hidle : s.isIdle = true) : s.swap.queued = [] := by
  obtain ⟨⟨h1, -, h3⟩, -⟩ := h.idle hidle
  unfold queued swap
  dsimp only
  rw [h1, h3]
  rfl

/-! ## After the call -/

/-- `running_` is cleared. -/
structure Stopping (s : AsyncLogging) : Prop where
  inv : s.Inv
  running : s.running = false
  joined : s.stop = .returned → s.phase = .finished

/-- What a step can do to what has been decided: nothing, or, if it is the swap, everything. -/
def Decides (s t : AsyncLogging) : Prop :=
  t.decided = s.decided ∧ t.phase.beforeSwap = s.phase.beforeSwap ∨
    s.phase.beforeSwap = true ∧ t.phase.beforeSwap = false ∧ t.decided = s.appended

lemma isIdle_of_beforeSwap (h : s.phase.beforeSwap = true) : s.isIdle = true := by
  unfold LogPhase.beforeSwap at h
  unfold isIdle
  split at h <;> simp_all

lemma next_stopping (h : s.Stopping) {time : Bytes} (hstep : s.next time = .ok t) :
    t.Stopping ∧ s.Decides t ∧ t.appended = s.appended := by
  obtain ⟨u, hu, hinv⟩ := next_inv h.inv time
  rw [hstep] at hu
  obtain rfl := Except.ok.inj hu
  rcases next_frame hstep with hstays | ⟨hbefore, rfl⟩
  · refine ⟨⟨hinv, hstays.running.trans h.running,
      fun hret => hstays.finished (h.joined (hstays.stop ▸ hret))⟩,
      Or.inl ⟨?_, hstays.phase h.running⟩, hstays.appended⟩
    have heq : t.decided ++ s.queued = s.decided ++ s.queued := by
      calc t.decided ++ s.queued = t.decided ++ t.queued := by
            rw [queued, queued, hstays.buffers, hstays.current]
        _ = s.decided ++ s.queued := by
            rw [← hinv.appended_eq, hstays.appended, h.inv.appended_eq]
    exact List.append_cancel_right heq
  · refine ⟨⟨hinv, h.running, fun hret => ?_⟩, Or.inr ⟨hbefore, rfl, ?_⟩, rfl⟩
    · rw [h.joined hret] at hbefore
      exact nomatch hbefore
    · have happended := hinv.appended_eq
      rw [swap_queued h.inv (isIdle_of_beforeSwap hbefore), List.append_nil] at happended
      exact happended.symm

lemma step_stopping (h : s.Stopping) {i : LogInput} (hstep : s.step i = .ok t) :
    t.Stopping ∧ s.Decides t ∧ s.appended <+: t.appended := by
  have hinv := step_ok h.inv hstep
  unfold step at hstep
  split at hstep
  next line =>
    obtain ⟨happended, hphase, hrunning, hstop, hiterations, htoWrite⟩ := append_frame hstep
    refine ⟨⟨hinv, hrunning.trans h.running, fun hret => ?_⟩, Or.inl ⟨?_, ?_⟩, ?_⟩
    · rw [hphase]
      exact h.joined (hstop ▸ hret)
    · rw [decided, decided, hiterations, taken, taken, hphase, htoWrite]
    · rw [hphase]
    · rw [happended]
      exact List.prefix_append _ _
  next time =>
    obtain ⟨hstopping, hdecides, happended⟩ := next_stopping h hstep
    exact ⟨hstopping, hdecides, happended ▸ List.prefix_refl _⟩
  · split at hstep <;> simp only [Except.ok.injEq] at hstep <;> subst hstep
    · exact ⟨⟨hinv, rfl, fun hret => by cases hret⟩, Or.inl ⟨rfl, rfl⟩, List.prefix_refl _⟩
    · exact ⟨h, Or.inl ⟨rfl, rfl⟩, List.prefix_refl _⟩
  · split at hstep <;> simp only [Except.ok.injEq] at hstep <;> subst hstep
    next hjoin =>
      exact ⟨⟨hinv, h.running, fun _ => hjoin.2⟩, Or.inl ⟨rfl, rfl⟩, List.prefix_refl _⟩
    · exact ⟨h, Or.inl ⟨rfl, rfl⟩, List.prefix_refl _⟩

/-- The lines will have been decided when the thread leaves. -/
def Draining (lines : List Bytes) (s : AsyncLogging) : Prop :=
  if s.phase.beforeSwap then lines <+: s.appended else lines <+: s.decided

lemma step_draining {lines : List Bytes} (h : s.Stopping) (hdraining : s.Draining lines)
    {i : LogInput} (hstep : s.step i = .ok t) : t.Draining lines := by
  obtain ⟨_, hdecides, happended⟩ := step_stopping h hstep
  unfold Draining at hdraining ⊢
  rcases hdecides with ⟨hdecided, hphase⟩ | ⟨hbefore, hafter, hdecided⟩
  · rw [hphase, hdecided]
    split at hdraining
    next hbefore =>
      rw [if_pos hbefore]
      exact hdraining.trans happended
    next hbefore =>
      rw [if_neg hbefore]
      exact hdraining
  · rw [if_pos hbefore] at hdraining
    rw [hafter, hdecided]
    exact hdraining

/-- When the thread is joined, what was decided is in the file. -/
lemma Stopping.returned (h : s.Stopping) (hret : s.stop = .returned) :
    s.decided = s.iterations.flatMap Iteration.lines ∧
      s.output = s.iterations.flatMap Iteration.octets ∧ s.phase.beforeSwap = false := by
  have hphase := h.joined hret
  have hidle : s.isIdle = true := by rw [isIdle, hphase]
  obtain ⟨-, -, houtput⟩ := h.inv.idle hidle
  refine ⟨?_, houtput, by rw [hphase]; rfl⟩
  rw [decided, taken, hphase, linesOf_nil, List.append_nil]

/-- Where the swap is behind the thread, `stop()` lets nothing more through. -/
lemma run_decided {js : List LogInput} (h : s.Stopping) (hbefore : s.phase.beforeSwap = false)
    (hrun : machine.run s js = .ok t) : t.decided = s.decided := by
  have hkept := machine.run_invariant
    (I := fun u => u.Stopping ∧ u.phase.beforeSwap = false ∧ u.decided = s.decided) ?_
    ⟨h, hbefore, rfl⟩ hrun
  · exact hkept.2.2
  · rintro u i v ⟨hu, hphase, hdecided⟩ hstep
    obtain ⟨hv, hdecides, -⟩ := step_stopping hu hstep
    rcases hdecides with ⟨hsame, hstay⟩ | ⟨hbad, -, -⟩
    · exact ⟨hv, hstay.trans hphase, hsame.trans hdecided⟩
    · rw [hphase] at hbad
      exact nomatch hbad

/-! ## What is written when `stop` has returned -/

/-- **`stop` drains the log exactly when the thread is about to swap, or has nothing to take.** -/
theorem stop_drains {is js : List LogInput} (hrun : machine.run start is = .ok s)
    (hstop : s.stop = .notCalled) (hjoin : machine.run s (.stop :: js) = .ok t)
    (hret : t.stop = .returned) :
    s.Drained t ↔ s.phase.beforeSwap = true ∨ s.queued = [] := by
  have hinv : s.Inv := machine.run_invariant (fun u i v hu h => step_ok hu h) start_inv hrun
  have hfirst : machine.step s .stop = .ok { s with running := false, stop := .joining } :=
    if_pos hstop
  rw [machine.run_cons_ok hfirst] at hjoin
  have hstopping : ({ s with running := false, stop := .joining }).Stopping :=
    ⟨step_ok (i := .stop) hinv hfirst, rfl, fun h => nomatch h⟩
  have hend : t.Stopping :=
    machine.run_invariant (fun u i v hu h => (step_stopping hu h).1) hstopping hjoin
  obtain ⟨hdecided, houtput, hafter⟩ := hend.returned hret
  constructor
  · intro hdrained
    by_contra hneither
    obtain ⟨hbefore, hqueued⟩ := not_or.mp hneither
    have hsame : t.decided = { s with running := false, stop := .joining }.decided :=
      run_decided hstopping (Bool.eq_false_iff.mpr hbefore) hjoin
    change t.decided = s.decided at hsame
    have hlines := hdrained.lines
    rw [← hdecided, hsame, hinv.appended_eq] at hlines
    have hlen := hlines.length_le
    rw [List.length_append] at hlen
    exact hqueued (List.eq_nil_of_length_eq_zero (by omega))
  · intro hcase
    have hdraining : ({ s with running := false, stop := .joining }).Draining s.appended := by
      unfold Draining
      split
      · exact List.prefix_refl _
      next hbefore =>
        rcases hcase with hcase | hcase
        · exact absurd hcase hbefore
        · have happended := hinv.appended_eq
          rw [hcase, List.append_nil] at happended
          exact happended ▸ List.prefix_refl _
    have hlines : t.Stopping ∧ t.Draining s.appended :=
      machine.run_invariant (I := fun u => u.Stopping ∧ u.Draining s.appended)
        (fun u i v hu h => ⟨(step_stopping hu.1 h).1, step_draining hu.1 hu.2 h⟩)
        ⟨hstopping, hdraining⟩ hjoin
    have hdrained := hlines.2
    rw [Draining, hafter] at hdrained
    exact ⟨hdecided ▸ hdrained, houtput, hend.inv.settled⟩

/-- The thread waits for lines when `stop()` is called. -/
theorem stop_drains_waiting : ∃ s t : AsyncLogging,
    (machine.run start [.next [], .next [], .append [104]] = .ok s ∧
      machine.run s [.stop, .next [], .next [], .next [], .next [], .next [], .joined] = .ok t ∧
      t.stop = .returned) ∧
    (s.Drained t ↔ s.phase.beforeSwap = true ∨ s.queued = []) :=
  ⟨_, _, ⟨rfl, rfl, rfl⟩, stop_drains
    (show machine.run start [.next [], .next [], .append [104]] = .ok _ from rfl) rfl
    (show machine.run _ (.stop :: [.next [], .next [], .next [], .next [], .next [], .joined]) =
      .ok _ from rfl) rfl⟩

/-- A line is appended and `stop()` called while the thread has yet to test `running_`: the
thread leaves, and the file is empty. -/
theorem stop_loses_line : ∃ s t : AsyncLogging,
    machine.run start [.append [104]] = .ok s ∧ s.stop = .notCalled ∧
      machine.run s [.stop, .next [], .joined] = .ok t ∧ t.stop = .returned ∧
      s.appended = [[104]] ∧ t.output = [] ∧ t.iterations = [] ∧ ¬ s.Drained t :=
  ⟨_, _, rfl, rfl, rfl, rfl, rfl, rfl, rfl, fun h => absurd h.lines.length_le (by decide)⟩

end AsyncLogging

end Firey
