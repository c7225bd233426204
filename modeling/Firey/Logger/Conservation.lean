import Firey.Logger.AsyncLogging

/-!
# Nothing is lost between `append` and the log file

`Inv` follows the lines through their owners: the buffer that is filled, the queue, the buffers
that were swapped out, and the file.  Buffers change hands whole, so a line stays in the buffer
it was appended to (`Whole`); the spare buffers are empty, and there are always as many as the
next iteration needs (`Spares`).  The buffers dropped under overload stay in the history of
their iteration, after the two that were kept.
-/

set_option autoImplicit false

namespace Firey

/-! ## Buffers and their lines -/

/-- The buffer holds its lines, all of each and nothing else. -/
def Whole (p : BufferPtr) : Prop := ∃ b, p = some b ∧ b.buffer.data = b.lines.flatten

@[simp] lemma octetsOf_nil : octetsOf [] = [] := rfl

@[simp] lemma linesOf_nil : linesOf [] = [] := rfl

@[simp] lemma linesOf_append (bs bs' : List BufferPtr) :
    linesOf (bs ++ bs') = linesOf bs ++ linesOf bs' := List.flatMap_append

@[simp] lemma linesOf_singleton (b : LogBuffer) : linesOf [some b] = b.lines := List.append_nil _

lemma octetsOf_eq {bs : List BufferPtr} (h : ∀ p ∈ bs, Whole p) :
    octetsOf bs = (linesOf bs).flatten := by
  induction bs with
  | nil => rfl
  | cons p bs ih =>
    obtain ⟨b, rfl, hb⟩ := h p List.mem_cons_self
    have hrest := ih fun q hq => h q (List.mem_cons_of_mem _ hq)
    calc octetsOf (some b :: bs) = b.buffer.data ++ octetsOf bs := rfl
      _ = b.lines.flatten ++ (linesOf bs).flatten := by rw [hb, hrest]
      _ = (linesOf (some b :: bs)).flatten := List.flatten_append.symm

lemma empty_whole : Whole (some .empty) := ⟨_, rfl, rfl⟩

/-- A line for which there is room goes into the buffer whole. -/
lemma append_whole {b : LogBuffer} (hb : b.buffer.data = b.lines.flatten) {line : Bytes}
    (hroom : line.length ≤ b.buffer.avail) : Whole (some (b.append line)) := by
  refine ⟨_, rfl, ?_⟩
  simp only [LogBuffer.append, FixedBuffer.append_data hroom, hb, List.flatten_append,
    List.flatten_cons, List.flatten_nil, List.append_nil]

namespace Iteration

def lines (i : Iteration) : List Bytes := linesOf (i.kept ++ i.dropped)

/-- What the file got from the iteration. -/
def octets (i : Iteration) : Bytes := i.notice.getD [] ++ (linesOf i.kept).flatten

/-- An iteration writes all of its buffers, unless there are more than 25; then it writes a
notice of how many it drops, and the first two. -/
def Settled (i : Iteration) : Prop :=
  if 25 < (i.kept ++ i.dropped).length then
    i.kept = (i.kept ++ i.dropped).take 2 ∧
      ∃ time, i.notice = some (AsyncLogging.dropNotice time ((i.kept ++ i.dropped).length - 2))
  else i.notice = none ∧ i.dropped = []

end Iteration

namespace AsyncLogging

/-! ## The invariant -/

/-- The buffers that were swapped out, and of which nothing has been decided yet. -/
def taken (s : AsyncLogging) : List BufferPtr :=
  match s.phase with
  | .swapped => s.bufferToWrite
  | _ => []

/-- The part of `bufferToWrite` that has yet to be written. -/
def unwritten (s : AsyncLogging) : List BufferPtr :=
  match s.phase with
  | .swapped => s.bufferToWrite
  | .writing done => s.bufferToWrite.drop done
  | _ => []

/-- The logging thread has written what it swapped out. -/
def isIdle (s : AsyncLogging) : Bool :=
  match s.phase with
  | .swapped => false
  | .writing _ => false
  | _ => true

/-- The spare buffers: two before the swap; after it those that can be made from what was
swapped out. -/
def Spares (s : AsyncLogging) : Prop :=
  if s.isIdle then
    s.newBuffer1 = some .empty ∧ s.newBuffer2 = some .empty ∧ s.bufferToWrite = []
  else
    s.newBuffer1 = none ∧ s.bufferToWrite ≠ [] ∧
      (s.newBuffer2 = some .empty ∨ s.newBuffer2 = none ∧ 2 ≤ s.bufferToWrite.length)

structure Inv (s : AsyncLogging) : Prop where
  current : Whole s.currentBuffer
  next : s.nextBuffer = some .empty ∨ s.nextBuffer = none ∧ s.buffers ≠ []
  buffers : ∀ p ∈ s.buffers, Whole p
  toWrite : ∀ p ∈ s.bufferToWrite, Whole p
  spares : s.Spares
  lines : s.appended = s.iterations.flatMap Iteration.lines ++ linesOf s.taken ++
    linesOf (s.buffers ++ [s.currentBuffer])
  octets : s.output ++ octetsOf s.unwritten =
    s.iterations.flatMap Iteration.octets ++ octetsOf s.taken
  settled : ∀ i ∈ s.iterations, i.Settled

lemma start_inv : start.Inv where
  current := empty_whole
  next := Or.inl rfl
  buffers := fun _ h => nomatch h
  toWrite := fun _ h => nomatch h
  spares := ⟨rfl, rfl, rfl⟩
  lines := rfl
  octets := rfl
  settled := fun _ h => nomatch h

variable {s : AsyncLogging}

/-! ## One lemma a step -/

/-- The buffer `append` goes on with when the current one is full. -/
lemma Inv.fresh (h : s.Inv) :
    (if s.nextBuffer.isSome then s.nextBuffer else some .empty) = some LogBuffer.empty := by
  rcases h.next with hn | ⟨hn, -⟩ <;> simp [hn]

/-- A call of `append` goes through unless the line is longer than a buffer. -/
lemma append_inv (h : s.Inv) {line : Bytes} (hlen : line.length ≤ kLargeBuffer) :
    ∃ t, s.append line = .ok t ∧ t.Inv := by
  obtain ⟨c, hc, hdata⟩ := h.current
  have hlines := h.lines
  rw [hc, linesOf_append, linesOf_singleton] at hlines
  unfold append
  rw [hc, BufferPtr.get]
  simp only [ok_bind]
  by_cases hroom : line.length < c.buffer.avail
  · rw [if_pos hroom]
    refine ⟨_, rfl, append_whole hdata (Nat.le_of_lt hroom), h.next, h.buffers, h.toWrite,
      h.spares, ?_, h.octets, h.settled⟩
    rw [linesOf_append, linesOf_singleton]
    dsimp only
    rw [hlines, LogBuffer.append]
    simp only [List.append_assoc]
    rfl
  · rw [if_neg hroom]
    have hfresh := h.fresh
    have hfit : line.length ≤ LogBuffer.empty.buffer.avail := hlen
    rw [hfresh, BufferPtr.get]
    simp only [ok_bind]
    rw [check_true hfit, ok_bind]
    refine ⟨_, rfl, append_whole rfl hfit, Or.inr ⟨rfl, by simp⟩, fun p hp => ?_, h.toWrite,
      h.spares, ?_, h.octets, h.settled⟩
    · rcases List.mem_append.mp hp with hp | hp
      · exact h.buffers p hp
      · rw [List.mem_singleton.mp hp]
        exact ⟨c, rfl, hdata⟩
    · rw [linesOf_append, linesOf_append, linesOf_singleton, linesOf_singleton]
      dsimp only
      rw [hlines]
      simp only [List.append_assoc]
      rfl

/-- A longer line fails the assertion, or does not fit the buffer that is filled. -/
lemma append_fits (h : s.Inv) {line : Bytes} {t : AsyncLogging} (hstep : s.append line = .ok t) :
    line.length ≤ kLargeBuffer := by
  obtain ⟨c, hc, -⟩ := h.current
  unfold append at hstep
  rw [hc, BufferPtr.get] at hstep
  simp only [ok_bind] at hstep
  by_cases hroom : line.length < c.buffer.avail
  · have havail : c.buffer.avail ≤ kLargeBuffer := Nat.sub_le _ _
    omega
  · rw [if_neg hroom] at hstep
    obtain ⟨fresh, _, hstep⟩ := bind_eq_ok hstep
    obtain ⟨_, hfit, _⟩ := bind_eq_ok hstep
    exact Nat.le_trans (check_eq_ok hfit) (Nat.sub_le _ _)

/-- Between two iterations the spare buffers are there, and what was swapped out is written. -/
lemma Inv.idle (h : s.Inv) (hidle : s.isIdle = true) :
    (s.newBuffer1 = some .empty ∧ s.newBuffer2 = some .empty ∧ s.bufferToWrite = []) ∧
      s.appended = s.iterations.flatMap Iteration.lines ++
        linesOf (s.buffers ++ [s.currentBuffer]) ∧
      s.output = s.iterations.flatMap Iteration.octets := by
  have hspares := h.spares
  have hlines := h.lines
  have hoctets := h.octets
  rw [Spares, if_pos hidle] at hspares
  have htaken : s.taken = [] := by
    unfold isIdle at hidle
    unfold taken
    split <;> simp_all
  have hunwritten : s.unwritten = [] := by
    unfold isIdle at hidle
    unfold unwritten
    split <;> simp_all
  rw [htaken, linesOf_nil, List.append_nil] at hlines
  rw [htaken, hunwritten, octetsOf_nil, List.append_nil, List.append_nil] at hoctets
  exact ⟨hspares, hlines, hoctets⟩

/-- While the logging thread writes, the octets of what it has yet to write are missing. -/
lemma Inv.writing (h : s.Inv) {done : ℕ} (hphase : s.phase = .writing done) :
    (s.newBuffer1 = none ∧ s.bufferToWrite ≠ [] ∧
      (s.newBuffer2 = some .empty ∨ s.newBuffer2 = none ∧ 2 ≤ s.bufferToWrite.length)) ∧
      s.appended = s.iterations.flatMap Iteration.lines ++ linesOf [] ++
        linesOf (s.buffers ++ [s.currentBuffer]) ∧
      s.output ++ octetsOf (s.bufferToWrite.drop done) =
        s.iterations.flatMap Iteration.octets ++ octetsOf [] := by
  have hspares := h.spares
  have hlines := h.lines
  have hoctets := h.octets
  unfold Spares isIdle at hspares
  unfold taken at hlines hoctets
  unfold unwritten at hoctets
  rw [hphase] at hspares hlines hoctets
  exact ⟨hspares, hlines, hoctets⟩

/-- A step from one phase between two iterations to another. -/
lemma Inv.stay_idle (h : s.Inv) (hidle : s.isIdle = true) {p : LogPhase}
    (hp : p = .lock ∨ p = .waiting ∨ p = .finished) : ({ s with phase := p }).Inv := by
  obtain ⟨hspares, hlines, hoctets⟩ := h.idle hidle
  rcases hp with rfl | rfl | rfl <;>
    exact ⟨h.current, h.next, h.buffers, h.toWrite, hspares, by simpa [taken] using hlines,
      by simpa [taken, unwritten] using hoctets, h.settled⟩

lemma testRunning_inv (h : s.Inv) (hphase : s.phase = .testRunning) :
    ∃ t, s.testRunning = .ok t ∧ t.Inv := by
  have hidle : s.isIdle = true := by rw [isIdle, hphase]
  obtain ⟨⟨h1, h2, h3⟩, _⟩ := h.idle hidle
  unfold testRunning
  split
  · rw [check_true (by rw [h1]; rfl), ok_bind, check_true (by rw [h2]; rfl), ok_bind,
      check_true (by rw [h3]; rfl), ok_bind]
    exact ⟨_, rfl, h.stay_idle hidle (Or.inl rfl)⟩
  · exact ⟨_, rfl, h.stay_idle hidle (Or.inr (Or.inr rfl))⟩

/-- Where the spare buffer of `append` is gone, a buffer is queued; with the current one, that
makes the two that are taken to be used again. -/
lemma swap_inv (h : s.Inv) (hidle : s.isIdle = true) : s.swap.Inv := by
  obtain ⟨⟨h1, h2, h3⟩, hlines, hoctets⟩ := h.idle hidle
  have hcurrent : Whole s.newBuffer1 := by
    rw [h1]
    exact empty_whole
  refine ⟨hcurrent, ?_, ?_, ?_, ⟨rfl, by simp [swap], ?_⟩, ?_, ?_, h.settled⟩
  · left
    unfold swap
    rcases h.next with hn | ⟨hn, -⟩ <;> simp [hn, h2]
  · intro p hp
    unfold swap at hp
    rw [h3] at hp
    exact nomatch hp
  · intro p hp
    rcases List.mem_append.mp hp with hp | hp
    · exact h.buffers p hp
    · rw [List.mem_singleton.mp hp]
      exact h.current
  · unfold swap
    dsimp only
    rcases h.next with hn | ⟨hn, hne⟩
    · left
      rw [hn]
      exact h2
    · right
      have hpos := List.length_pos_iff.mpr hne
      refine ⟨by rw [hn]; rfl, ?_⟩
      rw [List.length_append, List.length_singleton]
      omega
  · unfold swap taken
    dsimp only
    rw [h1, h3, List.nil_append, linesOf_singleton, ← hlines]
    exact (List.append_nil _).symm
  · unfold swap taken unwritten
    dsimp only
    rw [hoctets]

lemma drop_inv (h : s.Inv) (hphase : s.phase = .swapped) (time : Bytes) :
    ∃ t, s.drop time = .ok t ∧ t.Inv := by
  obtain ⟨hcurrent, hnext, hbuffers, htoWrite, hspares, hlines, hoctets, hsettled⟩ := h
  unfold Spares isIdle at hspares
  unfold taken at hlines hoctets
  unfold unwritten at hoctets
  rw [hphase] at hspares hlines hoctets
  dsimp only at hlines hoctets
  obtain ⟨h1, hne, h2⟩ := hspares
  have houtput := List.append_cancel_right hoctets
  unfold drop
  rw [check_true hne, ok_bind]
  split
  next hmany =>
    have hall : s.bufferToWrite.take 2 ++ s.bufferToWrite.drop 2 = s.bufferToWrite :=
      List.take_append_drop 2 _
    have hkept : ∀ p ∈ s.bufferToWrite.take 2, Whole p :=
      fun p hp => htoWrite p (List.mem_of_mem_take hp)
    have hlen : (s.bufferToWrite.take 2).length = 2 := by
      rw [List.length_take]
      omega
    refine ⟨_, rfl, hcurrent, hnext, hbuffers, hkept, ⟨h1, ?_, ?_⟩, ?_, ?_, ?_⟩
    · exact List.ne_nil_of_length_pos (by rw [hlen]; omega)
    · exact h2.imp_right fun h => ⟨h.1, Nat.le_of_eq hlen.symm⟩
    · unfold taken
      dsimp only
      rw [List.flatMap_append, List.flatMap_singleton, Iteration.lines, hall, linesOf_nil,
        List.append_nil, hlines]
    · unfold taken unwritten
      dsimp only
      rw [List.flatMap_append, List.flatMap_singleton, Iteration.octets, houtput, octetsOf_nil,
        List.append_nil, List.drop_zero, octetsOf_eq hkept, Option.getD_some, List.append_assoc]
    · intro i hi
      rcases List.mem_append.mp hi with hi | hi
      · exact hsettled i hi
      · rw [List.mem_singleton.mp hi, Iteration.Settled, hall, if_pos hmany]
        exact ⟨rfl, time, rfl⟩
  next hfew =>
    refine ⟨_, rfl, hcurrent, hnext, hbuffers, htoWrite, ⟨h1, hne, h2⟩, ?_, ?_, ?_⟩
    · unfold taken
      dsimp only
      rw [List.flatMap_append, List.flatMap_singleton, Iteration.lines, List.append_nil,
        linesOf_nil, List.append_nil, hlines]
    · unfold taken unwritten
      dsimp only
      rw [List.flatMap_append, List.flatMap_singleton, Iteration.octets, houtput, octetsOf_nil,
        List.append_nil, List.drop_zero, octetsOf_eq htoWrite, Option.getD_none, List.nil_append]
    · intro i hi
      rcases List.mem_append.mp hi with hi | hi
      · exact hsettled i hi
      · rw [List.mem_singleton.mp hi, Iteration.Settled, List.append_nil, if_neg hfew]
        exact ⟨rfl, rfl⟩

lemma write_inv (h : s.Inv) {done : ℕ} (hphase : s.phase = .writing done) {b : LogBuffer}
    (hb : s.bufferToWrite[done]? = some (some b)) :
    ({ s with output := s.output ++ b.buffer.data, phase := .writing (done + 1) }).Inv := by
  obtain ⟨hspares, hlines, hoctets⟩ := h.writing hphase
  refine ⟨h.current, h.next, h.buffers, h.toWrite, hspares, hlines, ?_, h.settled⟩
  obtain ⟨hlt, hget⟩ := List.getElem?_eq_some_iff.mp hb
  unfold taken unwritten
  dsimp only
  rw [← hoctets, List.drop_eq_getElem_cons hlt, hget, List.append_assoc]
  rfl

/-- A buffer that is used again is empty. -/
lemma recycle_none {bs : List BufferPtr} (hne : bs ≠ []) (hw : ∀ p ∈ bs, Whole p) :
    recycle none bs = .ok (some .empty, bs.dropLast) := by
  obtain ⟨b, hb, -⟩ := hw _ (List.getLast_mem hne)
  unfold recycle
  rw [check_true hne, ok_bind, List.getLast?_eq_getLast_of_ne_nil hne, Option.getD_some, hb]
  rfl

lemma endIteration_inv (h : s.Inv) {done : ℕ} (hphase : s.phase = .writing done)
    (hdone : s.bufferToWrite[done]? = none) : ∃ t, s.endIteration = .ok t ∧ t.Inv := by
  obtain ⟨⟨h1, hne, h2⟩, hlines, hoctets⟩ := h.writing hphase
  rw [List.drop_eq_nil_of_le (List.getElem?_eq_none_iff.mp hdone)] at hoctets
  obtain ⟨bs, hbs⟩ : ∃ bs, bs = if 2 < s.bufferToWrite.length then s.bufferToWrite.take 2
      else s.bufferToWrite := ⟨_, rfl⟩
  have hpos := List.length_pos_iff.mpr hne
  have hlen : bs.length = min 2 s.bufferToWrite.length := by
    rw [hbs]
    split
    · exact List.length_take
    · omega
  have hwhole : ∀ p ∈ bs, Whole p := by
    intro p hp
    rw [hbs] at hp
    split at hp
    · exact h.toWrite p (List.mem_of_mem_take hp)
    · exact h.toWrite p hp
  have hne1 : bs ≠ [] := List.ne_nil_of_length_pos (by omega)
  have hsecond : ∃ rest, recycle s.newBuffer2 bs.dropLast = .ok (some .empty, rest) := by
    rcases h2 with h2 | ⟨h2, htwo⟩
    · rw [h2]
      exact ⟨_, rfl⟩
    · have hne2 : bs.dropLast ≠ [] := by
        apply List.ne_nil_of_length_pos
        rw [List.length_dropLast]
        omega
      rw [h2, recycle_none hne2 fun p hp => hwhole p (List.dropLast_subset _ hp)]
      exact ⟨_, rfl⟩
  obtain ⟨rest, hrest⟩ := hsecond
  unfold endIteration
  dsimp only
  rw [← hbs, h1, recycle_none hne1 hwhole, ok_bind, hrest]
  exact ⟨_, rfl, h.current, h.next, h.buffers, fun _ h => (nomatch h), ⟨rfl, rfl, rfl⟩, hlines,
    hoctets, h.settled⟩

lemma next_inv (h : s.Inv) (time : Bytes) : ∃ t, s.next time = .ok t ∧ t.Inv := by
  unfold next
  split
  next hphase => exact testRunning_inv h hphase
  next hphase =>
    have hidle : s.isIdle = true := by rw [isIdle, hphase]
    split
    · exact ⟨_, rfl, h.stay_idle hidle (Or.inr (Or.inl rfl))⟩
    · exact ⟨_, rfl, swap_inv h hidle⟩
  next hphase => exact ⟨_, rfl, swap_inv h (by rw [isIdle, hphase])⟩
  next hphase => exact drop_inv h hphase time
  next done hphase =>
    split
    next p hp =>
      obtain ⟨b, rfl, -⟩ := h.toWrite p (List.mem_of_getElem? hp)
      exact ⟨_, rfl, write_inv h hphase hp⟩
    next hnone => exact endIteration_inv h hphase hnone
  · exact ⟨s, rfl, h⟩

/-- A line is no longer than a buffer. -/
def Fits : LogInput → Prop
  | .append line => line.length ≤ kLargeBuffer
  | _ => True

lemma step_inv (h : s.Inv) {i : LogInput} (hfits : Fits i) :
    ∃ t, s.step i = .ok t ∧ t.Inv := by
  unfold step
  split
  · exact append_inv h hfits
  · exact next_inv h _
  · split
    · exact ⟨_, rfl, h.current, h.next, h.buffers, h.toWrite, h.spares, h.lines, h.octets,
        h.settled⟩
    · exact ⟨s, rfl, h⟩
  · split
    · exact ⟨_, rfl, h.current, h.next, h.buffers, h.toWrite, h.spares, h.lines, h.octets,
        h.settled⟩
    · exact ⟨s, rfl, h⟩

lemma step_ok {t : AsyncLogging} {i : LogInput} (h : s.Inv) (hstep : s.step i = .ok t) :
    t.Inv := by
  have hfits : Fits i := by
    unfold Fits
    split
    · exact append_fits h hstep
    · trivial
  obtain ⟨u, hu, hinv⟩ := step_inv h hfits
  rw [hstep] at hu
  exact Except.ok.inj hu ▸ hinv

/-! ## Conservation -/

/-- The octets of the log, oldest first: in the file, being written, queued, being filled. -/
def log (s : AsyncLogging) : Bytes :=
  s.output ++ octetsOf s.unwritten ++ octetsOf (s.buffers ++ [s.currentBuffer])

/-- The lines of which no iteration has decided yet. -/
def pending (s : AsyncLogging) : List Bytes :=
  linesOf (s.taken ++ (s.buffers ++ [s.currentBuffer]))

/-- The appended lines are those the iterations took, in order, and then the pending ones; the
log is what the iterations made of theirs, and then the pending ones, octet for octet.  Where
no iteration was overloaded, the log is what was appended. -/
structure Conserved (s : AsyncLogging) : Prop where
  whole : ∀ p ∈ s.bufferToWrite ++ (s.buffers ++ [s.currentBuffer]), Whole p
  lines : s.appended = s.iterations.flatMap Iteration.lines ++ s.pending
  octets : s.log = s.iterations.flatMap Iteration.octets ++ s.pending.flatten
  settled : ∀ i ∈ s.iterations, i.Settled
  undropped : (∀ i ∈ s.iterations, (i.kept ++ i.dropped).length ≤ 25) →
    s.log = s.appended.flatten

/-- An iteration that is not overloaded writes all of its lines. -/
lemma octets_of_few {i : Iteration} (h : i.Settled) (hfew : (i.kept ++ i.dropped).length ≤ 25) :
    i.octets = i.lines.flatten := by
  rw [Iteration.Settled, if_neg (by omega)] at h
  rw [Iteration.octets, Iteration.lines, h.1, h.2, Option.getD_none, List.nil_append,
    List.append_nil]

lemma flatMap_octets {is : List Iteration} (h : ∀ i ∈ is, i.octets = i.lines.flatten) :
    is.flatMap Iteration.octets = (is.flatMap Iteration.lines).flatten := by
  induction is with
  | nil => rfl
  | cons i is ih =>
    rw [List.flatMap_cons, List.flatMap_cons, List.flatten_append, h i List.mem_cons_self,
      ih fun j hj => h j (List.mem_cons_of_mem i hj)]

lemma Inv.conserved (h : s.Inv) : s.Conserved := by
  have hqueued : ∀ p ∈ s.buffers ++ [s.currentBuffer], Whole p := by
    intro p hp
    rcases List.mem_append.mp hp with hp | hp
    · exact h.buffers p hp
    · rw [List.mem_singleton.mp hp]
      exact h.current
  have htaken : ∀ p ∈ s.taken, Whole p := by
    intro p hp
    unfold taken at hp
    split at hp
    · exact h.toWrite p hp
    · exact nomatch hp
  have hlines : s.appended = s.iterations.flatMap Iteration.lines ++ s.pending := by
    rw [pending, linesOf_append, ← List.append_assoc]
    exact h.lines
  have hlog : s.log = s.iterations.flatMap Iteration.octets ++ s.pending.flatten := by
    rw [log, pending, h.octets, linesOf_append, List.flatten_append, octetsOf_eq htaken,
      octetsOf_eq hqueued, List.append_assoc]
  refine ⟨fun p hp => ?_, hlines, hlog, h.settled, fun hfew => ?_⟩
  · rcases List.mem_append.mp hp with hp | hp
    · exact h.toWrite p hp
    · exact hqueued p hp
  · rw [hlog, hlines, List.flatten_append,
      flatMap_octets fun i hi => octets_of_few (h.settled i hi) (hfew i hi)]

/-- **Nothing is lost while the log runs.**  For every order of the calls of `append` with the
steps of the logging thread, no assertion fails, and every state conserves the log. -/
theorem log_conserved {is : List LogInput} (hfits : ∀ i ∈ is, Fits i) :
    machine.Meets ⟨Conserved, fun _ _ => True, fun _ => False⟩ start is := by
  apply machine.meets_of_sound (P := fun _ i => Fits i) (I := Inv)
  · exact fun s h => h.conserved
  · intro s i h hi
    obtain ⟨t, ht, hinv⟩ := step_inv h hi
    change RunSpec.Sound _ _ s (s.step i)
    rw [ht]
    exact ⟨hinv, trivial⟩
  · exact start_inv
  · exact machine.along_of_mem (fun i hi _ => hfits i hi) start

theorem log_conserved_two : machine.Meets ⟨Conserved, fun _ _ => True, fun _ => False⟩ start
    [.append [104, 105], .next [], .next [], .append [33], .next [], .next []] :=
  log_conserved (by simp [Fits, kLargeBuffer])

end AsyncLogging

end Firey
