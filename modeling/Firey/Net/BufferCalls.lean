import Firey.Net.BufferQueue

/-!
# The buffers a program can come to hold

`Reached allowed b` says that `b` comes out of a constructor call, of any size, by calls that
went through and are of the kind `allowed`, `swap` with another such buffer included.  The
precondition of a call is not part of it: a call that goes through has met its assertions, and
`Reached.wf` shows that this is enough to keep the indices in order, also for the `shrink` of a
buffer whose length the `int` of `toString` does not hold.

From there `readFd` is exact for every answer of the kernel (`readFd_exact`), and a program that
never prepends always finds `kCheapPrepend` octets to prepend to (`cheapPrepend_le`).
-/

set_option autoImplicit false

namespace Firey

namespace Buffer

/-- The buffers that calls of a certain kind lead to. -/
inductive Reached (allowed : Op → Prop) : Buffer → Prop
  | ofInitialSize (initialSize : ℕ) : Reached allowed (ofInitialSize initialSize)
  | call {b b' : Buffer} (op : Op) (h : Reached allowed b) (hop : allowed op)
      (hcall : op.apply b = .ok b') : Reached allowed b'
  | swap {b rhs : Buffer} (h : Reached allowed b) (hrhs : Reached allowed rhs) :
      Reached allowed (b.swap rhs).1

/-- The buffers any calls lead to. -/
abbrev Reachable : Buffer → Prop := Reached fun _ => True

def Op.isPrepend : Op → Prop
  | .prepend _ => True
  | _ => False

instance : DecidablePred Op.isPrepend
  | .prepend _ => .isTrue trivial
  | .append _ | .retrieve _ | .retrieveUntil _ | .retrieveAll | .retrieveAsString _ | .unwrite _
  | .ensureWritableBytes _ | .hasWritten _ | .shrink _ | .readFd _ => .isFalse id

/-- The buffers of a program that never prepends. -/
abbrev Unprepended : Buffer → Prop := Reached fun op => ¬ op.isPrepend

/-! ## The indices -/

/-- A `shrink` that goes through leaves a buffer made by the constructor and two appends. -/
lemma shrink_eq_ok {b b' : Buffer} {reserve : ℕ} (h : b.shrink reserve = .ok b') :
    ∃ other content, (ofInitialSize kInitialSize).ensureWritableBytes
        (b.readableBytes + reserve) = .ok other ∧ other.append content = .ok b' := by
  obtain ⟨other, hens, h⟩ := bind_eq_ok h
  obtain ⟨content, -, h⟩ := bind_eq_ok h
  obtain ⟨final, happ, h⟩ := bind_eq_ok h
  cases h
  exact ⟨other, content, hens, happ⟩

/-- A call that goes through keeps the indices in order, whatever its arguments are. -/
lemma Op.apply_wf {b b' : Buffer} (op : Op) (h : b.WF) (hcall : op.apply b = .ok b') : b'.WF := by
  by_cases hpre : op.Pre b
  · obtain ⟨c, hc, hwf, -⟩ := op.apply_spec h hpre
    cases hc.symm.trans hcall
    exact hwf
  · cases op with
    | append _ | retrieveAll | ensureWritableBytes _ => exact absurd trivial hpre
    | prepend data =>
      obtain ⟨_, hcheck, -⟩ := bind_eq_ok hcall
      exact absurd (check_eq_ok hcheck) hpre
    | retrieve len =>
      obtain ⟨_, hcheck, -⟩ := bind_eq_ok hcall
      exact absurd (check_eq_ok hcheck) hpre
    | retrieveUntil offset =>
      obtain ⟨_, hcheck, -⟩ := bind_eq_ok hcall
      exact absurd (Nat.le_sub_of_add_le' (check_eq_ok hcheck).2) hpre
    | retrieveAsString len =>
      obtain ⟨_, hret, -⟩ := bind_eq_ok hcall
      obtain ⟨_, hcheck, -⟩ := bind_eq_ok hret
      exact absurd (check_eq_ok hcheck) hpre
    | unwrite len =>
      obtain ⟨_, hcheck, -⟩ := bind_eq_ok hcall
      exact absurd (check_eq_ok hcheck) hpre
    | hasWritten data =>
      obtain ⟨_, hcheck, -⟩ := bind_eq_ok hcall
      exact absurd (check_eq_ok hcheck) hpre
    | shrink reserve =>
      obtain ⟨other, content, hens, happ⟩ := shrink_eq_ok hcall
      obtain ⟨o, ho, hwf, -⟩ := ensureWritableBytes_spec (ofInitialSize_wf kInitialSize)
        (b.readableBytes + reserve)
      cases ho.symm.trans hens
      obtain ⟨o, ho, hwf', -⟩ := append_spec hwf content
      cases ho.symm.trans happ
      exact hwf'
    | readFd r =>
      cases r with
      | failed e => exact absurd trivial hpre
      | got data =>
        obtain ⟨c, hc, hwf, -⟩ := readFd_got_spec h data
        rw [apply, hc, ok_bind] at hcall
        cases hcall
        exact hwf

lemma Reached.wf {allowed : Op → Prop} {b : Buffer} (h : Reached allowed b) : b.WF := by
  induction h with
  | ofInitialSize n => exact ofInitialSize_wf n
  | call op _ _ hcall ih => exact op.apply_wf ih hcall
  | swap _ _ _ ihrhs => exact ihrhs

/-! ## Scatter reads -/

/-- **`readFd` appends exactly what was read**, for every buffer a program can hold and every
answer of `readv`: an error, or octets no more than were offered, the writable space filled
before the side buffer. -/
theorem readFd_exact {b : Buffer} (h : Reachable b) (r : ReadResult)
    (hr : ∀ data, r = .got data → data.length ≤ b.readFdOffer) :
    (∀ e, r = .failed e → b.readFd r = .ok ⟨-1, some e, b⟩) ∧
      ∀ data, r = .got data → ∃ b', b.readFd r = .ok ⟨data.length, none, b'⟩ ∧
        b'.readable = b.readable ++ data := by
  constructor
  · rintro e rfl
    rfl
  · rintro data rfl
    obtain ⟨b', hread, -, hbytes⟩ := readFd_got_spec h.wf data
    rw [List.take_of_length_le (hr data rfl)] at hread hbytes
    exact ⟨b', hread, hbytes⟩

/-- Both octets spill into the side buffer, and the one that was readable is moved down for
them. -/
theorem readFd_exact_spill : ∃ b, Reachable b ∧ b.readable = [4] ∧ b.writableBytes = 0 ∧
    ∃ b', b.readFd (.got [5, 6]) = .ok ⟨2, none, b'⟩ ∧ b'.readable = [4, 5, 6] := by
  have hcall : ∃ b, (Op.append [1, 2, 3, 4]).apply (ofInitialSize 4) = .ok b ∧
      ∃ c, (Op.retrieve 3).apply b = .ok c ∧ c.readable = [4] ∧ c.writableBytes = 0 ∧
        2 ≤ c.readFdOffer := by
    decide +kernel
  obtain ⟨b, hb, c, hc, hread, hfull, hoffer⟩ := hcall
  have hreach : Reachable c := .call _ (.call _ (.ofInitialSize 4) trivial hb) trivial hc
  obtain ⟨b', hgot, hbytes⟩ := (readFd_exact hreach (.got [5, 6])
    (fun data hdata => by cases hdata; exact hoffer)).2 [5, 6] rfl
  rw [hread] at hbytes
  exact ⟨c, hreach, hread, hfull, b', hgot, hbytes⟩

/-! ## The prepend area -/

lemma retrieve_reader {b b' : Buffer} {len : ℕ} (h : b.retrieve len = .ok b') :
    b.readerIndex ≤ b'.readerIndex ∨ b'.readerIndex = kCheapPrepend := by
  obtain ⟨_, -, h⟩ := bind_eq_ok h
  split at h
  · cases h
    exact Or.inl (Nat.le_add_right _ _)
  · cases h
    exact Or.inr rfl

lemma makeSpace_reader {b b' : Buffer} {len : ℕ} (h : b.makeSpace len = .ok b') :
    b'.readerIndex = b.readerIndex ∨ b'.readerIndex = kCheapPrepend := by
  unfold makeSpace at h
  split at h
  · cases h
    exact Or.inl rfl
  · obtain ⟨_, -, h⟩ := bind_eq_ok h
    obtain ⟨_, -, h⟩ := bind_eq_ok h
    cases h
    exact Or.inr rfl

lemma ensureWritableBytes_reader {b b' : Buffer} {len : ℕ}
    (h : b.ensureWritableBytes len = .ok b') :
    b'.readerIndex = b.readerIndex ∨ b'.readerIndex = kCheapPrepend := by
  unfold ensureWritableBytes at h
  dsimp only at h
  split at h
  · obtain ⟨c, hc, h⟩ := bind_eq_ok h
    obtain ⟨_, -, h⟩ := bind_eq_ok h
    cases h
    exact makeSpace_reader hc
  · rw [ok_bind] at h
    obtain ⟨_, -, h⟩ := bind_eq_ok h
    cases h
    exact Or.inl rfl

lemma hasWritten_reader {b b' : Buffer} {data : Bytes} (h : b.hasWritten data = .ok b') :
    b'.readerIndex = b.readerIndex := by
  obtain ⟨_, -, h⟩ := bind_eq_ok h
  cases h
  rfl

lemma append_reader {b b' : Buffer} {data : Bytes} (h : b.append data = .ok b') :
    b'.readerIndex = b.readerIndex ∨ b'.readerIndex = kCheapPrepend := by
  obtain ⟨c, hc, h⟩ := bind_eq_ok h
  rw [hasWritten_reader h]
  exact ensureWritableBytes_reader hc

lemma readFd_reader {b : Buffer} {r : ReadResult} {result : ReadFd}
    (h : b.readFd r = .ok result) :
    result.buffer.readerIndex = b.readerIndex ∨ result.buffer.readerIndex = kCheapPrepend := by
  cases r with
  | failed e =>
    cases h
    exact Or.inl rfl
  | got data =>
    rw [readFd] at h
    dsimp only at h
    split at h
    · cases h
      exact Or.inl rfl
    · obtain ⟨c, hc, h⟩ := bind_eq_ok h
      cases h
      have hreader := append_reader hc
      exact hreader

/-- Only `prepend` moves the reader down, other than to the end of the prepend area. -/
lemma Op.apply_reader {b b' : Buffer} {op : Op} (hop : ¬ op.isPrepend)
    (h : op.apply b = .ok b') :
    b.readerIndex ≤ b'.readerIndex ∨ kCheapPrepend ≤ b'.readerIndex := by
  cases op with
  | prepend data => exact absurd trivial hop
  | append data => exact (append_reader h).imp Eq.ge Eq.ge
  | retrieve len => exact (retrieve_reader h).imp_right Eq.ge
  | retrieveUntil offset =>
    obtain ⟨_, -, h⟩ := bind_eq_ok h
    exact (retrieve_reader h).imp_right Eq.ge
  | retrieveAll =>
    cases h
    exact Or.inr le_rfl
  | retrieveAsString len =>
    obtain ⟨⟨_, c⟩, hc, h⟩ := bind_eq_ok h
    cases h
    obtain ⟨_, -, hc⟩ := bind_eq_ok hc
    obtain ⟨d, hd, hc⟩ := bind_eq_ok hc
    cases hc
    exact (retrieve_reader hd).imp_right Eq.ge
  | unwrite len =>
    obtain ⟨_, -, h⟩ := bind_eq_ok h
    cases h
    exact Or.inl le_rfl
  | ensureWritableBytes len => exact (ensureWritableBytes_reader h).imp Eq.ge Eq.ge
  | hasWritten data => exact Or.inl (hasWritten_reader h).ge
  | shrink reserve =>
    obtain ⟨other, content, hens, happ⟩ := shrink_eq_ok h
    have hother : kCheapPrepend ≤ other.readerIndex :=
      (ensureWritableBytes_reader hens).elim Eq.ge Eq.ge
    exact Or.inr ((append_reader happ).elim (fun heq => heq.symm ▸ hother) Eq.ge)
  | readFd r =>
    obtain ⟨result, hresult, h⟩ := bind_eq_ok h
    cases h
    exact (readFd_reader hresult).imp Eq.ge Eq.ge

/-- **A program that never prepends has room to prepend.** -/
theorem cheapPrepend_le {b : Buffer} (h : Unprepended b) : kCheapPrepend ≤ b.readerIndex := by
  induction h with
  | ofInitialSize n => exact le_rfl
  | call op _ hop hcall ih => exact (op.apply_reader hop hcall).elim ih.trans id
  | swap _ _ _ ihrhs => exact ihrhs

/-! ## What comes after -/

/-- One buffer. -/
def machine : Machine Buffer Op Fault := ⟨fun b op => op.apply b⟩

/-- Whatever is called on the buffer from now on, each call under its own precondition, goes
through and does what it does to the queue. -/
def Works (b : Buffer) : Prop :=
  ∀ ops, machine.Along (fun b op => op.Pre b) b ops →
    ∃ b', machine.run b ops = .ok b' ∧ b'.readable = ops.foldl Op.onQueue b.readable

lemma WF.works {b : Buffer} (h : b.WF) : b.Works := by
  intro ops hpre
  obtain ⟨b', hrun, -, hread⟩ := machine.run_refines
    (R := fun (b : Buffer) (q : Bytes) => b.WF ∧ b.readable = q)
    (fun b q op hR hop => by
      obtain ⟨hwf, hread⟩ := hR
      obtain ⟨b', hb', hwf', hread'⟩ := op.apply_spec hwf hop
      exact ⟨b', hb', hwf', hread ▸ hread'⟩)
    ⟨h, rfl⟩ hpre
  exact ⟨b', hrun, hread⟩

end Buffer

end Firey
