import Firey.Net.BufferLengths

/-!
# Copies of the readable octets

`retrieveAllAsString` hands the number of readable octets to the constructor of `std::string` as it
is.  `toString` makes an `int` of it first, so that from `2^31` octets on it throws or returns fewer
than there are, and `shrink`, which takes the content from `toString`, throws or loses what is
missing.  Below that size `shrink` is limited by what a vector can hold alone (`keepsContent_iff`).
-/

set_option autoImplicit false

namespace Firey

namespace Buffer64

variable {b : Buffer64}

/-- The buffers calls lead to, as long as no sum wraps in the constructor or in
`ensureWritableBytes`. -/
def Reachable (b : Buffer64) : Prop :=
  ∃ initialSize start calls, ofInitialSize initialSize = some start ∧
    kCheapPrepend.toNat + initialSize.toNat < 2 ^ 64 ∧
    machine.Along (fun b call => call.Fits b) start calls ∧ machine.run start calls = .ok b

lemma Reachable.sound (h : Reachable b) : b.Sound := by
  obtain ⟨initialSize, start, calls, hctor, hsize, hfits, hrun⟩ := h
  exact machine.run_invariant_along (fun s i t hs hi ht => step_sound hs hi ht)
    (ofInitialSize_sound hctor hsize) hfits hrun

/-! ## `toString` -/

/-- The length `toString` asks for. -/
lemma toNat_toStringLength (n : SizeT) :
    ((n.setWidth 32).signExtend 64).toNat =
      n.toNat % 2 ^ 32 + if 2 ^ 31 ≤ n.toNat % 2 ^ 32 then 2 ^ 64 - 2 ^ 32 else 0 := by
  have h32 : (n.setWidth 32).toNat = n.toNat % 2 ^ 32 := BitVec.toNat_setWidth _ _
  have hmsb : (n.setWidth 32).msb = decide (2 ^ 31 ≤ n.toNat % 2 ^ 32) := by
    rw [BitVec.msb_eq_decide, h32]
  have hwide : ((n.setWidth 32).setWidth 64).toNat = n.toNat % 2 ^ 32 := by
    rw [BitVec.toNat_setWidth, h32]
    omega
  rw [BitVec.toNat_signExtend, hwide, hmsb]
  simp only [decide_eq_true_eq]

/-- Below `2^31` octets `toString` is a copy of them. -/
lemma toString_ok (h : b.Sound) (hsmall : b.readableBytes.toNat < 2 ^ 31) :
    ∃ s, b.toString = .ok (some s) ∧ s.octets = b.readable := by
  have hlen : ((b.readableBytes.setWidth 32).signExtend 64).toNat = b.readableBytes.toNat := by
    rw [toNat_toStringLength, Nat.mod_eq_of_lt (by omega), if_neg (by omega), Nat.add_zero]
  obtain ⟨s, hs, hoctets⟩ := newString_ok h (hlen.trans h.toNat_readableBytes).le
  refine ⟨s, hs, ?_⟩
  rw [hoctets, hlen, ← h.length_readable, List.take_length]

/-- From there on it throws, or returns fewer octets. -/
lemma toString_large (h : b.Sound) (hlarge : 2 ^ 31 ≤ b.readableBytes.toNat) :
    b.toString = .ok none ∨ ∃ s, b.toString = .ok (some s) ∧ s.octets ≠ b.readable := by
  have hlen := toNat_toStringLength b.readableBytes
  by_cases hneg : 2 ^ 31 ≤ b.readableBytes.toNat % 2 ^ 32
  · rw [if_pos hneg] at hlen
    left
    unfold toString newString
    exact if_neg (by rw [hlen, maxSize]; omega)
  · rw [if_neg hneg, Nat.add_zero] at hlen
    have hle : ((b.readableBytes.setWidth 32).signExtend 64).toNat ≤
        b.toBuffer.readableBytes := by
      rw [hlen, ← h.toNat_readableBytes]
      exact Nat.mod_le _ _
    obtain ⟨s, hs, hoctets⟩ := newString_ok h hle
    refine Or.inr ⟨s, hs, fun heq => ?_⟩
    have hlength := congrArg List.length (hoctets.symm.trans heq)
    rw [List.length_take, h.length_readable, hlen] at hlength
    omega

/-! ## `shrink` -/

/-- With room to spare, appending moves `writerIndex_` alone. -/
lemma append_room (h : b.Sound) (data : Block)
    (hroom : data.octets.length ≤ b.toBuffer.writableBytes) :
    ∃ c, b.append data = .ok (.returned c) ∧ c.readable = b.readable ++ data.octets ∧
      c.readerIndex.toNat = b.readerIndex.toNat ∧
      c.buffer.octets.length = b.buffer.octets.length ∧
      c.writerIndex.toNat = b.writerIndex.toNat + data.octets.length := by
  have hsize : data.size ≤ b.writableBytes := h.size_le_writableBytes_iff.mpr hroom
  have hlt : ¬ b.writableBytes < data.size := BitVec.not_lt.mpr hsize
  have hwb : b.toBuffer.writableBytes = b.buffer.octets.length - b.writerIndex.toNat := rfl
  have hw := h.writer_le
  obtain ⟨c, hc, hbuf⟩ := store_ok h hroom
  refine ⟨c, ?_, ?_, congrArg Buffer.readerIndex hbuf, ?_, congrArg Buffer.writerIndex hbuf⟩
  · rw [append, ensureWritableBytes, if_neg hlt, check_true hsize, ok_bind, ok_bind]
    dsimp only
    rw [hasWritten, check_true hsize, ok_bind, hc, ok_bind]
  · exact (congrArg Buffer.readable hbuf).trans (Buffer.written_spec h hroom).2
  · have hlength := congrArg (fun d : Buffer => d.buffer.length) hbuf
    exact hlength.trans (length_overwrite (show b.writerIndex.toNat + data.octets.length ≤ _ by
      show _ ≤ b.buffer.octets.length
      omega))

/-- What the first call in `shrink` makes of the default buffer. -/
lemma ensureWritableBytes_default_returned {o o' : Buffer64} (hsound : o.Sound)
    (hr : o.readerIndex = kCheapPrepend) {len : SizeT} (hfits : o.Fits len)
    (hcall : o.ensureWritableBytes len = .ok (.returned o')) :
    o'.Sound ∧ o'.readable = o.readable ∧ o'.readerIndex.toNat = 8 ∧
      o'.writerIndex.toNat + len.toNat ≤ o'.buffer.octets.length := by
  rcases ensureWritableBytes_sim hsound hfits with ⟨hthrew, -⟩ | ⟨c, hc, hs, hread, hroom, hnum⟩
  · cases hthrew.symm.trans hcall
  · cases hc.symm.trans hcall
    have hw := hs.writer_le
    have hwb : o'.toBuffer.writableBytes = o'.buffer.octets.length - o'.writerIndex.toNat := rfl
    refine ⟨hs, hread, ?_, by omega⟩
    have hreader : o.toBuffer.readerIndex = 8 := by
      show o.readerIndex.toNat = 8
      rw [hr]
      rfl
    exact (Buffer.ensureWritableBytes_reader hnum).elim (fun heq => heq.trans hreader) id

/-- The default buffer makes room for any length a vector can hold. -/
lemma ensureWritableBytes_default_ok (len : SizeT) (hmax : len.toNat + 8 ≤ maxSize) :
    ∃ o o', ofInitialSize kInitialSize = some o ∧
      o.ensureWritableBytes len = .ok (.returned o') ∧ o'.Sound ∧ o'.readable = [] ∧
        o'.readerIndex.toNat = 8 ∧ o'.writerIndex.toNat + len.toNat ≤ o'.buffer.octets.length := by
  have hbound : maxSize < 2 ^ 63 := by decide
  have hcheap : kCheapPrepend.toNat = 8 := rfl
  obtain ⟨o, ho, hsound, -, hr, hw, hempty⟩ := ofInitialSize_default
  have hfits : o.Fits len := by
    unfold Fits
    rw [hw, hcheap]
    omega
  rcases ensureWritableBytes_sim hsound hfits with ⟨-, hthrew⟩ | ⟨o', ho', -⟩
  · rw [hw, hcheap] at hthrew
    omega
  · obtain ⟨hsound', hread', hspec⟩ :=
      ensureWritableBytes_default_returned hsound hr hfits ho'
    exact ⟨o, o', ho, ho', hsound', hread'.trans hempty, hspec⟩

/-- `shrink` keeps the content when `toString` does and the vector is not asked for too much. -/
lemma shrink_ok (h : b.Sound) (hsmall : b.readableBytes.toNat < 2 ^ 31) {reserve : SizeT}
    (hmax : b.readableBytes.toNat + reserve.toNat + 8 ≤ maxSize) :
    ∃ c, b.shrink reserve = .ok (.returned c) ∧ c.readable = b.readable ∧
      c.writerIndex.toNat + reserve.toNat ≤ c.buffer.octets.length ∧
        c.readerIndex.toNat = 8 := by
  have hlen : (b.readableBytes + reserve).toNat = b.readableBytes.toNat + reserve.toNat := by
    have hbound : maxSize < 2 ^ 63 := by decide
    rw [BitVec.toNat_add]
    omega
  obtain ⟨o, o₂, ho, ho₂, hsound₂, hempty₂, hreader₂, hroom₂⟩ :=
    ensureWritableBytes_default_ok (b.readableBytes + reserve) (by omega)
  obtain ⟨s, hs, hoctets⟩ := toString_ok h hsmall
  have hlength : s.octets.length = b.readableBytes.toNat := by
    rw [hoctets, h.length_readable]
  have hwb : o₂.toBuffer.writableBytes = o₂.buffer.octets.length - o₂.writerIndex.toNat := rfl
  obtain ⟨o₃, ho₃, hread₃, hreader₃, hlength₃, hwriter₃⟩ :=
    append_room hsound₂ s (by omega)
  refine ⟨o₃, ?_, ?_, by omega, hreader₃.trans hreader₂⟩
  · rw [shrink, ho]
    dsimp only
    rw [ho₂, ok_bind]
    dsimp only
    rw [hs, ok_bind]
    dsimp only
    rw [ho₃, ok_bind]
  · rw [hread₃, hempty₂, hoctets, List.nil_append]

/-- It does not return when the vector is asked for too much. -/
lemma shrink_large {reserve : SizeT}
    (hwrap : b.readableBytes.toNat + reserve.toNat < 2 ^ 64)
    (hmax : maxSize < b.readableBytes.toNat + reserve.toNat + 8) (c : Buffer64) :
    b.shrink reserve ≠ .ok (.returned c) := by
  intro hcall
  rcases shrink_eq_ok hcall with hthrew | ⟨o₁, o₂, o₃, s, ho₁, ho₂, -⟩
  · cases hthrew
  · obtain ⟨o, ho, hsound, hlength, hr, hw, -⟩ := ofInitialSize_default
    cases ho.symm.trans ho₁
    have hlen : (b.readableBytes + reserve).toNat = b.readableBytes.toNat + reserve.toNat := by
      rw [BitVec.toNat_add]
      exact Nat.mod_eq_of_lt hwrap
    have hfits : o₁.Fits (b.readableBytes + reserve) := by
      unfold Fits
      rw [hw, max_self]
      by_contra hbig
      have herror := ensureWritableBytes_default hsound hlength hr hw (Nat.not_lt.mp hbig)
      cases herror.symm.trans ho₂
    obtain ⟨hsound₂, -, hreader₂, hroom₂⟩ :=
      ensureWritableBytes_default_returned hsound hr hfits ho₂
    have hle := hsound₂.reader_le
    have hbound := o₂.buffer.bounded
    omega

/-! ## Both together -/

/-- `toString` returns the readable octets, and the same string as `retrieveAllAsString`; and
`shrink` leaves them as they were, with `reserve` octets to write and `kCheapPrepend` to
prepend. -/
def KeepsContent (b : Buffer64) (reserve : SizeT) : Prop :=
  (∃ s c, b.toString = .ok (some s) ∧ s.octets = b.readable ∧
      b.retrieveAllAsString = .ok (some s, c)) ∧
    ∃ c, b.shrink reserve = .ok (.returned c) ∧ c.readable = b.readable ∧
      c.writerIndex.toNat + reserve.toNat ≤ c.buffer.octets.length ∧
        kCheapPrepend.toNat ≤ c.prependableBytes.toNat

lemma retrieveAllAsString_ok (h : b.Sound) :
    ∃ s c, b.retrieveAllAsString = .ok (some s, c) ∧ s.octets = b.readable := by
  obtain ⟨s, c, hs, hnum⟩ := retrieveAsString_sim h h.toNat_readableBytes.le
  refine ⟨s, c, hs, ?_⟩
  obtain ⟨d, hd, -⟩ := Buffer.retrieveAsString_spec h h.toNat_readableBytes.le
  have hoctets : s.octets = b.readable.take b.readableBytes.toNat :=
    congrArg Prod.fst (Except.ok.inj (hnum.symm.trans hd))
  rw [hoctets, ← h.length_readable]
  exact List.take_length

/-- **`toString` and `shrink` keep the content** exactly when it is shorter than `2^31` octets and
a vector can hold it together with what is asked for. -/
theorem keepsContent_iff (h : Reachable b) {reserve : SizeT}
    (hwrap : b.readableBytes.toNat + reserve.toNat < 2 ^ 64) :
    b.KeepsContent reserve ↔ b.readableBytes.toNat < 2 ^ 31 ∧
      b.readableBytes.toNat + reserve.toNat + kCheapPrepend.toNat ≤ maxSize := by
  have hsound := h.sound
  constructor
  · rintro ⟨⟨s, -, hs, hoctets, -⟩, c, hshrink, -⟩
    constructor
    · by_contra hlarge
      rcases toString_large hsound (Nat.not_lt.mp hlarge) with hnone | ⟨s', hs', hne⟩
      · cases hnone.symm.trans hs
      · cases hs'.symm.trans hs
        exact hne hoctets
    · by_contra hmax
      exact shrink_large hwrap (Nat.not_le.mp hmax) c hshrink
  · rintro ⟨hsmall, hmax⟩
    obtain ⟨s, hs, hoctets⟩ := toString_ok hsound hsmall
    obtain ⟨s', c, hs', hoctets'⟩ := retrieveAllAsString_ok hsound
    have hsame : s' = s := Block.ext (hoctets'.trans hoctets.symm)
    obtain ⟨d, hd, hread, hroom, hreader⟩ := shrink_ok hsound hsmall hmax
    exact ⟨⟨s, c, hs, hoctets, hsame ▸ hs'⟩, d, hd, hread, hroom, hreader.ge⟩

/-- A buffer of any content the vector can hold is reached by one call. -/
lemma exists_reachable {n : ℕ} (hn : n + 8 ≤ maxSize) :
    ∃ b, Reachable b ∧ b.readableBytes.toNat = n := by
  obtain ⟨o, ho, hsound, -, -, hw, hempty⟩ := ofInitialSize_default
  let data : Block := ⟨List.replicate n 0, by
    rw [List.length_replicate]
    exact (Nat.le_add_right n 8).trans hn⟩
  have hlength : data.octets.length = n := List.length_replicate
  have hcheap : kCheapPrepend.toNat = 8 := rfl
  rcases append_sim hsound data with ⟨-, hthrew⟩ | ⟨c, hc, hnum⟩
  · rw [hw, hcheap, hlength] at hthrew
    omega
  · have hstep : machine.step o (.append data) = .ok c := by
      show o.step (.append data) = _
      rw [step, hc, ok_bind]
      rfl
    have hrun : machine.run o [.append data] = .ok c := machine.run_cons_ok hstep _
    have hreach : Reachable c := by
      refine ⟨kInitialSize, o, [.append data], ho, by decide, ⟨trivial, ?_⟩, hrun⟩
      rw [hstep]
      trivial
    obtain ⟨d, hd, -, hread⟩ := Buffer.append_spec hsound data.octets
    cases hd.symm.trans hnum
    have hoctets : c.readable = o.readable ++ data.octets := hread
    refine ⟨c, hreach, ?_⟩
    rw [← hreach.sound.length_readable, hoctets, hempty, List.nil_append, hlength]

/-- A buffer of `1000` octets keeps them. -/
theorem keepsContent_iff_small : ∃ b, Reachable b ∧ b.readableBytes.toNat = 1000 ∧
    b.KeepsContent 24 := by
  obtain ⟨b, hreach, hlength⟩ := exists_reachable (n := 1000) (by decide)
  have hwrap : b.readableBytes.toNat + (24 : SizeT).toNat < 2 ^ 64 := by
    rw [hlength]
    decide
  refine ⟨b, hreach, hlength, (keepsContent_iff hreach hwrap).mpr ?_⟩
  rw [hlength]
  decide

/-- With `2^31` readable octets `toString` throws, and so does `shrink(0)`. -/
theorem toString_throws : ∃ b, Reachable b ∧ b.readableBytes.toNat = 2 ^ 31 ∧
    b.toString = .ok none ∧ b.shrink 0 = .ok (.threw b) ∧ ¬ b.KeepsContent 0 := by
  obtain ⟨b, hreach, hlength⟩ := exists_reachable (n := 2 ^ 31) (by decide)
  have hthrows : b.toString = .ok none := by
    have hlen := toNat_toStringLength b.readableBytes
    rw [hlength] at hlen
    unfold toString newString
    exact if_neg (by rw [hlen]; decide)
  have hshrink : b.shrink 0 = .ok (.threw b) := by
    have hzero : b.readableBytes + 0 = b.readableBytes := BitVec.add_zero _
    obtain ⟨o, o₂, ho, ho₂, -⟩ := ensureWritableBytes_default_ok (b.readableBytes + 0)
      (by rw [hzero, hlength]; decide)
    rw [shrink, ho]
    dsimp only
    rw [ho₂, ok_bind]
    dsimp only
    rw [hthrows, ok_bind]
  refine ⟨b, hreach, hlength, hthrows, hshrink, ?_⟩
  rintro ⟨⟨s, -, hs, -⟩, -⟩
  cases hthrows.symm.trans hs

end Buffer64

end Firey
