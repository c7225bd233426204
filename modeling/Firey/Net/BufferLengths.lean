import Firey.Framework.Machine
import Firey.Net.Buffer64Steps
import Mathlib.Data.BitVec

/-!
# Lengths a buffer can be asked for

`ensureWritableBytes(len)` adds `kCheapPrepend` and `writerIndex_` to its argument, and its last
assertion is made with the same arithmetic.  When the second sum wraps, `resize` makes the storage
smaller than `writerIndex_`, `writableBytes()` wraps as well, and the assertion passes; when only
the first one does, an assertion fails.  `safe_iff` says exactly when neither happens, and
`ensureWritableBytes_safe_iff` says it for every call of every run.
-/

set_option autoImplicit false

namespace Firey

namespace Buffer64

variable {b : Buffer64}

/-! ## What is asked of `ensureWritableBytes` -/

/-- The call threw and left `b` as it was, or returned with its readable octets, the indices in
order and room for `len` octets. -/
def Ensured (b : Buffer64) (len : SizeT) : Except Fault Outcome → Prop
  | .ok (.threw c) => c = b
  | .ok (.returned c) =>
      c.readable = b.readable ∧ c.readerIndex.toNat ≤ c.writerIndex.toNat ∧
        c.writerIndex.toNat ≤ c.buffer.octets.length ∧
        (len.toNat : ℤ) ≤ (c.buffer.octets.length : ℤ) - c.writerIndex.toNat
  | .error _ => False

instance (b : Buffer64) (len : SizeT) : (x : Except Fault Outcome) → Decidable (b.Ensured len x)
  | .ok (.threw c) => inferInstanceAs (Decidable (c = b))
  | .ok (.returned c) => inferInstanceAs (Decidable (c.readable = b.readable ∧
      c.readerIndex.toNat ≤ c.writerIndex.toNat ∧ c.writerIndex.toNat ≤ c.buffer.octets.length ∧
        (len.toNat : ℤ) ≤ (c.buffer.octets.length : ℤ) - c.writerIndex.toNat))
  | .error _ => .isFalse id

/-- `ensureWritableBytes(len)` is safe. -/
def Safe (b : Buffer64) (len : SizeT) : Prop := b.Ensured len (b.ensureWritableBytes len)

instance (b : Buffer64) (len : SizeT) : Decidable (b.Safe len) :=
  inferInstanceAs (Decidable (b.Ensured len _))

lemma safe_of_fits (h : b.Sound) {len : SizeT} (hfits : b.Fits len) : b.Safe len := by
  unfold Safe
  rcases ensureWritableBytes_sim h hfits with ⟨hthrew, -⟩ | ⟨c, hc, hsound, hread, hroom, -⟩
  · rw [hthrew]
    rfl
  · rw [hc]
    have hw := hsound.writer_le
    have hwb : c.toBuffer.writableBytes = c.buffer.octets.length - c.writerIndex.toNat := rfl
    exact ⟨hread, hsound.reader_le, hw, by omega⟩

/-- A `resize` to less than `writerIndex_` goes unnoticed. -/
lemma not_safe_of_wraps {len : SizeT} (hlen : b.writableBytes < len)
    (hgrow : b.writableBytes + b.prependableBytes < len + kCheapPrepend)
    (hmax : (b.writerIndex + len).toNat ≤ maxSize)
    (hwraps : (b.writerIndex + len).toNat < b.writerIndex.toNat) : ¬ b.Safe len := by
  intro hsafe
  unfold Safe ensureWritableBytes makeSpace at hsafe
  rw [if_pos hlen, if_pos hgrow, Block.resize, dif_pos hmax] at hsafe
  dsimp only [ok_bind] at hsafe
  unfold check at hsafe
  split at hsafe
  · obtain ⟨-, -, hw, -⟩ := hsafe
    rw [List.length_append, List.length_take, List.length_replicate] at hw
    change b.writerIndex.toNat ≤ _ at hw
    omega
  · exact hsafe

/-- The second branch of `makeSpace` cannot make room for a length close to `2^64`: one of the
assertions fails. -/
lemma not_safe_of_short (h : b.Sound) {len : SizeT} (hlen : b.writableBytes < len)
    (hgrow : ¬ b.writableBytes + b.prependableBytes < len + kCheapPrepend)
    (hlarge : 2 ^ 63 ≤ len.toNat) : ¬ b.Safe len := by
  intro hsafe
  unfold Safe ensureWritableBytes at hsafe
  rw [if_pos hlen] at hsafe
  by_cases hreader : kCheapPrepend < b.readerIndex
  · obtain ⟨c, hc, hmoved⟩ := makeSpace_move h hgrow hreader
    have hsound : c.Sound := by
      unfold Sound
      rw [hmoved]
      exact (Buffer.moveToFront_spec h (BitVec.lt_def.mp hreader).le).1
    have hroom : ¬ len ≤ c.writableBytes := by
      rw [BitVec.le_def, hsound.toNat_writableBytes]
      have hsize := c.length_lt
      have hwb : c.toBuffer.writableBytes = c.buffer.octets.length - c.writerIndex.toNat := rfl
      omega
    rw [hc, ok_bind] at hsafe
    dsimp only at hsafe
    rw [check_false hroom] at hsafe
    exact hsafe
  · rw [makeSpace, if_neg hgrow, check_false hreader] at hsafe
    exact hsafe

lemma fits_of_safe (h : b.Sound) {len : SizeT} (hsafe : b.Safe len) : b.Fits len := by
  by_contra hfits
  have hr := h.reader_le
  have hw := h.writer_le
  have hpre := h.prepend_le
  have hsize := b.length_lt
  have hwritable : b.writableBytes.toNat = b.buffer.octets.length - b.writerIndex.toNat :=
    h.toNat_writableBytes
  have hcheap : kCheapPrepend.toNat = 8 := rfl
  have hleft : (b.writableBytes + b.prependableBytes).toNat =
      b.buffer.octets.length - b.writerIndex.toNat + b.readerIndex.toNat :=
    h.toNat_writable_add_prependable
  have hright : (len + kCheapPrepend).toNat = (len.toNat + 8) % 2 ^ 64 := by
    rw [BitVec.toNat_add, hcheap]
  have hsum : (b.writerIndex + len).toNat = (b.writerIndex.toNat + len.toNat) % 2 ^ 64 :=
    BitVec.toNat_add _ _
  have hlenlt := len.isLt
  unfold Fits at hfits
  rw [hcheap] at hfits
  have hlen : b.writableBytes < len := by
    rw [BitVec.lt_def, hwritable]
    omega
  by_cases hgrow : b.writableBytes + b.prependableBytes < len + kCheapPrepend
  · have hgrow' := hgrow
    rw [BitVec.lt_def, hleft, hright] at hgrow'
    have hbound : (b.writerIndex + len).toNat < b.writerIndex.toNat := by
      rw [hsum]
      omega
    refine not_safe_of_wraps hlen hgrow ?_ hbound hsafe
    have hmax := b.buffer.bounded
    omega
  · have hgrow' := hgrow
    rw [BitVec.lt_def, hleft, hright] at hgrow'
    exact not_safe_of_short h hlen hgrow (by omega) hsafe

/-- **`ensureWritableBytes` is safe** exactly when neither of its sums wraps. -/
theorem safe_iff (h : b.Sound) (len : SizeT) : b.Safe len ↔ b.Fits len :=
  ⟨fits_of_safe h, safe_of_fits h⟩

/-! ## The constructor -/

lemma ofInitialSize_spec {initialSize : SizeT} (h : ofInitialSize initialSize = some b) :
    b.buffer.octets.length = (kCheapPrepend + initialSize).toNat ∧
      b.readerIndex = kCheapPrepend ∧ b.writerIndex = kCheapPrepend ∧ b.readable = [] := by
  unfold ofInitialSize at h
  dsimp only at h
  split at h
  · cases h
    exact ⟨List.length_replicate, rfl, rfl, window_self _ _⟩
  · cases h

/-- The three assertions of the constructor hold of every buffer it makes, also of one whose
storage came out too small. -/
theorem ofInitialSize_asserts {initialSize : SizeT} (h : ofInitialSize initialSize = some b) :
    b.readableBytes = 0 ∧ b.writableBytes = initialSize ∧ b.prependableBytes = kCheapPrepend := by
  obtain ⟨hlen, hr, hw, -⟩ := ofInitialSize_spec h
  refine ⟨?_, ?_, hr⟩
  · rw [readableBytes, hr, hw]
    rfl
  · have hsize : b.buffer.size = kCheapPrepend + initialSize := by
      rw [Block.size, hlen, BitVec.ofNat_toNat, BitVec.setWidth_eq]
    rw [writableBytes, hsize, hw, BitVec.add_comm, BitVec.add_sub_cancel]

/-- The size of the storage does not wrap. -/
lemma ofInitialSize_sound {initialSize : SizeT} (h : ofInitialSize initialSize = some b)
    (hsize : kCheapPrepend.toNat + initialSize.toNat < 2 ^ 64) : b.Sound := by
  obtain ⟨hlen, hr, hw, -⟩ := ofInitialSize_spec h
  have hcheap : kCheapPrepend.toNat = 8 := rfl
  rw [BitVec.toNat_add, Nat.mod_eq_of_lt hsize, hcheap] at hlen
  refine ⟨?_, ?_, ?_⟩
  · show b.readerIndex.toNat ≤ b.writerIndex.toNat
    rw [hr, hw]
  · show b.writerIndex.toNat ≤ b.buffer.octets.length
    rw [hw, hcheap]
    omega
  · show 8 ≤ b.buffer.octets.length
    omega

/-- A buffer whose storage came out too small is never safe. -/
lemma not_safe_of_ofInitialSize {initialSize : SizeT} (h : ofInitialSize initialSize = some b)
    (hsize : 2 ^ 64 ≤ kCheapPrepend.toNat + initialSize.toNat) (len : SizeT) : ¬ b.Safe len := by
  obtain ⟨hlength, hr, hw, -⟩ := ofInitialSize_spec h
  obtain ⟨-, hwritable, hprep⟩ := ofInitialSize_asserts h
  have hcheap : kCheapPrepend.toNat = 8 := rfl
  have hlt := initialSize.isLt
  have hlenlt := len.isLt
  rw [BitVec.toNat_add, hcheap] at hlength
  by_cases hlen : b.writableBytes < len
  · have hlen' := hlen
    rw [hwritable, BitVec.lt_def] at hlen'
    have hsum : (b.writerIndex + len).toNat = (8 + len.toNat) % 2 ^ 64 := by
      rw [BitVec.toNat_add, hw, hcheap]
    have hgrow : b.writableBytes + b.prependableBytes < len + kCheapPrepend := by
      rw [hwritable, hprep, BitVec.lt_def, BitVec.toNat_add, BitVec.toNat_add, hcheap]
      omega
    refine not_safe_of_wraps hlen hgrow ?_ ?_
    · rw [hsum, maxSize]
      omega
    · rw [hsum, hw, hcheap]
      omega
  · intro hsafe
    have hroom : len ≤ b.writableBytes := by
      rw [BitVec.le_def]
      rw [BitVec.lt_def] at hlen
      omega
    unfold Safe ensureWritableBytes at hsafe
    rw [if_neg hlen, check_true hroom, ok_bind] at hsafe
    obtain ⟨-, -, hw', -⟩ := hsafe
    rw [hw, hcheap, hlength] at hw'
    omega

/-! ## Runs -/

/-- The length asked for in a call of `ensureWritableBytes` fits. -/
def Call.Fits (b : Buffer64) : Call → Prop
  | .ensureWritableBytes len => b.Fits len
  | _ => True

/-- A call of `ensureWritableBytes` is safe. -/
def Call.Safe (b : Buffer64) : Call → Prop
  | .ensureWritableBytes len => b.Safe len
  | _ => True

instance (b : Buffer64) : (call : Call) → Decidable (call.Fits b)
  | .ensureWritableBytes len => inferInstanceAs (Decidable (b.Fits len))
  | .append _ | .prepend _ | .retrieve _ | .retrieveUntil _ | .retrieveAll | .retrieveAsString _
  | .unwrite _ | .hasWritten _ | .shrink _ | .readFd _ => .isTrue trivial

/-- What `shrink` leaves: the buffer as it was, or one made by the constructor and two calls that
made room. -/
lemma shrink_eq_ok {reserve : SizeT} {out : Outcome} (h : b.shrink reserve = .ok out) :
    out = .threw b ∨ ∃ o₁ o₂ o₃ content, ofInitialSize kInitialSize = some o₁ ∧
      o₁.ensureWritableBytes (b.readableBytes + reserve) = .ok (.returned o₂) ∧
      b.toString = .ok (some content) ∧ o₂.append content = .ok (.returned o₃) ∧
      out = .returned o₃ := by
  unfold shrink at h
  split at h
  · cases h
    exact Or.inl rfl
  · rename_i o₁ ho₁
    obtain ⟨x, hx, h⟩ := bind_eq_ok h
    cases x with
    | threw c =>
      cases h
      exact Or.inl rfl
    | returned o₂ =>
      obtain ⟨y, hy, h⟩ := bind_eq_ok h
      cases y with
      | none =>
        cases h
        exact Or.inl rfl
      | some content =>
        obtain ⟨z, hz, h⟩ := bind_eq_ok h
        cases z with
        | threw c =>
          cases h
          exact Or.inl rfl
        | returned o₃ =>
          cases h
          exact Or.inr ⟨o₁, o₂, o₃, content, ho₁, hx, hy, hz, rfl⟩

/-- The default buffer, of which `shrink` makes one. -/
lemma ofInitialSize_default : ∃ o, ofInitialSize kInitialSize = some o ∧ o.Sound ∧
    o.buffer.octets.length = 1032 ∧ o.readerIndex = kCheapPrepend ∧
    o.writerIndex = kCheapPrepend ∧ o.readable = [] := by
  have hsome : (ofInitialSize kInitialSize).isSome = true := by
    unfold ofInitialSize
    dsimp only
    rw [dif_pos (by decide)]
    rfl
  obtain ⟨o, ho⟩ := Option.isSome_iff_exists.mp hsome
  exact ⟨o, ho, ofInitialSize_sound ho (by decide), ofInitialSize_spec ho⟩

/-- Of the default buffer, an assertion fails when the length does not fit. -/
lemma ensureWritableBytes_default {o : Buffer64} (hsound : o.Sound)
    (hlength : o.buffer.octets.length = 1032) (hr : o.readerIndex = kCheapPrepend)
    (hw : o.writerIndex = kCheapPrepend) {len : SizeT} (hlen : 2 ^ 64 ≤ len.toNat + 8) :
    o.ensureWritableBytes len = .error (.assertion .makeSpaceReader) := by
  have hcheap : kCheapPrepend.toNat = 8 := rfl
  have hwritable : o.writableBytes.toNat = 1024 := by
    rw [hsound.toNat_writableBytes]
    show o.buffer.octets.length - o.writerIndex.toNat = 1024
    rw [hlength, hw, hcheap]
  have hlt : o.writableBytes < len := by
    rw [BitVec.lt_def, hwritable]
    omega
  have hgrow : ¬ o.writableBytes + o.prependableBytes < len + kCheapPrepend := by
    rw [BitVec.lt_def, BitVec.toNat_add, BitVec.toNat_add, hwritable, prependableBytes, hr, hcheap]
    have := len.isLt
    omega
  have hreader : ¬ kCheapPrepend < o.readerIndex := by
    rw [hr]
    decide
  rw [ensureWritableBytes, if_pos hlt, makeSpace, if_neg hgrow, check_false hreader]
  rfl

/-- A call that agrees with the numbers keeps the indices in order. -/
lemma sound_of_sim (op : Buffer.Op) (h : b.Sound) {x : Except Fault Buffer64} {c : Buffer64}
    (hsim : x.map toBuffer = op.apply b.toBuffer) (hx : x = .ok c) : c.Sound := by
  subst hx
  exact op.apply_wf h hsim.symm

lemma append_sound (h : b.Sound) {data : Block} {out : Outcome} (hcall : b.append data = .ok out) :
    out.buffer.Sound := by
  rcases append_sim h data with ⟨hthrew, -⟩ | ⟨c, hc, happ⟩
  · cases hthrew.symm.trans hcall
    exact h
  · cases hc.symm.trans hcall
    exact Buffer.Op.apply_wf (.append data.octets) h happ

lemma ensureWritableBytes_sound (h : b.Sound) {len : SizeT} (hfits : b.Fits len) {out : Outcome}
    (hcall : b.ensureWritableBytes len = .ok out) : out.buffer.Sound := by
  rcases ensureWritableBytes_sim h hfits with ⟨hthrew, -⟩ | ⟨c, hc, hsound, -⟩
  · cases hthrew.symm.trans hcall
    exact h
  · cases hc.symm.trans hcall
    exact hsound

lemma shrink_sound (h : b.Sound) {reserve : SizeT} {out : Outcome}
    (hcall : b.shrink reserve = .ok out) : out.buffer.Sound := by
  rcases shrink_eq_ok hcall with rfl | ⟨o₁, o₂, o₃, content, ho₁, ho₂, -, ho₃, rfl⟩
  · exact h
  · obtain ⟨o, ho, hsound, hlength, hr, hw, -⟩ := ofInitialSize_default
    cases ho.symm.trans ho₁
    have hfits : o₁.Fits (b.readableBytes + reserve) := by
      unfold Fits
      rw [hw, max_self]
      by_contra hlen
      have herror := ensureWritableBytes_default hsound hlength hr hw (Nat.not_lt.mp hlen)
      cases herror.symm.trans ho₂
    have hsound₂ : o₂.Sound := ensureWritableBytes_sound hsound hfits ho₂
    exact append_sound hsound₂ ho₃

lemma step_sound (h : b.Sound) {call : Call} (hfits : call.Fits b) {c : Buffer64}
    (hstep : b.step call = .ok c) : c.Sound := by
  cases call with
  | append data =>
    obtain ⟨out, hout, hc⟩ := bind_eq_ok hstep
    cases hc
    exact append_sound h hout
  | prepend data => exact sound_of_sim (.prepend data.octets) h (prepend_sim h data) hstep
  | retrieve len => exact sound_of_sim (.retrieve len.toNat) h (retrieve_sim h len) hstep
  | retrieveUntil stop =>
    have hsim := retrieveUntil_sim h stop
    obtain ⟨_, hcheck, -⟩ := bind_eq_ok hstep
    have hle : b.toBuffer.readerIndex ≤ stop.toNat := BitVec.le_def.mp (check_eq_ok hcheck).1
    have hoffset : b.toBuffer.readerIndex + (stop.toNat - b.toBuffer.readerIndex) = stop.toNat :=
      Nat.add_sub_of_le hle
    refine sound_of_sim (.retrieveUntil (stop.toNat - b.toBuffer.readerIndex)) h ?_ hstep
    rw [Buffer.Op.apply, hoffset]
    exact hsim
  | retrieveAll =>
    cases hstep
    exact Buffer.retrieveAll_wf h
  | retrieveAsString len =>
    obtain ⟨⟨s, d⟩, hret, hc⟩ := bind_eq_ok hstep
    cases hc
    obtain ⟨_, hcheck, -⟩ := bind_eq_ok hret
    have hlen := h.le_readableBytes_iff.mp (check_eq_ok hcheck)
    obtain ⟨s', c', hsim, hnum⟩ := retrieveAsString_sim h hlen
    cases hsim.symm.trans hret
    refine Buffer.Op.apply_wf (.retrieveAsString len.toNat) h ?_
    rw [Buffer.Op.apply, hnum, ok_bind]
  | unwrite len => exact sound_of_sim (.unwrite len.toNat) h (unwrite_sim h len) hstep
  | ensureWritableBytes len =>
    obtain ⟨out, hout, hc⟩ := bind_eq_ok hstep
    cases hc
    exact ensureWritableBytes_sound h hfits hout
  | hasWritten data =>
    exact sound_of_sim (.hasWritten data.octets) h (hasWritten_sim h data) hstep
  | shrink reserve =>
    obtain ⟨out, hout, hc⟩ := bind_eq_ok hstep
    cases hc
    exact shrink_sound h hout
  | readFd r =>
    obtain ⟨out, hout, hc⟩ := bind_eq_ok hstep
    cases hc
    rcases readFd_sim h r with ⟨d, hthrew, hsound⟩ | ⟨d, result, hd, hnum, hbuf⟩
    · cases hthrew.symm.trans hout
      exact hsound
    · cases hd.symm.trans hout
      have hop : (Buffer.Op.readFd r).apply b.toBuffer = .ok d.toBuffer := by
        rw [Buffer.Op.apply, hnum, ok_bind, hbuf]
      exact Buffer.Op.apply_wf (.readFd r) h hop

/-- **`ensureWritableBytes` is safe in every call of a run** exactly when in every such call
neither sum wraps, for a buffer that was constructed without a wrap; a buffer whose constructor
wrapped is not safe for any length. -/
theorem ensureWritableBytes_safe_iff {initialSize : SizeT}
    (h : ofInitialSize initialSize = some b) :
    (kCheapPrepend.toNat + initialSize.toNat < 2 ^ 64 → ∀ calls,
        machine.Along (fun b call => call.Safe b) b calls ↔
          machine.Along (fun b call => call.Fits b) b calls) ∧
      (2 ^ 64 ≤ kCheapPrepend.toNat + initialSize.toNat → ∀ len, ¬ b.Safe len) := by
  refine ⟨fun hsize calls => ?_, not_safe_of_ofInitialSize h⟩
  refine machine.along_iff_along (I := Sound) ?_ (fun s i t hs hi ht => step_sound hs hi ht)
    (ofInitialSize_sound h hsize)
  intro s call hs
  cases call with
  | ensureWritableBytes len => exact safe_iff hs len
  | append _ | prepend _ | retrieve _ | retrieveUntil _ | retrieveAll | retrieveAsString _
  | unwrite _ | hasWritten _ | shrink _ | readFd _ => exact Iff.rfl

/-- A few small lengths, and one that the vector refuses. -/
theorem ensureWritableBytes_safe_small : ∃ b, ofInitialSize 4 = some b ∧
    machine.Along (fun b call => call.Safe b) b
      [.append ⟨[1, 2, 3], by decide⟩, .ensureWritableBytes 5, .retrieve 2,
        .ensureWritableBytes (2 ^ 63), .ensureWritableBytes 3] := by
  have hctor : ofInitialSize 4 = some ⟨⟨List.replicate 12 0, by decide⟩, 8, 8⟩ := by
    decide +kernel
  exact ⟨_, hctor, ((ensureWritableBytes_safe_iff hctor).1 (by decide) _).mpr
    (by decide +kernel)⟩

/-- One octet is readable and `2^64-9` are asked for: the storage is made empty, with
`writerIndex_` still 9, and no assertion notices.  Of the default buffer `2^64-1` octets make an
assertion fail. -/
theorem ensureWritableBytes_unsafe :
    (∃ b, ofInitialSize 0 = some b ∧ ∃ out, b.append ⟨[7], by decide⟩ = .ok out ∧
      out.buffer.readable = [7] ∧ ¬ out.buffer.Safe (2 ^ 64 - 9) ∧
        ∃ out', out.buffer.ensureWritableBytes (2 ^ 64 - 9) = .ok out' ∧
          out'.buffer.buffer.octets = [] ∧ out'.buffer.writerIndex = 9) ∧
      ∃ b, ofInitialSize kInitialSize = some b ∧ ¬ b.Safe (2 ^ 64 - 1) ∧
        b.ensureWritableBytes (2 ^ 64 - 1) = .error (.assertion .makeSpaceReader) := by
  have hsmall : ofInitialSize 0 = some ⟨⟨List.replicate 8 0, by decide⟩, 8, 8⟩ := by
    decide +kernel
  have hdefault : ofInitialSize kInitialSize =
      some ⟨⟨List.replicate 1032 0, by rw [List.length_replicate]; decide⟩, 8, 8⟩ := by
    decide +kernel
  exact ⟨⟨_, hsmall, by decide +kernel⟩, _, hdefault, by decide +kernel, by decide +kernel⟩

end Buffer64

end Firey
