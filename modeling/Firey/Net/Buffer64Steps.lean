import Firey.Net.Buffer64

/-!
# What a call does when no sum wraps

Each operation of `Buffer64` on a buffer whose indices are in order, as the operation of `Buffer` on
the numbers.  Those that cannot throw agree with it on every argument, failed assertions included
(`retrieve_sim`, `hasWritten_sim`, `prepend_sim`).  Those that make room may also throw, and
`ensureWritableBytes` asks for a length that `Fits`; what `append` and `readFd` ask for always does.
-/

set_option autoImplicit false

namespace Firey

namespace Buffer64

variable {b : Buffer64}

lemma ok_of_map {x : Except Fault Buffer64} {c : Buffer} (h : x.map toBuffer = .ok c) :
    ∃ b, x = .ok b ∧ b.toBuffer = c := by
  cases x with
  | error e => cases h
  | ok b => exact ⟨b, rfl, Except.ok.inj h⟩

/-- An assertion of the same meaning in front of two sequences. -/
lemma check_sim {a : Assertion} {p q : Prop} [Decidable p] [Decidable q]
    {x : Except Fault Buffer64} {y : Except Fault Buffer} (hiff : p ↔ q)
    (hsim : p → x.map toBuffer = y) :
    (check a p >>= fun _ => x).map toBuffer = check a q >>= fun _ => y := by
  by_cases hp : p
  · rw [check_true hp, check_true (hiff.mp hp)]
    exact hsim hp
  · rw [check_false hp, check_false fun hq => hp (hiff.mpr hq)]
    rfl

/-! ## Comparisons -/

namespace Sound

lemma le_readableBytes_iff (h : b.Sound) {len : SizeT} :
    len ≤ b.readableBytes ↔ len.toNat ≤ b.toBuffer.readableBytes := by
  rw [BitVec.le_def, h.toNat_readableBytes]

lemma lt_readableBytes_iff (h : b.Sound) {len : SizeT} :
    len < b.readableBytes ↔ len.toNat < b.toBuffer.readableBytes := by
  rw [BitVec.lt_def, h.toNat_readableBytes]

lemma writableBytes_lt_iff (h : b.Sound) {len : SizeT} :
    b.writableBytes < len ↔ b.toBuffer.writableBytes < len.toNat := by
  rw [BitVec.lt_def, h.toNat_writableBytes]

/-- The octets outside of the content are counted without a wrap. -/
lemma toNat_writable_add_prependable (h : b.Sound) :
    (b.writableBytes + b.prependableBytes).toNat =
      b.toBuffer.writableBytes + b.toBuffer.prependableBytes := by
  have hr := h.reader_le
  have hw := h.writer_le
  have hsize := b.length_lt
  have hwb : b.toBuffer.writableBytes = b.buffer.octets.length - b.writerIndex.toNat := rfl
  have hpb : b.toBuffer.prependableBytes = b.readerIndex.toNat := rfl
  rw [BitVec.toNat_add, h.toNat_writableBytes, prependableBytes]
  omega

lemma size_le_writableBytes_iff (h : b.Sound) {data : Block} :
    data.size ≤ b.writableBytes ↔ data.octets.length ≤ b.toBuffer.writableBytes := by
  rw [BitVec.le_def, data.toNat_size, h.toNat_writableBytes]

end Sound

lemma size_le_prependableBytes_iff {data : Block} :
    data.size ≤ b.prependableBytes ↔ data.octets.length ≤ b.toBuffer.prependableBytes := by
  rw [BitVec.le_def, data.toNat_size]
  exact Iff.rfl

/-! ## Removing octets -/

lemma retrieve_sim (h : b.Sound) (len : SizeT) :
    (b.retrieve len).map toBuffer = b.toBuffer.retrieve len.toNat := by
  have hr := h.reader_le
  have hw := b.writerIndex.isLt
  have hsub : b.toBuffer.readableBytes = b.writerIndex.toNat - b.readerIndex.toNat := rfl
  refine check_sim h.le_readableBytes_iff fun _ => ?_
  by_cases hpart : len < b.readableBytes
  · have hpart' := h.lt_readableBytes_iff.mp hpart
    have hsum : (b.readerIndex + len).toNat = b.readerIndex.toNat + len.toNat := by
      rw [BitVec.toNat_add]
      omega
    rw [if_pos hpart, if_pos hpart']
    simp only [Except.map, toBuffer, hsum]
  · rw [if_neg hpart, if_neg fun hlt => hpart (h.lt_readableBytes_iff.mpr hlt)]
    rfl

lemma retrieveUntil_sim (h : b.Sound) (stop : SizeT) :
    (b.retrieveUntil stop).map toBuffer = b.toBuffer.retrieveUntil stop.toNat := by
  refine check_sim (and_congr BitVec.le_def BitVec.le_def) fun hin => ?_
  have hsub : (stop - b.readerIndex).toNat = stop.toNat - b.readerIndex.toNat :=
    BitVec.toNat_sub_of_le hin.1
  rw [retrieve_sim h, hsub]
  rfl

lemma unwrite_sim (h : b.Sound) (len : SizeT) :
    (b.unwrite len).map toBuffer = b.toBuffer.unwrite len.toNat := by
  have hsub : b.toBuffer.readableBytes = b.writerIndex.toNat - b.readerIndex.toNat := rfl
  refine check_sim h.le_readableBytes_iff fun hlen => ?_
  have hlen' := h.le_readableBytes_iff.mp hlen
  have hdiff : (b.writerIndex - len).toNat = b.writerIndex.toNat - len.toNat := by
    refine BitVec.toNat_sub_of_le (BitVec.le_def.mpr ?_)
    omega
  simp only [Except.map, toBuffer, hdiff]

/-- A string of readable octets is built without an exception. -/
lemma newString_ok (h : b.Sound) {len : SizeT} (hlen : len.toNat ≤ b.toBuffer.readableBytes) :
    ∃ s, b.newString len = .ok (some s) ∧ s.octets = b.readable.take len.toNat := by
  have hr := h.reader_le
  have hw := h.writer_le
  have hbound := b.buffer.bounded
  have hsub : b.toBuffer.readableBytes = b.writerIndex.toNat - b.readerIndex.toNat := rfl
  obtain ⟨s, hs, hoctets⟩ := b.buffer.read_ok
    (show b.readerIndex.toNat + len.toNat ≤ b.buffer.octets.length by omega)
  refine ⟨s, ?_, ?_⟩
  · rw [newString, if_pos (by omega), hs, ok_bind]
  · rw [hoctets, readable, window_take (by omega)]

lemma retrieveAsString_sim (h : b.Sound) {len : SizeT}
    (hlen : len.toNat ≤ b.toBuffer.readableBytes) :
    ∃ s c, b.retrieveAsString len = .ok (some s, c) ∧
      b.toBuffer.retrieveAsString len.toNat = .ok (s.octets, c.toBuffer) := by
  obtain ⟨s, hs, hoctets⟩ := newString_ok h hlen
  obtain ⟨d, hret, -⟩ := Buffer.retrieve_spec h hlen
  obtain ⟨c, hc, rfl⟩ := ok_of_map ((retrieve_sim h len).trans hret)
  refine ⟨s, c, ?_, ?_⟩
  · rw [retrieveAsString, check_true (h.le_readableBytes_iff.mpr hlen), ok_bind, hs, ok_bind]
    dsimp only
    rw [hc, ok_bind]
  · rw [Buffer.retrieveAsString, check_true hlen, ok_bind, hret, ok_bind, hoctets]
    rfl

/-! ## Making room -/

/-- The readable octets can be moved down to the prepend area. -/
lemma move_ok (h : b.Sound) (hreader : Buffer.kCheapPrepend < b.readerIndex.toNat) :
    ∃ content v, b.buffer.read b.readerIndex.toNat b.readableBytes.toNat = .ok content ∧
      b.buffer.write kCheapPrepend.toNat content.octets = .ok v ∧
      v.octets = overwrite b.buffer.octets Buffer.kCheapPrepend b.readable := by
  have hr := h.reader_le
  have hw := h.writer_le
  have hbytes := h.toNat_readableBytes
  have hread : b.toBuffer.readableBytes = b.writerIndex.toNat - b.readerIndex.toNat := rfl
  have hcheap : kCheapPrepend.toNat = Buffer.kCheapPrepend := rfl
  have hend : b.readerIndex.toNat + b.readableBytes.toNat = b.writerIndex.toNat := by omega
  obtain ⟨content, hcontent, hshow⟩ := b.buffer.read_ok
    (show b.readerIndex.toNat + b.readableBytes.toNat ≤ b.buffer.octets.length by omega)
  rw [hend] at hshow
  have hlength : content.octets.length = b.toBuffer.readableBytes := by
    rw [hshow, length_window hw, hread]
  obtain ⟨v, hv, hmoved⟩ := b.buffer.write_ok (i := kCheapPrepend.toNat) content.octets
    (by omega)
  exact ⟨content, v, hcontent, hv, hmoved.trans (congrArg _ hshow)⟩

/-- With the reader beyond the prepend area, the second branch of `makeSpace` moves the octets
down, whatever length was asked for. -/
lemma makeSpace_move (h : b.Sound) {len : SizeT}
    (hgrow : ¬ b.writableBytes + b.prependableBytes < len + kCheapPrepend)
    (hreader : kCheapPrepend < b.readerIndex) :
    ∃ c, b.makeSpace len = .ok (.returned c) ∧ c.toBuffer = b.toBuffer.moveToFront := by
  have hbytes := h.toNat_readableBytes
  have hread : b.toBuffer.readableBytes = b.writerIndex.toNat - b.readerIndex.toNat := rfl
  have hw := h.writer_le
  have hsize := b.length_lt
  have hcheap : kCheapPrepend.toNat = Buffer.kCheapPrepend := rfl
  have height : Buffer.kCheapPrepend = 8 := rfl
  have hsum : (kCheapPrepend + b.readableBytes).toNat =
      Buffer.kCheapPrepend + b.toBuffer.readableBytes := by
    rw [BitVec.toNat_add, hcheap, hbytes]
    omega
  obtain ⟨content, v, hcontent, hv, hmoved⟩ := move_ok h (BitVec.lt_def.mp hreader)
  have hsame : b.readableBytes = readableBytes
      { buffer := v, readerIndex := kCheapPrepend,
        writerIndex := kCheapPrepend + b.readableBytes } := by
    show b.readableBytes = kCheapPrepend + b.readableBytes - kCheapPrepend
    rw [BitVec.add_comm, BitVec.add_sub_cancel]
  unfold makeSpace
  rw [if_neg hgrow, check_true hreader, ok_bind]
  dsimp only
  rw [hcontent, ok_bind, hv, ok_bind, check_true hsame, ok_bind]
  refine ⟨_, rfl, ?_⟩
  simp only [toBuffer, Buffer.moveToFront, hmoved, hsum]
  rfl

/-- Without a sum that wraps, `makeSpace` does what it does to numbers, or throws. -/
lemma makeSpace_sim (h : b.Sound) {len : SizeT} (hfits : b.Fits len)
    (hlen : b.toBuffer.writableBytes < len.toNat) :
    (b.makeSpace len = .ok (.threw b) ∧ maxSize < b.writerIndex.toNat + len.toNat) ∨
      ∃ c, b.makeSpace len = .ok (.returned c) ∧
        b.toBuffer.makeSpace len.toNat = .ok c.toBuffer := by
  have hr := h.reader_le
  have hw := h.writer_le
  have hsize := b.length_lt
  have hwb : b.toBuffer.writableBytes = b.buffer.octets.length - b.writerIndex.toNat := rfl
  have hpb : b.toBuffer.prependableBytes = b.readerIndex.toNat := rfl
  have hcheap : kCheapPrepend.toNat = Buffer.kCheapPrepend := rfl
  have height : Buffer.kCheapPrepend = 8 := rfl
  unfold Fits at hfits
  have hleft := h.toNat_writable_add_prependable
  have hright : (len + kCheapPrepend).toNat = len.toNat + Buffer.kCheapPrepend := by
    rw [BitVec.toNat_add, hcheap]
    omega
  have hwriter : (b.writerIndex + len).toNat = b.writerIndex.toNat + len.toNat := by
    rw [BitVec.toNat_add]
    omega
  unfold makeSpace Buffer.makeSpace
  by_cases hgrow : b.writableBytes + b.prependableBytes < len + kCheapPrepend
  · have hgrow' := BitVec.lt_def.mp hgrow
    rw [hleft, hright] at hgrow'
    rw [if_pos hgrow, if_pos hgrow']
    rcases Block.resize_grow (v := b.buffer) (n := b.writerIndex + len) (by omega) with
      ⟨hnone, hmax⟩ | ⟨v, hsome, hoctets⟩
    · rw [hnone]
      exact Or.inl ⟨rfl, hwriter ▸ hmax⟩
    · rw [hsome]
      refine Or.inr ⟨_, rfl, ?_⟩
      simp only [toBuffer, hoctets, hwriter]
  · have hgrow' : ¬ b.toBuffer.writableBytes + b.toBuffer.prependableBytes <
        len.toNat + Buffer.kCheapPrepend := by
      rw [← hleft, ← hright, ← BitVec.lt_def]
      exact hgrow
    have hreader : Buffer.kCheapPrepend < b.toBuffer.readerIndex := by
      show _ < b.readerIndex.toNat
      omega
    obtain ⟨c, hc, hmoved⟩ := makeSpace_move h hgrow (BitVec.lt_def.mpr hreader)
    rw [makeSpace] at hc
    rw [hc, if_neg hgrow', check_true hreader, ok_bind,
      check_true (Buffer.readableBytes_moveToFront _).symm, ok_bind]
    exact Or.inr ⟨c, rfl, congrArg Except.ok hmoved.symm⟩

/-- Without a sum that wraps, `ensureWritableBytes` does what it does to numbers, or throws and
leaves the buffer as it was. -/
lemma ensureWritableBytes_sim (h : b.Sound) {len : SizeT} (hfits : b.Fits len) :
    (b.ensureWritableBytes len = .ok (.threw b) ∧
        maxSize < b.writerIndex.toNat + len.toNat) ∨
      ∃ c, b.ensureWritableBytes len = .ok (.returned c) ∧ c.Sound ∧
        c.readable = b.readable ∧ len.toNat ≤ c.toBuffer.writableBytes ∧
        b.toBuffer.ensureWritableBytes len.toNat = .ok c.toBuffer := by
  have hbytes := h.toNat_writableBytes
  unfold ensureWritableBytes
  by_cases hlen : b.writableBytes < len
  · have hlen' := h.writableBytes_lt_iff.mp hlen
    rw [if_pos hlen]
    rcases makeSpace_sim h hfits hlen' with ⟨hthrew, hmax⟩ | ⟨c, hc, hspace⟩
    · rw [hthrew]
      exact Or.inl ⟨rfl, hmax⟩
    · obtain ⟨d, hd, hwf, hread, hroom⟩ := Buffer.makeSpace_spec h hlen'
      cases hd.symm.trans hspace
      have hsound : c.Sound := hwf
      have hroom' : len ≤ c.writableBytes :=
        BitVec.le_def.mpr (hsound.toNat_writableBytes ▸ hroom)
      rw [hc, ok_bind]
      dsimp only
      rw [check_true hroom', ok_bind]
      refine Or.inr ⟨c, rfl, hsound, hread, hroom, ?_⟩
      simp only [Buffer.ensureWritableBytes, if_pos hlen', hspace, ok_bind, check_true hroom]
  · have hroom : len.toNat ≤ b.toBuffer.writableBytes :=
      Nat.le_of_not_lt fun hlt => hlen (h.writableBytes_lt_iff.mpr hlt)
    have hroom' : len ≤ b.writableBytes := BitVec.le_def.mpr (hbytes ▸ hroom)
    rw [if_neg hlen, check_true hroom', ok_bind]
    refine Or.inr ⟨b, rfl, h, rfl, hroom, ?_⟩
    simp only [Buffer.ensureWritableBytes, if_neg (Nat.not_lt.mpr hroom), ok_bind,
      check_true hroom]

/-! ## Adding octets -/

lemma store_ok (h : b.Sound) {data : Bytes} (hroom : data.length ≤ b.toBuffer.writableBytes) :
    ∃ c, b.store data = .ok c ∧ c.toBuffer =
      { b.toBuffer with
        buffer := overwrite b.toBuffer.buffer b.toBuffer.writerIndex data
        writerIndex := b.toBuffer.writerIndex + data.length } := by
  have hw := h.writer_le
  have hsize := b.length_lt
  have hwb : b.toBuffer.writableBytes = b.buffer.octets.length - b.writerIndex.toNat := rfl
  obtain ⟨v, hv, hoctets⟩ := b.buffer.write_ok (i := b.writerIndex.toNat) data (by omega)
  have hsum : (b.writerIndex + BitVec.ofNat 64 data.length).toNat =
      b.writerIndex.toNat + data.length := by
    rw [BitVec.toNat_add, BitVec.toNat_ofNat]
    omega
  refine ⟨_, by rw [store, hv, ok_bind], ?_⟩
  simp only [toBuffer, hoctets, hsum]

lemma hasWritten_sim (h : b.Sound) (data : Block) :
    (b.hasWritten data).map toBuffer = b.toBuffer.hasWritten data.octets := by
  refine check_sim h.size_le_writableBytes_iff fun hroom => ?_
  obtain ⟨c, hc, hbuf⟩ := store_ok h (h.size_le_writableBytes_iff.mp hroom)
  rw [hc, ← hbuf]
  rfl

/-- The octets of an object never make a sum wrap. -/
lemma fits_size (h : b.Sound) (data : Block) : b.Fits data.size := by
  have hw := h.writer_le
  have hsize := b.length_lt
  have hdata := data.bounded
  unfold maxSize at hdata
  unfold Fits
  rw [data.toNat_size]
  have hcheap : kCheapPrepend.toNat = 8 := rfl
  omega

lemma append_sim (h : b.Sound) (data : Block) :
    (b.append data = .ok (.threw b) ∧
        maxSize < b.writerIndex.toNat + data.octets.length) ∨
      ∃ c, b.append data = .ok (.returned c) ∧
        b.toBuffer.append data.octets = .ok c.toBuffer := by
  unfold append
  rcases ensureWritableBytes_sim h (fits_size h data) with
    ⟨hthrew, hmax⟩ | ⟨c, hc, hsound, -, hroom, hens⟩
  · rw [hthrew]
    exact Or.inl ⟨rfl, data.toNat_size ▸ hmax⟩
  · rw [data.toNat_size] at hroom hens
    obtain ⟨d, hd, -⟩ := Buffer.hasWritten_spec hsound hroom
    obtain ⟨e, he, rfl⟩ := ok_of_map ((hasWritten_sim hsound data).trans hd)
    refine Or.inr ⟨e, ?_, ?_⟩
    · rw [hc, ok_bind]
      dsimp only
      rw [he, ok_bind]
    · rw [Buffer.append, hens, ok_bind, hd]

lemma prepend_sim (h : b.Sound) (data : Block) :
    (b.prepend data).map toBuffer = b.toBuffer.prepend data.octets := by
  have hr := h.reader_le
  have hw := h.writer_le
  have hidx : b.toBuffer.prependableBytes = b.readerIndex.toNat := rfl
  refine check_sim size_le_prependableBytes_iff fun hroom => ?_
  have hroom' := size_le_prependableBytes_iff.mp hroom
  have hle : data.size ≤ b.readerIndex := hroom
  have hdiff : (b.readerIndex - data.size).toNat = b.readerIndex.toNat - data.octets.length := by
    rw [BitVec.toNat_sub_of_le hle, data.toNat_size]
  obtain ⟨v, hv, hoctets⟩ := b.buffer.write_ok
    (i := (b.readerIndex - data.size).toNat) data.octets (by omega)
  dsimp only
  rw [hv, ok_bind]
  simp only [Except.map, toBuffer, hoctets, hdiff]

/-- `readFd` throws with the storage full, or does what it does to numbers. -/
lemma readFd_sim (h : b.Sound) (r : ReadResult) :
    (∃ c, b.readFd r = .ok (.threw c) ∧ c.Sound) ∨
      ∃ c result, b.readFd r = .ok (.returned c) ∧ b.toBuffer.readFd r = .ok result ∧
        result.buffer = c.toBuffer := by
  cases r with
  | failed e => exact Or.inr ⟨b, _, rfl, rfl, rfl⟩
  | got data =>
    have hbytes := h.toNat_writableBytes
    have hoffer : b.readFdOffer = b.toBuffer.readFdOffer := by
      unfold readFdOffer Buffer.readFdOffer
      have hlt : b.writableBytes < extrabufSize ↔
          b.toBuffer.writableBytes < Buffer.extrabufSize := h.writableBytes_lt_iff
      rw [hbytes, if_congr hlt rfl rfl]
      rfl
    unfold readFd Buffer.readFd
    dsimp only
    rw [hoffer, hbytes]
    generalize harrived : data.take b.toBuffer.readFdOffer = arrived
    by_cases hfits : arrived.length ≤ b.toBuffer.writableBytes
    · obtain ⟨c, hc, hbuf⟩ := store_ok h hfits
      rw [if_pos hfits, if_pos hfits, hc, ok_bind]
      exact Or.inr ⟨c, _, rfl, rfl, hbuf.symm⟩
    · have hhead : (arrived.take b.toBuffer.writableBytes).length = b.toBuffer.writableBytes := by
        rw [List.length_take]
        omega
      have hfull : b.toBuffer.writerIndex + b.toBuffer.writableBytes =
          b.toBuffer.buffer.length := Nat.add_sub_of_le h.writer_le
      have hrest : (extrabuf (arrived.drop b.toBuffer.writableBytes)).octets =
          arrived.drop b.toBuffer.writableBytes := by
        refine List.take_of_length_le ?_
        have hle : arrived.length ≤ b.toBuffer.readFdOffer := harrived ▸ List.length_take_le _ _
        have hextra : b.toBuffer.readFdOffer ≤ b.toBuffer.writableBytes + extrabufSize.toNat := by
          unfold Buffer.readFdOffer
          split
          · exact le_rfl
          · exact Nat.add_le_add_left (Nat.zero_le _) _
        rw [List.length_drop]
        omega
      obtain ⟨c, hc, hbuf⟩ := store_ok h hhead.le
      have hsound : c.Sound := by
        unfold Sound
        rw [hbuf]
        exact (Buffer.written_spec h hhead.le).1
      rw [hhead, hfull] at hbuf
      rw [if_neg hfits, if_neg hfits, hc, ok_bind, ← hbuf]
      rcases append_sim hsound (extrabuf (arrived.drop b.toBuffer.writableBytes)) with
        ⟨hthrew, -⟩ | ⟨d, hd, happ⟩
      · exact Or.inl ⟨c, hthrew, hsound⟩
      · rw [hrest] at happ
        rw [happ, ok_bind]
        exact Or.inr ⟨d, _, hd, rfl, rfl⟩

end Buffer64

end Firey
