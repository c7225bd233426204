import Firey.Net.TcpConnection

/-!
# What the functions of a connection do to its output

`TcpConnection.Inv` is the invariant of one connection: its buffers and its channel are in
order, and the write interest of the channel is on exactly while output is pending, as long
as the connection is not closed.  It has to speak about the bit `EPOLLOUT` and not about
`isWriting()`, which is false of a channel that also reads.

`sendInLoop` and `handleWrite`, the two functions that write, are then described once and
completely (`sendInLoop_spec`, `sendInLoop_fails`, `handleWrite_idle`, `handleWrite_spec`).
-/

set_option autoImplicit false

namespace Firey

/-- The octets the kernel took. -/
def handedBy : List Effect → Bytes
  | [] => []
  | .write data n :: es => data.take n ++ handedBy es
  | _ :: es => handedBy es

lemma handedBy_append (es fs : List Effect) :
    handedBy (es ++ fs) = handedBy es ++ handedBy fs := by
  induction es with
  | nil => rfl
  | cons e es ih => cases e <;> simp [handedBy, ih]

/-- A user callback, or the close callback of the server. -/
def Effect.isCall : Effect → Bool
  | .callback _ => true
  | .closeCallback => true
  | _ => false

/-- No callback among the effects. -/
def NoCalls (es : List Effect) : Prop := ∀ e ∈ es, e.isCall = false

lemma noCalls_nil : NoCalls [] := fun _ h => nomatch h

lemma noCalls_cons {e : Effect} {es : List Effect} (he : e.isCall = false) (h : NoCalls es) :
    NoCalls (e :: es) := by
  intro f hf
  rcases List.mem_cons.mp hf with rfl | hf
  · exact he
  · exact h f hf

lemma noCalls_append {es fs : List Effect} (h : NoCalls es) (h' : NoCalls fs) :
    NoCalls (es ++ fs) := by
  intro f hf
  rcases List.mem_append.mp hf with hf | hf
  · exact h f hf
  · exact h' f hf

lemma noCalls_ite {p : Prop} [Decidable p] {e : Effect} (he : e.isCall = false) :
    NoCalls (if p then [e] else []) := by
  split
  · exact noCalls_cons he noCalls_nil
  · exact noCalls_nil

namespace TcpConnection

/-- The message a call hands to `sendInLoop` and that `sendInLoop` does not give up. -/
def Input.accepts (c : TcpConnection) : Input → List Bytes
  | .send true data _ => if c.state = .kConnected then [data] else []
  | .sendInLoop data _ => if c.state = .kDisconnected then [] else [data]
  | _ => []

/-- `EPOLLOUT` is in `events_`. -/
def wantsWrite (c : TcpConnection) : Bool := c.connChannel.events.has kWriteEvent

/-- `EPOLLIN` is in `events_`. -/
def wantsRead (c : TcpConnection) : Bool := c.connChannel.events.has kReadEvent

/-- The octets in `outputBuffer_`. -/
def pending (c : TcpConnection) : Bytes := c.outputBuffer.readable

/-- The invariant of a connection. -/
structure Inv (c : TcpConnection) : Prop where
  input_wf : c.inputBuffer.WF
  output_wf : c.outputBuffer.WF
  channel_ok : c.connChannel.Ok
  wantsWrite_iff : c.state ≠ .kDisconnected → (c.wantsWrite = true ↔ c.pending ≠ [])
  closed : c.state = .kDisconnected → c.wantsWrite = false

lemma ctor_inv : ctor.Inv where
  input_wf := Buffer.ofInitialSize_wf _
  output_wf := Buffer.ofInitialSize_wf _
  channel_ok := Channel.ctor_ok
  wantsWrite_iff := by
    intro _
    rw [pending, ctor, Buffer.readable_ofInitialSize]
    decide
  closed := fun h => nomatch h

namespace Inv

variable {c : TcpConnection}

lemma isWriting_iff (h : c.Inv) :
    c.connChannel.isWriting = true ↔ c.wantsWrite = true ∧ c.wantsRead = false :=
  Channel.isWriting_iff h.channel_ok

lemma readableBytes_eq_zero_iff (h : c.Inv) :
    c.outputBuffer.readableBytes = 0 ↔ c.pending = [] :=
  (Buffer.readable_eq_nil_iff h.output_wf).symm

lemma length_pending (h : c.Inv) : c.pending.length = c.outputBuffer.readableBytes :=
  h.output_wf.length_readable

/-- With nothing pending the channel does not ask for writes. -/
lemma isWriting_of_pending_nil (h : c.Inv) (hnil : c.pending = []) :
    c.connChannel.isWriting = false := by
  rw [Bool.eq_false_iff]
  intro hw
  have hwants := (h.isWriting_iff.mp hw).1
  by_cases hs : c.state = .kDisconnected
  · rw [h.closed hs] at hwants
    cases hwants
  · exact (h.wantsWrite_iff hs).mp hwants hnil

/-- Output pending and a channel that also reads: `isWriting()` is false all the same. -/
lemma not_isWriting_of_wantsRead (h : c.Inv) (hr : c.wantsRead = true) :
    c.connChannel.isWriting = false := by
  rw [Bool.eq_false_iff]
  intro hw
  rw [(h.isWriting_iff.mp hw).2] at hr
  cases hr

end Inv

/-! ## `sendInLoop` -/

/-- With nothing pending and a kernel that takes something, `sendInLoop` hands over what was
taken and keeps exactly the rest, asking for write events if there is a rest. -/
theorem sendInLoop_spec {c : TcpConnection} (h : c.Inv) (hs : c.state ≠ .kDisconnected)
    (hnil : c.pending = []) {data : Bytes} {n : ℕ} (htaken : 0 < min n data.length) :
    ∃ c' es, c.sendInLoop data (.wrote n) = .ok (c', es) ∧ c'.Inv ∧ c'.state = c.state ∧
      handedBy es = data.take n ∧ c'.pending = data.drop n ∧ NoCalls es ∧
      Effect.shutdownWrite ∉ es := by
  have hw := h.isWriting_of_pending_nil hnil
  have hzero := h.readableBytes_eq_zero_iff.mpr hnil
  have htake : data.take (min n data.length) = data.take n := by
    rw [List.take_eq_take_iff]
    omega
  have hdrop : data.drop (min n data.length) = data.drop n := by
    rcases Nat.le_total n data.length with hle | hle
    · rw [min_eq_left hle]
    · rw [min_eq_right hle, List.drop_length, List.drop_eq_nil_of_le hle]
  unfold sendInLoop
  simp only [if_neg hs, attempt, hw, hzero, Bool.not_false, beq_self_eq_true, Bool.and_self,
    if_true]
  rw [check_true (by omega), ok_bind]
  by_cases hrest : 0 < data.length - min n data.length
  · have hmore : data.length - min n data.length ≠ 0 := by omega
    obtain ⟨out, happ, hout, hread⟩ := Buffer.append_spec h.output_wf (data.drop n)
    obtain ⟨ch, hen, hch, hev⟩ :=
      Channel.setEvents_spec h.channel_ok h.channel_ok.interest.or_write
    have hpend : out.readable = data.drop n := by
      rw [hread]
      exact (congrArg (· ++ data.drop n) hnil).trans (List.nil_append _)
    have hne : out.readable ≠ [] := by
      rw [hpend, Ne, List.drop_eq_nil_iff]
      omega
    have hwants : ch.events.has kWriteEvent = true := by
      rw [hev]
      exact h.channel_ok.interest.has_write_or_write
    refine ⟨{ c with outputBuffer := out, connChannel := ch },
      [.write data (min n data.length)] ++ c.highWaterEffects (data.length - min n data.length),
      ?_, ⟨h.input_wf, hout, hch, fun _ => ⟨fun _ => hne, fun _ => hwants⟩,
        fun hcl => absurd hcl hs⟩, rfl, ?_, hpend,
      noCalls_append (noCalls_cons rfl noCalls_nil) (noCalls_ite rfl), ?_⟩
    · simp only [if_pos (And.intro trivial hrest), hdrop, happ, ok_bind, Bool.false_eq_true,
        if_false, Channel.enableWriting, hen, hmore, false_and]
    · rw [handedBy_append]
      have hnone : handedBy (c.highWaterEffects (data.length - min n data.length)) = [] := by
        unfold highWaterEffects
        dsimp only
        split <;> rfl
      rw [hnone]
      simp only [handedBy, htake, List.append_nil]
    · unfold highWaterEffects
      dsimp only
      split <;> simp
  · have hall : data.length ≤ n := by omega
    refine ⟨c, _, if_neg (fun hcon => hrest hcon.2), h, rfl, ?_, ?_,
      noCalls_cons rfl (noCalls_ite rfl), ?_⟩
    · have hnone : ∀ p : Prop, [Decidable p] →
          handedBy (if p then [.queueInLoop .writeComplete] else []) = [] := by
        intro p _
        split <;> rfl
      rw [handedBy, htake, hnone, List.append_nil]
    · rw [hnil, List.drop_eq_nil_of_le hall]
    · split <;> simp

/-- In every other case its assertion fails: nothing was written, so nothing is less. -/
theorem sendInLoop_fails {c : TcpConnection} (h : c.Inv) (hs : c.state ≠ .kDisconnected)
    {data : Bytes} {w : WriteResult}
    (hno : ¬ (c.pending = [] ∧ ∃ n, w = .wrote n ∧ 0 < min n data.length)) :
    c.sendInLoop data w = .error (.assertion .sendInLoop) := by
  have hsame : data.length ≤ (c.attempt data w).remaining := by
    unfold attempt
    split
    · next hdirect =>
      simp only [Bool.and_eq_true, beq_iff_eq] at hdirect
      have hnil := h.readableBytes_eq_zero_iff.mp hdirect.2
      cases w with
      | failed e => exact le_refl _
      | wrote n =>
        have hz : ¬ 0 < min n data.length := fun hpos => hno ⟨hnil, n, rfl, hpos⟩
        simp only
        omega
    · exact le_refl _
  rw [sendInLoop, if_neg hs]
  dsimp only
  rw [check_false (by omega), error_bind]

/-! ## `handleWrite` -/

/-- What `handleWrite` does besides, once the output is drained. -/
def drainedEffects (c : TcpConnection) : List Effect :=
  (if c.writeCompleteCallback then [.queueInLoop .writeComplete] else []) ++
    if c.state = .kDisconnecting then [.shutdownWrite] else []

/-- A channel that is also reading, or not writing at all, is passed over. -/
lemma handleWrite_idle {c : TcpConnection} (hw : c.connChannel.isWriting = false)
    (w : WriteResult) : c.handleWrite w = .ok (c, []) := by
  unfold handleWrite
  simp only [hw, Bool.false_eq_true, if_false]

/-- A write that takes nothing, or fails, leaves everything as it is. -/
lemma handleWrite_stuck (c : TcpConnection) {w : WriteResult}
    (hno : ∀ n, w = .wrote n → min n c.outputBuffer.readableBytes = 0) :
    c.handleWrite w = .ok (c, []) := by
  unfold handleWrite
  split
  · cases w with
    | failed e => rfl
    | wrote n =>
      simp only [hno n rfl, Nat.lt_irrefl, if_false]
  · rfl

/-- Otherwise the front of the output goes to the kernel and the rest stays; when nothing
stays, the write interest goes and the drained effects follow. -/
theorem handleWrite_spec {c : TcpConnection} (h : c.Inv) (hw : c.connChannel.isWriting = true)
    {n : ℕ} (hn : 0 < min n c.outputBuffer.readableBytes) :
    ∃ c' es, c.handleWrite (.wrote n) = .ok (c', es) ∧ c'.Inv ∧ c'.state = c.state ∧
      c'.pending = c.pending.drop n ∧
      es = Effect.write c.pending (min n c.outputBuffer.readableBytes) ::
        (if c.pending.drop n = [] then c.drainedEffects else []) := by
  obtain ⟨out, hret, hout, hread⟩ :=
    Buffer.retrieve_spec h.output_wf (Nat.min_le_right n c.outputBuffer.readableBytes)
  have hdrop : c.pending.drop (min n c.outputBuffer.readableBytes) = c.pending.drop n := by
    rcases Nat.le_total n c.outputBuffer.readableBytes with hle | hle
    · rw [min_eq_left hle]
    · rw [min_eq_right hle, ← h.length_pending, List.drop_length,
        List.drop_eq_nil_of_le (h.length_pending ▸ hle)]
  have hrest : out.readable = c.pending.drop n := hread.trans hdrop
  have hwrite : c.connChannel.events = kWriteEvent := by
    rwa [Channel.isWriting, beq_iff_eq] at hw
  have hopen : c.state ≠ .kDisconnected := by
    intro hcl
    have hoff := h.closed hcl
    rw [wantsWrite, hwrite] at hoff
    revert hoff
    decide
  unfold handleWrite
  simp only [hw, if_true, if_pos hn, hret, ok_bind]
  by_cases hzero : out.readableBytes = 0
  · have hnil : out.readable = [] := (Buffer.readable_eq_nil_iff hout).mpr hzero
    obtain ⟨ch, hdis, hch, hev⟩ :=
      Channel.setEvents_spec h.channel_ok h.channel_ok.interest.andNot_write
    have hoff : ch.events.has kWriteEvent = false := by
      rw [hev]
      exact h.channel_ok.interest.has_write_andNot_write
    have hidle : ch.isWriting = false := by
      rw [Channel.isWriting, hev, hwrite]
      decide
    refine ⟨{ c with outputBuffer := out, connChannel := ch },
      .write c.pending (min n c.outputBuffer.readableBytes) :: c.drainedEffects, ?_,
      ⟨h.input_wf, hout, hch, fun _ => ⟨fun hon => ?_, fun hne => absurd hnil hne⟩,
        fun _ => hoff⟩, rfl, hrest, ?_⟩
    · simp only [if_pos hzero, Channel.disableWriting, hdis, ok_bind]
      by_cases hd : c.state = .kDisconnecting
      · simp only [hd, if_true, shutdownInLoop, hidle, Bool.false_eq_true, if_false, ok_bind,
          drainedEffects, pending, List.cons_append]
      · simp only [if_neg hd, drainedEffects, List.append_nil, pending]
    · exact absurd (hoff.symm.trans hon) (by decide)
    · rw [if_pos (hrest ▸ hnil)]
  · have hne : out.readable ≠ [] := fun hnil =>
      hzero ((Buffer.readable_eq_nil_iff hout).mp hnil)
    refine ⟨{ c with outputBuffer := out },
      [.write c.pending (min n c.outputBuffer.readableBytes)], ?_,
      ⟨h.input_wf, hout, h.channel_ok, fun _ => ⟨fun _ => hne, fun _ => ?_⟩,
        fun hcl => absurd hcl hopen⟩, rfl, hrest, ?_⟩
    · simp only [if_neg hzero, pending]
    · exact (h.isWriting_iff.mp hw).1
    · rw [if_neg (hrest ▸ hne)]

end TcpConnection

end Firey
