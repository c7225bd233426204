import Firey.Net.Output

/-!
# What one step of a connection can do

The functions other than `sendInLoop` and `handleWrite`, one specification each, and then
`step_summary`: everything a successful step can do, said once.  A step keeps the invariant
and the stream of output octets, issues `SHUT_WR` only with nothing pending or because it is
asked to, and calls back along the life of the connection in one of five ways (`Life`).
`step_failure` says how a step can fail.  The results about runs use nothing else.
-/

set_option autoImplicit false

namespace Firey

namespace TcpConnection

/-- The call runs `shutdownInLoop` itself, and does not come to it by draining the output. -/
def Input.shutsDown (c : TcpConnection) : Input → Bool
  | .shutdown true => c.state == .kConnected
  | .shutdownInLoop => true
  | _ => false

/-! ## Keeping the invariant -/

/-- A step that leaves the output, the write interest and the closed state alone. -/
lemma Inv.of_frame {c c' : TcpConnection} (h : c.Inv) (hin : c'.inputBuffer.WF)
    (hout : c'.outputBuffer = c.outputBuffer) (hch : c'.connChannel.Ok)
    (hww : c'.wantsWrite = c.wantsWrite)
    (hst : c'.state = .kDisconnected ↔ c.state = .kDisconnected) : c'.Inv where
  input_wf := hin
  output_wf := hout ▸ h.output_wf
  channel_ok := hch
  wantsWrite_iff := by
    intro hs
    rw [hww, pending, hout]
    exact h.wantsWrite_iff (fun hcl => hs (hst.mpr hcl))
  closed := by
    intro hs
    rw [hww]
    exact h.closed (hst.mp hs)

/-- A step that closes: the output stays where it is, and nobody asks to write it. -/
lemma Inv.of_close {c c' : TcpConnection} (h : c.Inv) (hin : c'.inputBuffer.WF)
    (hout : c'.outputBuffer = c.outputBuffer) (hch : c'.connChannel.Ok)
    (hev : c'.connChannel.events = kNoneEvent) (hst : c'.state = .kDisconnected) : c'.Inv where
  input_wf := hin
  output_wf := hout ▸ h.output_wf
  channel_ok := hch
  wantsWrite_iff := fun hs => absurd hst hs
  closed := by
    intro _
    rw [wantsWrite, hev]
    decide

lemma isOpen_iff {c : TcpConnection} :
    c.isOpen = true ↔ c.state = .kConnected ∨ c.state = .kDisconnecting := by
  simp [isOpen]

lemma isOpen_eq_false_of_closed {c : TcpConnection} (hs : c.state = .kDisconnected) :
    c.isOpen = false := by
  simp [isOpen, hs]

lemma ne_closed_of_isOpen {c : TcpConnection} (ho : c.isOpen = true) :
    c.state ≠ .kDisconnected := by
  intro hs
  rw [isOpen_eq_false_of_closed hs] at ho
  cases ho

/-- Moving between the two open states. -/
lemma Inv.disconnecting {c : TcpConnection} (h : c.Inv) (ho : c.isOpen = true) :
    ({ c with state := .kDisconnecting } : TcpConnection).Inv :=
  h.of_frame h.input_wf rfl h.channel_ok rfl
    ⟨fun hs => (nomatch hs), fun hs => absurd hs (ne_closed_of_isOpen ho)⟩

/-! ## One function at a time -/

lemma shutdownInLoop_eq (c : TcpConnection) :
    c.shutdownInLoop = .ok (c, if c.connChannel.isWriting then [] else [.shutdownWrite]) := by
  rw [shutdownInLoop]
  split <;> rfl

lemma handleClose_spec {c : TcpConnection} (h : c.Inv) (ho : c.isOpen = true) :
    ∃ ch, ch.Ok ∧ ch.events = kNoneEvent ∧
      c.handleClose = .ok ({ c with state := .kDisconnected, connChannel := ch },
        [.callback .down, .closeCallback]) := by
  obtain ⟨ch, hdis, hch, hev⟩ := Channel.setEvents_spec h.channel_ok (Or.inl rfl)
  refine ⟨ch, hch, hev, ?_⟩
  rw [handleClose, check_true ho, ok_bind, Channel.disableAll, hdis, ok_bind]

lemma handleClose_fails {c : TcpConnection} (ho : c.isOpen = false) :
    c.handleClose = .error (.assertion .handleClose) := by
  rw [handleClose, check_false (by rw [ho]; decide), error_bind]

lemma startReadInLoop_spec {c : TcpConnection} (h : c.Inv) :
    ∃ c', c.startReadInLoop = .ok (c', []) ∧ c'.Inv ∧ c'.state = c.state ∧
      c'.pending = c.pending := by
  unfold startReadInLoop
  split
  · obtain ⟨ch, hen, hch, hev⟩ :=
      Channel.setEvents_spec h.channel_ok h.channel_ok.interest.or_read
    have hww : ch.events.has kWriteEvent = c.wantsWrite := by
      rw [hev]
      exact h.channel_ok.interest.has_write_or_read
    refine ⟨{ c with connChannel := ch, reading := true }, ?_,
      h.of_frame h.input_wf rfl hch hww Iff.rfl, rfl, rfl⟩
    rw [Channel.enableReading, hen, ok_bind]
  · exact ⟨c, rfl, h, rfl, rfl⟩

lemma stopReadInLoop_spec {c : TcpConnection} (h : c.Inv) :
    ∃ c', c.stopReadInLoop = .ok (c', []) ∧ c'.Inv ∧ c'.state = c.state ∧
      c'.pending = c.pending := by
  unfold stopReadInLoop
  split
  · obtain ⟨ch, hdis, hch, hev⟩ :=
      Channel.setEvents_spec h.channel_ok h.channel_ok.interest.andNot_read
    have hww : ch.events.has kWriteEvent = c.wantsWrite := by
      rw [hev]
      exact h.channel_ok.interest.has_write_andNot_read
    refine ⟨{ c with connChannel := ch, reading := false }, ?_,
      h.of_frame h.input_wf rfl hch hww Iff.rfl, rfl, rfl⟩
    rw [Channel.disableReading, hdis, ok_bind]
  · exact ⟨c, rfl, h, rfl, rfl⟩

lemma connectionEstablished_spec {c : TcpConnection} (h : c.Inv) (hs : c.state = .kConnecting) :
    ∃ c', c.connectionEstablished = .ok (c', [.callback .up]) ∧ c'.Inv ∧
      c'.state = .kConnected ∧ c'.pending = c.pending := by
  obtain ⟨ch, hen, hch, hev⟩ :=
    Channel.setEvents_spec h.channel_ok h.channel_ok.interest.or_read
  have hww : ch.events.has kWriteEvent = c.wantsWrite := by
    rw [hev]
    exact h.channel_ok.interest.has_write_or_read
  refine ⟨{ c with state := .kConnected, connChannel := ch }, ?_,
    h.of_frame h.input_wf rfl hch hww ⟨fun h => (nomatch h), fun hcl => ?_⟩, rfl, rfl⟩
  · rw [connectionEstablished, check_true hs, ok_bind, Channel.enableReading, hen, ok_bind]
  · rw [hs] at hcl
    cases hcl

lemma readFdOffer_pos (b : Buffer) : 0 < b.readFdOffer := by
  unfold Buffer.readFdOffer Buffer.extrabufSize
  split <;> omega

/-- What arrives is nothing only at end of stream. -/
lemma handleRead_eq {c : TcpConnection} (h : c.Inv) (r : ReadResult) :
    ∃ b, b.WF ∧ c.handleRead r =
      match r with
      | .failed _ => .ok ({ c with inputBuffer := b }, [])
      | .got [] => handleClose { c with inputBuffer := b }
      | .got (_ :: _) => .ok ({ c with inputBuffer := b }, [.callback .message]) := by
  cases r with
  | failed e => exact ⟨c.inputBuffer, h.input_wf, rfl⟩
  | got data =>
    obtain ⟨b, hread, hb, -⟩ := Buffer.readFd_got_spec h.input_wf data
    refine ⟨b, hb, ?_⟩
    rw [handleRead, hread, ok_bind]
    cases data with
    | nil => simp
    | cons x xs =>
      have hpos : (0 : ℤ) < (((x :: xs).take c.inputBuffer.readFdOffer).length : ℕ) := by
        have := readFdOffer_pos c.inputBuffer
        rw [List.length_take, List.length_cons]
        omega
      simp only [if_pos hpos]

/-! ## Every step -/

/-- How a step moves a connection along its life, and what it calls back on the way. -/
inductive Life (c : TcpConnection) (i : Input) (c' : TcpConnection) (es : List Effect) : Prop
  /-- Nothing is called; at most an open connection starts to disconnect. -/
  | stays (hs : c'.state = c.state ∨ c.isOpen = true ∧ c'.state = .kDisconnecting)
      (hes : NoCalls es)
  | opens (hs : c.state = .kConnecting) (hs' : c'.state = .kConnected)
      (hes : es = [.callback .up])
  | message (x : Byte) (xs : Bytes) (hi : i = .handleRead (.got (x :: xs)))
      (hs : c'.state = c.state) (hes : es = [.callback .message])
  | closes (ho : c.isOpen = true) (hs' : c'.state = .kDisconnected)
      (hes : es = [.callback .down, .closeCallback])
  | destroys (hi : i = .connectionDestroy) (hs : c.state = .kConnected)
      (hs' : c'.state = .kDisconnected) (hes : es = [.callback .down, .channelRemove])

/-- Everything a successful step does. -/
structure Summary (c : TcpConnection) (i : Input) (c' : TcpConnection) (es : List Effect) :
    Prop where
  inv : c'.Inv
  bytes : handedBy es ++ c'.pending = c.pending ++ (i.accepts c).flatten
  shut : .shutdownWrite ∈ es → c'.pending = [] ∨ i.shutsDown c = true ∧ c'.pending = c.pending
  life : Life c i c' es

section Steps

variable {c : TcpConnection} {i : Input}

/-- A step without output and without calls. -/
lemma Summary.quiet {c' : TcpConnection} {es : List Effect} (hinv : c'.Inv)
    (hpend : c'.pending = c.pending)
    (hst : c'.state = c.state ∨ c.isOpen = true ∧ c'.state = .kDisconnecting)
    (hacc : i.accepts c = []) (hes : NoCalls es) (hhand : handedBy es = [])
    (hshut : .shutdownWrite ∈ es → i.shutsDown c = true) : Summary c i c' es where
  inv := hinv
  bytes := by rw [hhand, hpend, hacc, List.nil_append, List.flatten_nil, List.append_nil]
  shut := fun hmem => Or.inr ⟨hshut hmem, hpend⟩
  life := .stays hst hes

/-- The second half of a call, queued by another thread. -/
lemma Summary.queued (h : c.Inv) (f : Functor) (hacc : i.accepts c = []) :
    Summary c i c [.queueInLoop f] :=
  .quiet h rfl (Or.inl rfl) hacc (noCalls_cons rfl noCalls_nil) rfl (by simp)

lemma Summary.nothing (h : c.Inv) (hacc : i.accepts c = []) : Summary c i c [] :=
  .quiet h rfl (Or.inl rfl) hacc noCalls_nil rfl (by simp)

/-- A step that closes the connection, possibly after taking another input buffer. -/
lemma Summary.close {d : TcpConnection} (h : c.Inv) (hd : d.inputBuffer.WF)
    (hout : d.outputBuffer = c.outputBuffer) (hch : d.connChannel.Ok)
    (ho : c.isOpen = true) (hev : d.connChannel.events = kNoneEvent)
    (hst : d.state = .kDisconnected) (hacc : i.accepts c = []) :
    Summary c i d [.callback .down, .closeCallback] where
  inv := h.of_close hd hout hch hev hst
  bytes := by
    rw [hacc, List.flatten_nil, List.append_nil, pending, pending, hout]
    rfl
  shut := by simp
  life := .closes ho hst rfl

lemma sendInLoop_summary (h : c.Inv) {data : Bytes} {w : WriteResult} {c' : TcpConnection}
    {es : List Effect} (hi : i.accepts c = if c.state = .kDisconnected then [] else [data])
    (hstep : c.sendInLoop data w = .ok (c', es)) : Summary c i c' es := by
  by_cases hs : c.state = .kDisconnected
  · rw [sendInLoop, if_pos hs] at hstep
    cases hstep
    exact .nothing h (hi.trans (if_pos hs))
  · by_cases hok : c.pending = [] ∧ ∃ n, w = .wrote n ∧ 0 < min n data.length
    · obtain ⟨hnil, n, rfl, hn⟩ := hok
      obtain ⟨d, fs, hsend, hinv, hst, hhand, hpend, hcalls, hshut⟩ :=
        sendInLoop_spec h hs hnil hn
      rw [hsend] at hstep
      cases hstep
      refine ⟨hinv, ?_, fun hmem => absurd hmem hshut, .stays (Or.inl hst) hcalls⟩
      rw [hhand, hpend, hnil, hi, if_neg hs, List.take_append_drop, List.flatten_singleton,
        List.nil_append]
    · rw [sendInLoop_fails h hs hok] at hstep
      cases hstep

lemma handleWrite_summary (h : c.Inv) {w : WriteResult} {c' : TcpConnection} {es : List Effect}
    (hi : i.accepts c = []) (hstep : c.handleWrite w = .ok (c', es)) : Summary c i c' es := by
  by_cases hw : c.connChannel.isWriting = true
  · by_cases hn : ∃ n, w = .wrote n ∧ 0 < min n c.outputBuffer.readableBytes
    · obtain ⟨n, rfl, hn⟩ := hn
      obtain ⟨d, fs, hwrite, hinv, hst, hpend, hes⟩ := handleWrite_spec h hw hn
      rw [hwrite] at hstep
      cases hstep
      have hdrained : NoCalls (if c.pending.drop n = [] then c.drainedEffects else []) := by
        split
        · exact noCalls_append (noCalls_ite rfl) (noCalls_ite rfl)
        · exact noCalls_nil
      have hhanded : handedBy (if c.pending.drop n = [] then c.drainedEffects else []) = [] := by
        unfold drainedEffects
        split_ifs <;> rfl
      have htake : c.pending.take (min n c.outputBuffer.readableBytes) = c.pending.take n := by
        rw [List.take_eq_take_iff, h.length_pending]
        omega
      refine ⟨hinv, ?_, fun hmem => Or.inl ?_, .stays (Or.inl hst) ?_⟩
      · rw [hes, handedBy, hhanded, htake, hpend, hi, List.append_nil, List.take_append_drop,
          List.flatten_nil, List.append_nil]
      · by_contra hne
        rw [hes, if_neg (hpend ▸ hne)] at hmem
        simp at hmem
      · rw [hes]
        exact noCalls_cons rfl hdrained
    · rw [handleWrite_stuck c (fun n hwn => Nat.eq_zero_of_not_pos fun hpos => hn ⟨n, hwn, hpos⟩)]
        at hstep
      cases hstep
      exact .nothing h hi
  · rw [handleWrite_idle (by simpa using hw)] at hstep
    cases hstep
    exact .nothing h hi

lemma handleRead_summary (h : c.Inv) {r : ReadResult} {c' : TcpConnection} {es : List Effect}
    (hi : i = .handleRead r) (hstep : c.handleRead r = .ok (c', es)) : Summary c i c' es := by
  have hacc : i.accepts c = [] := by rw [hi]; rfl
  obtain ⟨b, hb, heq⟩ := handleRead_eq h r
  have hbuf : ({ c with inputBuffer := b } : TcpConnection).Inv :=
    h.of_frame hb rfl h.channel_ok rfl Iff.rfl
  rw [heq] at hstep
  cases r with
  | failed e =>
    cases hstep
    exact .quiet hbuf rfl (Or.inl rfl) hacc noCalls_nil rfl (by simp)
  | got data =>
    cases data with
    | nil =>
      change handleClose { c with inputBuffer := b } = _ at hstep
      cases ho : c.isOpen with
      | false =>
        have hclosed : ({ c with inputBuffer := b } : TcpConnection).isOpen = false := ho
        rw [handleClose_fails hclosed] at hstep
        cases hstep
      | true =>
        obtain ⟨ch, hch, hev, hclose⟩ := handleClose_spec hbuf ho
        rw [hclose] at hstep
        cases hstep
        exact .close h hb rfl hch ho hev rfl hacc
    | cons x xs =>
      cases hstep
      refine ⟨hbuf, ?_, by simp, .message x xs hi rfl rfl⟩
      rw [hacc, List.flatten_nil, List.append_nil]
      rfl

lemma forceCloseInLoop_summary (h : c.Inv) {c' : TcpConnection} {es : List Effect}
    (hi : i.accepts c = []) (hstep : c.forceCloseInLoop = .ok (c', es)) :
    Summary c i c' es := by
  rw [forceCloseInLoop] at hstep
  cases ho : c.isOpen with
  | false =>
    rw [ho] at hstep
    cases hstep
    exact .nothing h hi
  | true =>
    obtain ⟨ch, hch, hev, hclose⟩ := handleClose_spec h ho
    rw [ho, if_pos rfl, hclose] at hstep
    cases hstep
    exact .close h h.input_wf rfl hch ho hev rfl hi

/-- A call that only sets the state to `kDisconnecting` before it goes on. -/
lemma Summary.disconnecting {c' : TcpConnection} {es : List Effect} (ho : c.isOpen = true)
    {j : Input} (h : Summary { c with state := .kDisconnecting } j c' es)
    (hacc : i.accepts c = []) (hacc' : j.accepts { c with state := .kDisconnecting } = [])
    (hshut : j.shutsDown { c with state := .kDisconnecting } = true → i.shutsDown c = true)
    (hj : ∀ r, j ≠ .handleRead r) (hj' : j ≠ .connectionDestroy) : Summary c i c' es where
  inv := h.inv
  bytes := by
    have hb := h.bytes
    rw [hacc'] at hb
    rw [hacc]
    exact hb
  shut := fun hmem => (h.shut hmem).imp_right fun hs => ⟨hshut hs.1, hs.2⟩
  life := by
    cases h.life with
    | stays hs hes =>
      refine .stays (Or.inr ⟨ho, ?_⟩) hes
      rcases hs with hs | hs
      · exact hs
      · exact hs.2
    | opens hs hs' hes => cases hs
    | message x xs hi hs hes => exact absurd hi (hj _)
    | closes _ hs' hes => exact .closes ho hs' hes
    | destroys hi hs hs' hes => exact absurd hi hj'

lemma connectionDestroy_summary (h : c.Inv) {c' : TcpConnection} {es : List Effect}
    (hi : i = .connectionDestroy) (hstep : c.connectionDestroy = .ok (c', es)) :
    Summary c i c' es := by
  have hacc : i.accepts c = [] := by rw [hi]; rfl
  rw [connectionDestroy] at hstep
  by_cases hs : c.state = .kConnected
  · obtain ⟨ch, hdis, hch, hev⟩ := Channel.setEvents_spec h.channel_ok (Or.inl rfl)
    rw [if_pos hs, Channel.disableAll, hdis, ok_bind] at hstep
    cases hstep
    refine ⟨h.of_close h.input_wf rfl hch hev rfl, ?_, by simp, .destroys hi hs rfl rfl⟩
    rw [hacc, List.flatten_nil, List.append_nil]
    rfl
  · rw [if_neg hs] at hstep
    cases hstep
    exact .quiet h rfl (Or.inl rfl) hacc (noCalls_cons rfl noCalls_nil) rfl (by simp)

lemma channelRemove_summary (h : c.Inv) {c' : TcpConnection} {es : List Effect}
    (hi : i.accepts c = []) (hstep : c.channelRemove = .ok (c', es)) : Summary c i c' es := by
  rw [channelRemove] at hstep
  obtain ⟨ch, hrem, hstep⟩ := bind_eq_ok hstep
  obtain ⟨hch, hev, -⟩ := Channel.remove_ok h.channel_ok hrem
  cases hstep
  have hww : ch.events.has kWriteEvent = c.wantsWrite := by rw [hev, wantsWrite]
  exact .quiet (h.of_frame h.input_wf rfl hch hww Iff.rfl) rfl (Or.inl rfl) hi noCalls_nil rfl
    (by simp)

lemma connectionEstablished_summary (h : c.Inv) {c' : TcpConnection} {es : List Effect}
    (hi : i.accepts c = []) (hstep : c.connectionEstablished = .ok (c', es)) :
    Summary c i c' es := by
  by_cases hs : c.state = .kConnecting
  · obtain ⟨d, hest, hinv, hst, hpend⟩ := connectionEstablished_spec h hs
    rw [hest] at hstep
    cases hstep
    refine ⟨hinv, ?_, by simp, .opens hs hst rfl⟩
    rw [hpend, hi]
    exact (List.append_nil _).symm
  · rw [connectionEstablished, check_false hs] at hstep
    cases hstep

/-- A call is its second half, at once or queued. -/
lemma runInLoop_summary (h : c.Inv) {inLoop : Bool} {f : Functor} {now : Outcome}
    {c' : TcpConnection} {es : List Effect} (hacc : inLoop = false → i.accepts c = [])
    (hnow : inLoop = true → now = .ok (c', es) → Summary c i c' es)
    (hstep : c.runInLoop inLoop f now = .ok (c', es)) : Summary c i c' es := by
  cases inLoop with
  | false =>
    cases hstep
    exact .queued h f (hacc rfl)
  | true => exact hnow rfl hstep

lemma send_summary (h : c.Inv) {inLoop : Bool} {data : Bytes} {w : WriteResult}
    {c' : TcpConnection} {es : List Effect} (hi : i = .send inLoop data w)
    (hstep : c.send inLoop data w = .ok (c', es)) : Summary c i c' es := by
  subst hi
  rw [send] at hstep
  by_cases hs : c.state = .kConnected
  · rw [if_pos hs] at hstep
    refine runInLoop_summary h ?_ ?_ hstep
    · rintro rfl
      rfl
    · rintro rfl hsend
      refine sendInLoop_summary h ?_ hsend
      rw [Input.accepts, if_pos hs, if_neg (by rw [hs]; decide)]
  · rw [if_neg hs] at hstep
    cases hstep
    refine .nothing h ?_
    cases inLoop with
    | false => rfl
    | true => rw [Input.accepts, if_neg hs]

lemma shutdownInLoop_summary (h : c.Inv) {c' : TcpConnection} {es : List Effect}
    (hi : i.shutsDown c = true) (hacc : i.accepts c = [])
    (hstep : c.shutdownInLoop = .ok (c', es)) : Summary c i c' es := by
  rw [shutdownInLoop_eq] at hstep
  cases hstep
  refine .quiet h rfl (Or.inl rfl) hacc ?_ ?_ (fun _ => hi)
  · split
    · exact noCalls_nil
    · exact noCalls_cons rfl noCalls_nil
  · split <;> rfl

lemma shutdown_summary (h : c.Inv) {inLoop : Bool} {c' : TcpConnection} {es : List Effect}
    (hi : i = .shutdown inLoop) (hstep : c.shutdown inLoop = .ok (c', es)) :
    Summary c i c' es := by
  subst hi
  rw [shutdown] at hstep
  by_cases hs : c.state = .kConnected
  · have ho : c.isOpen = true := isOpen_iff.mpr (Or.inl hs)
    rw [if_pos hs] at hstep
    cases inLoop with
    | false =>
      cases hstep
      exact .quiet (h.disconnecting ho) rfl (Or.inr ⟨ho, rfl⟩) rfl
        (noCalls_cons rfl noCalls_nil) rfl (by simp)
    | true =>
      have hsum : Summary { c with state := .kDisconnecting } .shutdownInLoop c' es :=
        shutdownInLoop_summary (h.disconnecting ho) rfl rfl hstep
      exact hsum.disconnecting ho rfl rfl (fun _ => beq_iff_eq.mpr hs) nofun nofun
  · rw [if_neg hs] at hstep
    cases hstep
    exact .nothing h rfl

lemma forceClose_summary (h : c.Inv) {inLoop : Bool} {c' : TcpConnection} {es : List Effect}
    (hi : i.accepts c = []) (hstep : c.forceClose inLoop = .ok (c', es)) : Summary c i c' es := by
  rw [forceClose] at hstep
  cases ho : c.isOpen with
  | false =>
    rw [ho] at hstep
    cases hstep
    exact .nothing h hi
  | true =>
    rw [ho, if_pos rfl] at hstep
    have hsum : Summary { c with state := .kDisconnecting } .forceCloseInLoop c' es :=
      runInLoop_summary (h.disconnecting ho) (fun _ => rfl)
        (fun _ => forceCloseInLoop_summary (h.disconnecting ho) rfl) hstep
    exact hsum.disconnecting ho hi rfl nofun nofun nofun

lemma startReadInLoop_summary (h : c.Inv) {c' : TcpConnection} {es : List Effect}
    (hi : i.accepts c = []) (hstep : c.startReadInLoop = .ok (c', es)) : Summary c i c' es := by
  obtain ⟨d, hstart, hinv, hst, hpend⟩ := startReadInLoop_spec h
  rw [hstart] at hstep
  cases hstep
  exact .quiet hinv hpend (Or.inl hst) hi noCalls_nil rfl (by simp)

lemma stopReadInLoop_summary (h : c.Inv) {c' : TcpConnection} {es : List Effect}
    (hi : i.accepts c = []) (hstep : c.stopReadInLoop = .ok (c', es)) : Summary c i c' es := by
  obtain ⟨d, hstop, hinv, hst, hpend⟩ := stopReadInLoop_spec h
  rw [hstop] at hstep
  cases hstep
  exact .quiet hinv hpend (Or.inl hst) hi noCalls_nil rfl (by simp)

/-- A step that touches nothing but the input buffer and the callbacks. -/
lemma Summary.aside {c' : TcpConnection} (h : c.Inv) (hin : c'.inputBuffer.WF)
    (hout : c'.outputBuffer = c.outputBuffer) (hch : c'.connChannel = c.connChannel)
    (hst : c'.state = c.state) (hacc : i.accepts c = []) : Summary c i c' [] := by
  have hww : c'.connChannel.events.has kWriteEvent = c.wantsWrite := by rw [hch, wantsWrite]
  refine .quiet (h.of_frame hin hout (hch ▸ h.channel_ok) hww (by rw [hst])) ?_ (Or.inl hst) hacc
    noCalls_nil rfl (by simp)
  rw [pending, pending, hout]

lemma retrieveInput_summary (h : c.Inv) {len : ℕ} {c' : TcpConnection} {es : List Effect}
    (hi : i = .retrieveInput len) (hstep : c.step (.retrieveInput len) = .ok (c', es)) :
    Summary c i c' es := by
  subst hi
  obtain ⟨b, hret, hstep⟩ := bind_eq_ok hstep
  have hlen : len ≤ c.inputBuffer.readableBytes := by
    by_contra hlen
    rw [Buffer.retrieve, check_false hlen] at hret
    cases hret
  obtain ⟨b', hret', hb, -⟩ := Buffer.retrieve_spec h.input_wf hlen
  rw [hret] at hret'
  cases hret'
  cases hstep
  exact .aside h hb rfl rfl rfl rfl

/-- **What a step can do.** -/
theorem step_summary (h : c.Inv) {c' : TcpConnection} {es : List Effect}
    (hstep : c.step i = .ok (c', es)) : Summary c i c' es := by
  cases i with
  | connectionEstablished => exact connectionEstablished_summary h rfl hstep
  | connectionDestroy => exact connectionDestroy_summary h rfl hstep
  | channelRemove => exact channelRemove_summary h rfl hstep
  | send inLoop data w => exact send_summary h rfl hstep
  | sendInLoop data w => exact sendInLoop_summary h rfl hstep
  | shutdown inLoop => exact shutdown_summary h rfl hstep
  | shutdownInLoop => exact shutdownInLoop_summary h rfl rfl hstep
  | forceClose inLoop => exact forceClose_summary h rfl hstep
  | forceCloseInLoop => exact forceCloseInLoop_summary h rfl hstep
  | startRead inLoop =>
    exact runInLoop_summary h (fun _ => rfl) (fun _ => startReadInLoop_summary h rfl) hstep
  | startReadInLoop => exact startReadInLoop_summary h rfl hstep
  | stopRead inLoop =>
    exact runInLoop_summary h (fun _ => rfl) (fun _ => stopReadInLoop_summary h rfl) hstep
  | stopReadInLoop => exact stopReadInLoop_summary h rfl hstep
  | handleRead r => exact handleRead_summary h rfl hstep
  | handleWrite w => exact handleWrite_summary h rfl hstep
  | handleError =>
    cases hstep
    exact .nothing h rfl
  | setWriteCompleteCallback =>
    cases hstep
    exact .aside h h.input_wf rfl rfl rfl rfl
  | setHighWaterCallback mark =>
    cases hstep
    exact .aside h h.input_wf rfl rfl rfl rfl
  | retrieveInput len => exact retrieveInput_summary h rfl hstep

/-- How a step can fail: one of the assertions that ask something of the caller, or that of
`handleClose`, at an end of stream on a connection that is not open. -/
inductive Failure (c : TcpConnection) (i : Input) : Fault → Prop
  | sendInLoop : Failure c i (.assertion .sendInLoop)
  | connectionEstablished : Failure c i (.assertion .connectionEstablished)
  | channelRemove (hi : i = .channelRemove) : Failure c i (.assertion .channelRemove)
  | removeChannel (hi : i = .channelRemove) : Failure c i (.assertion .removeChannel)
  | retrieve : Failure c i (.assertion .retrieve)
  | handleClose (hi : i = .handleRead (.got [])) (ho : c.isOpen = false) :
      Failure c i (.assertion .handleClose)

lemma handleRead_fails (h : c.Inv) (ho : c.isOpen = false) :
    c.handleRead (.got []) = .error (.assertion .handleClose) := by
  obtain ⟨b, -, heq⟩ := handleRead_eq h (.got [])
  have hclosed : ({ c with inputBuffer := b } : TcpConnection).isOpen = false := ho
  exact heq.trans (handleClose_fails hclosed)

lemma sendInLoop_failure (h : c.Inv) {data : Bytes} {w : WriteResult} {e : Fault}
    (hstep : c.sendInLoop data w = .error e) : Failure c i e := by
  by_cases hs : c.state = .kDisconnected
  · rw [sendInLoop, if_pos hs] at hstep
    cases hstep
  · by_cases hok : c.pending = [] ∧ ∃ n, w = .wrote n ∧ 0 < min n data.length
    · obtain ⟨hnil, n, rfl, hn⟩ := hok
      obtain ⟨d, fs, hsend, -⟩ := sendInLoop_spec h hs hnil hn
      rw [hsend] at hstep
      cases hstep
    · rw [sendInLoop_fails h hs hok] at hstep
      cases hstep
      exact .sendInLoop

lemma handleWrite_ok (h : c.Inv) (w : WriteResult) : ∃ r, c.handleWrite w = .ok r := by
  by_cases hw : c.connChannel.isWriting = true
  · by_cases hn : ∃ n, w = .wrote n ∧ 0 < min n c.outputBuffer.readableBytes
    · obtain ⟨n, rfl, hn⟩ := hn
      obtain ⟨d, fs, hwrite, -⟩ := handleWrite_spec h hw hn
      exact ⟨_, hwrite⟩
    · exact ⟨_, handleWrite_stuck c
        (fun n hwn => Nat.eq_zero_of_not_pos fun hpos => hn ⟨n, hwn, hpos⟩)⟩
  · exact ⟨_, handleWrite_idle (by simpa using hw) w⟩

lemma forceCloseInLoop_ok (h : c.Inv) : ∃ r, c.forceCloseInLoop = .ok r := by
  rw [forceCloseInLoop]
  split
  · next ho =>
    obtain ⟨ch, -, -, hclose⟩ := handleClose_spec h ho
    exact ⟨_, hclose⟩
  · exact ⟨_, rfl⟩

lemma runInLoop_ok {f : Functor} {now : Outcome} (inLoop : Bool) (hnow : ∃ r, now = .ok r) :
    ∃ r, c.runInLoop inLoop f now = .ok r := by
  rw [runInLoop]
  split
  · exact hnow
  · exact ⟨_, rfl⟩

/-- **How a step can fail.** -/
theorem step_failure (h : c.Inv) {e : Fault} (hstep : c.step i = .error e) :
    Failure c i e := by
  have never (hok : ∃ r, c.step i = .ok r) : Failure c i e := by
    obtain ⟨r, hr⟩ := hok
    rw [hr] at hstep
    cases hstep
  cases i with
  | connectionEstablished =>
    change c.connectionEstablished = _ at hstep
    by_cases hs : c.state = .kConnecting
    · obtain ⟨d, hest, -⟩ := connectionEstablished_spec h hs
      exact never ⟨_, hest⟩
    · rw [connectionEstablished, check_false hs] at hstep
      cases hstep
      exact .connectionEstablished
  | connectionDestroy =>
    apply never
    change ∃ r, c.connectionDestroy = .ok r
    rw [connectionDestroy]
    split
    · obtain ⟨ch, hdis, -⟩ := Channel.setEvents_spec h.channel_ok (Or.inl rfl)
      rw [Channel.disableAll, hdis]
      exact ⟨_, rfl⟩
    · exact ⟨_, rfl⟩
  | channelRemove =>
    change c.channelRemove = _ at hstep
    rw [channelRemove] at hstep
    cases hrem : c.connChannel.remove with
    | ok ch =>
      rw [hrem] at hstep
      cases hstep
    | error e' =>
      rw [hrem] at hstep
      cases hstep
      rcases Channel.remove_error hrem with rfl | rfl
      · exact .channelRemove rfl
      · exact .removeChannel rfl
  | send inLoop data w =>
    change c.send inLoop data w = _ at hstep
    rw [send] at hstep
    by_cases hs : c.state = .kConnected
    · rw [if_pos hs] at hstep
      cases inLoop with
      | false => cases hstep
      | true => exact sendInLoop_failure h hstep
    · rw [if_neg hs] at hstep
      cases hstep
  | sendInLoop data w => exact sendInLoop_failure h hstep
  | shutdown inLoop =>
    apply never
    change ∃ r, c.shutdown inLoop = .ok r
    rw [shutdown]
    split
    · exact runInLoop_ok inLoop ⟨_, shutdownInLoop_eq _⟩
    · exact ⟨_, rfl⟩
  | shutdownInLoop => exact never ⟨_, shutdownInLoop_eq c⟩
  | forceClose inLoop =>
    apply never
    change ∃ r, c.forceClose inLoop = .ok r
    rw [forceClose]
    split
    · next ho => exact runInLoop_ok inLoop (forceCloseInLoop_ok (h.disconnecting ho))
    · exact ⟨_, rfl⟩
  | forceCloseInLoop => exact never (forceCloseInLoop_ok h)
  | startRead inLoop =>
    obtain ⟨d, hstart, -⟩ := startReadInLoop_spec h
    exact never (runInLoop_ok inLoop ⟨_, hstart⟩)
  | startReadInLoop =>
    obtain ⟨d, hstart, -⟩ := startReadInLoop_spec h
    exact never ⟨_, hstart⟩
  | stopRead inLoop =>
    obtain ⟨d, hstop, -⟩ := stopReadInLoop_spec h
    exact never (runInLoop_ok inLoop ⟨_, hstop⟩)
  | stopReadInLoop =>
    obtain ⟨d, hstop, -⟩ := stopReadInLoop_spec h
    exact never ⟨_, hstop⟩
  | handleRead r =>
    change c.handleRead r = _ at hstep
    obtain ⟨b, hb, heq⟩ := handleRead_eq h r
    have hbuf : ({ c with inputBuffer := b } : TcpConnection).Inv :=
      h.of_frame hb rfl h.channel_ok rfl Iff.rfl
    match r, heq with
    | .failed _, heq => exact never ⟨_, heq⟩
    | .got (_ :: _), heq => exact never ⟨_, heq⟩
    | .got [], heq =>
      cases ho : c.isOpen with
      | false =>
        rw [handleRead_fails h ho] at hstep
        cases hstep
        exact .handleClose rfl ho
      | true =>
        obtain ⟨ch, -, -, hclose⟩ := handleClose_spec hbuf ho
        exact never ⟨_, heq.trans hclose⟩
  | handleWrite w => exact never (handleWrite_ok h w)
  | handleError => exact never ⟨_, rfl⟩
  | setWriteCompleteCallback => exact never ⟨_, rfl⟩
  | setHighWaterCallback mark => exact never ⟨_, rfl⟩
  | retrieveInput len =>
    by_cases hlen : len ≤ c.inputBuffer.readableBytes
    · obtain ⟨b, hret, -⟩ := Buffer.retrieve_spec h.input_wf hlen
      refine never ⟨({ c with inputBuffer := b }, []), ?_⟩
      rw [step, hret, ok_bind]
    · rw [step, Buffer.retrieve, check_false hlen] at hstep
      cases hstep
      exact .retrieve

end Steps

end TcpConnection

end Firey
