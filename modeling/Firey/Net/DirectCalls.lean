import Firey.Net.Removal
import Firey.Net.Stream

/-!
# Calls from the loop thread of a connection

What `send` and `shutdown` do to a connection and its history when its own thread calls them, and
what `handleWrite` does not do to a connection that reads.
-/

set_option autoImplicit false

namespace Firey

namespace TcpConnection

variable {c c' : TcpConnection}

/-- Sending leaves the input and the reading as they are. -/
lemma sendInLoop_frame (h : c.Inv) {data : Bytes} {w : WriteResult} {es : List Effect}
    (hok : c.sendInLoop data w = .ok (c', es)) :
    c'.inputBuffer = c.inputBuffer ∧ c'.wantsRead = c.wantsRead := by
  unfold sendInLoop at hok
  split at hok
  · cases hok
    exact ⟨rfl, rfl⟩
  · obtain ⟨-, -, hok⟩ := bind_eq_ok hok
    split at hok
    · obtain ⟨output, -, hok⟩ := bind_eq_ok hok
      split at hok
      · cases hok
        exact ⟨rfl, rfl⟩
      · obtain ⟨ch, hen, -, hev⟩ :=
          Channel.setEvents_spec h.channel_ok h.channel_ok.interest.or_write
        rw [Channel.enableWriting, hen, ok_bind] at hok
        cases hok
        refine ⟨rfl, ?_⟩
        unfold wantsRead
        rw [hev]
        exact h.channel_ok.interest.has_read_or_write
    · cases hok
      exact ⟨rfl, rfl⟩

/-- Octets that arrive are put behind those that are there, and the user is told. -/
lemma handleRead_message (h : c.Inv) {data : Bytes} (hdata : data ≠ []) :
    ∃ b, b.WF ∧ b.readable = c.inputBuffer.readable ++ data.take c.inputBuffer.readFdOffer ∧
      c.handleRead (.got data) = .ok ({ c with inputBuffer := b }, [.callback .message]) := by
  obtain ⟨b, hread, hb, hreadable⟩ := Buffer.readFd_got_spec h.input_wf data
  have hoffer := readFdOffer_pos c.inputBuffer
  have hlength := List.length_pos_iff.mpr hdata
  have hpos : (0 : ℤ) < ((data.take c.inputBuffer.readFdOffer).length : ℕ) := by
    rw [List.length_take]
    omega
  refine ⟨b, hb, hreadable, ?_⟩
  rw [handleRead, hread, ok_bind]
  simp only [if_pos hpos]

end TcpConnection

namespace Wire

open TcpConnection

variable {s : Wire}

/-- A step that neither writes nor accepts anything leaves no trace in the history. -/
lemma record_quiet {i : Input} {c : TcpConnection} {es : List Effect}
    (hacc : i.accepts s.conn = []) (hhand : handedBy es = []) (hshut : .shutdownWrite ∉ es) :
    s.record i c es = { s with conn := c } := by
  unfold Wire.record
  rw [hacc, hhand, if_neg hshut, List.append_nil, List.append_nil, List.append_nil]

lemma step_quiet {i : Input} {c : TcpConnection} {es : List Effect}
    (hstep : s.conn.step i = .ok (c, es)) (hacc : i.accepts s.conn = [])
    (hhand : handedBy es = []) (hshut : .shutdownWrite ∉ es) :
    s.step i = .ok { s with conn := c } := by
  rw [Wire.step, hstep, ok_bind]
  exact congrArg Except.ok (record_quiet hacc hhand hshut)

lemma step_of_nothing {i : Input} (hstep : s.conn.step i = .ok (s.conn, []))
    (hacc : i.accepts s.conn = []) : s.step i = .ok s :=
  step_quiet hstep hacc rfl List.not_mem_nil

/-- `send` and `shutdown` are for a connection that is neither closing nor closed. -/
lemma step_send_idle (hs : s.conn.state ≠ .kConnected) (data : Bytes) (w : WriteResult) :
    s.step (.send true data w) = .ok s :=
  step_of_nothing (if_neg hs) (if_neg hs)

lemma step_shutdown_idle (hs : s.conn.state ≠ .kConnected) : s.step (.shutdown true) = .ok s :=
  step_of_nothing (if_neg hs) rfl

/-- While the channel reads, nothing is drained. -/
lemma step_handleWrite_idle (h : s.Inv) (hr : s.conn.wantsRead = true) (w : WriteResult) :
    s.step (.handleWrite w) = .ok s :=
  step_of_nothing (handleWrite_idle (h.conn.not_isWriting_of_wantsRead hr) w) rfl

lemma step_handleError : s.step .handleError = .ok s := step_of_nothing rfl rfl

/-- What a message does that the kernel takes `n` octets of. -/
structure Sent (s t : Wire) (data : Bytes) (n : ℕ) : Prop where
  inv : t.Inv
  state : t.conn.state = .kConnected
  accepted : t.accepted = s.accepted ++ [data]
  handed : t.handed = s.handed ++ data.take n
  pending : t.conn.pending = data.drop n
  shutdowns : t.shutdowns = s.shutdowns
  wantsRead : t.conn.wantsRead = s.conn.wantsRead
  inputBuffer : t.conn.inputBuffer = s.conn.inputBuffer

lemma step_send (h : s.Inv) (hs : s.conn.state = .kConnected) (hnil : s.conn.pending = [])
    {data : Bytes} {n : ℕ} (hn : 0 < min n data.length) :
    ∃ t, s.step (.send true data (.wrote n)) = .ok t ∧ s.Sent t data n := by
  have hopen : s.conn.state ≠ .kDisconnected := by
    rw [hs]
    decide
  obtain ⟨c, es, hsend, hinv, hst, hhand, hpend, -, hshut⟩ := sendInLoop_spec h.conn hopen hnil hn
  obtain ⟨hinput, hreads⟩ := sendInLoop_frame h.conn hsend
  have hstep : s.conn.step (.send true data (.wrote n)) = .ok (c, es) := by
    show s.conn.send true data (.wrote n) = _
    rw [send, if_pos hs]
    exact hsend
  have hacc : (Input.send true data (.wrote n)).accepts s.conn = [data] := if_pos hs
  refine ⟨s.record (.send true data (.wrote n)) c es, ?_, h.record (step_summary h.conn hstep),
    hst.trans hs, ?_, ?_, hpend, ?_, hreads, hinput⟩
  · rw [Wire.step, hstep]
    rfl
  · rw [Wire.record, hacc]
  · rw [Wire.record, hhand]
  · rw [Wire.record, if_neg hshut]
    exact List.append_nil _

lemma step_send_fails (h : s.Inv) (hs : s.conn.state = .kConnected) {data : Bytes}
    {w : WriteResult} (hno : ¬ (s.conn.pending = [] ∧ ∃ n, w = .wrote n ∧ 0 < min n data.length)) :
    s.step (.send true data w) = .error (.assertion .sendInLoop) := by
  have hopen : s.conn.state ≠ .kDisconnected := by
    rw [hs]
    decide
  have hstep : s.conn.step (.send true data w) = .error (.assertion .sendInLoop) := by
    show s.conn.send true data w = _
    rw [send, if_pos hs]
    exact sendInLoop_fails h.conn hopen hno
  rw [Wire.step, hstep, error_bind]

/-- `SHUT_WR` is not held back on a channel that reads, whatever is pending. -/
lemma step_shutdown (h : s.Inv) (hs : s.conn.state = .kConnected)
    (hr : s.conn.wantsRead = true) :
    s.step (.shutdown true) = .ok
      { s with
        conn := { s.conn with state := .kDisconnecting }
        shutdowns := s.shutdowns ++ [⟨s.conn.pending, s.handed, s.accepted⟩] } := by
  have hidle := h.conn.not_isWriting_of_wantsRead hr
  have hstep : s.conn.step (.shutdown true) =
      .ok ({ s.conn with state := .kDisconnecting }, [.shutdownWrite]) := by
    show s.conn.shutdown true = _
    rw [shutdown, if_pos hs, runInLoop, if_pos rfl, shutdownInLoop_eq, hidle]
    rfl
  have hhand : s.handed ++ handedBy [.shutdownWrite] = s.handed := List.append_nil _
  have hacc : s.accepted ++ (Input.shutdown true).accepts s.conn = s.accepted :=
    List.append_nil _
  have hrecord : s.record (.shutdown true) { s.conn with state := .kDisconnecting }
      [.shutdownWrite] =
        { s with
          conn := { s.conn with state := .kDisconnecting }
          shutdowns := s.shutdowns ++ [⟨s.conn.pending, s.handed, s.accepted⟩] } := by
    unfold Wire.record
    rw [hhand, hacc]
    rfl
  rw [Wire.step, hstep, ok_bind, ← hrecord]

/-- The channel of a connection that is established reads. -/
lemma step_connectionEstablished (h : s.Inv) (hs : s.conn.state = .kConnecting) :
    ∃ c, s.step .connectionEstablished = .ok { s with conn := c } ∧ c.Inv ∧
      c.state = .kConnected ∧ c.wantsRead = true ∧ c.pending = s.conn.pending ∧
      c.inputBuffer = s.conn.inputBuffer := by
  obtain ⟨ch, hen, hch, hev⟩ :=
    Channel.setEvents_spec h.conn.channel_ok h.conn.channel_ok.interest.or_read
  obtain ⟨c, hstep, hinv, hst, hpend⟩ := connectionEstablished_spec h.conn hs
  have hc : s.conn.connectionEstablished =
      .ok ({ s.conn with state := .kConnected, connChannel := ch }, [.callback .up]) := by
    rw [connectionEstablished, check_true hs, ok_bind, Channel.enableReading, hen, ok_bind]
  rw [hc] at hstep
  cases hstep
  refine ⟨_, step_quiet hc rfl rfl (by decide), hinv, rfl, ?_, rfl, rfl⟩
  unfold wantsRead
  rw [hev]
  exact h.conn.channel_ok.interest.has_read_or_read

/-- The end of stream closes an open connection. -/
lemma handleRead_close (h : s.Inv) (ho : s.conn.isOpen = true) :
    ∃ c, s.conn.handleRead (.got []) = .ok (c, [.callback .down, .closeCallback]) ∧ c.Inv ∧
      c.state = .kDisconnected ∧ c.connChannel.events = kNoneEvent ∧
      c.pending = s.conn.pending ∧ c.inputBuffer.readable = s.conn.inputBuffer.readable := by
  obtain ⟨b, hread, hb, hreadable⟩ := Buffer.readFd_got_spec h.conn.input_wf []
  rw [List.take_nil, List.append_nil] at hreadable
  have hbuf : ({ s.conn with inputBuffer := b } : TcpConnection).Inv :=
    h.conn.of_frame hb rfl h.conn.channel_ok rfl Iff.rfl
  obtain ⟨ch, hch, hev, hclose⟩ := handleClose_spec hbuf ho
  refine ⟨{ s.conn with inputBuffer := b, state := .kDisconnected, connChannel := ch }, ?_,
    h.conn.of_close hb rfl hch hev rfl, rfl, hev, rfl, hreadable⟩
  rw [handleRead, hread, ok_bind]
  simpa using hclose

/-- `connectionDestroy` and the rest of it, on a connection without interest in events that the
poller knows, or on one that is neither closing nor closed. -/
lemma step_destroy (h : s.Inv) (hs : s.conn.state = .kConnected ∨
    s.conn.connChannel.events = kNoneEvent ∧ s.conn.connChannel.mapped = true) :
    ∃ c, (s.step .connectionDestroy >>= (·.step .channelRemove)) = .ok { s with conn := c } ∧
      c.Inv ∧ c.state = (if s.conn.state = .kConnected then .kDisconnected else s.conn.state) ∧
      c.connChannel.events = kNoneEvent ∧ c.pending = s.conn.pending ∧
      c.inputBuffer = s.conn.inputBuffer := by
  have hremove (d : TcpConnection) (hd : d.Inv) (hev : d.connChannel.events = kNoneEvent)
      (hmapped : d.connChannel.mapped = true) :
      ∃ c, d.step .channelRemove = .ok (c, []) ∧ c.Inv ∧ c.state = d.state ∧
        c.connChannel.events = kNoneEvent ∧ c.pending = d.pending ∧
        c.inputBuffer = d.inputBuffer := by
    obtain ⟨ch, hrem, hremoved⟩ := Channel.remove_spec hd.channel_ok hmapped hev
    have hstep : d.step .channelRemove = .ok ({ d with connChannel := ch }, []) := by
      show d.channelRemove = _
      rw [channelRemove, hrem, ok_bind]
    have hsum := step_summary hd hstep
    exact ⟨_, hstep, hsum.inv, rfl, hremoved.events, rfl, rfl⟩
  by_cases hconn : s.conn.state = .kConnected
  · obtain ⟨ch, hdis, hch, hev⟩ := Channel.setEvents_spec h.conn.channel_ok (Or.inl rfl)
    have hclosed : ({ s.conn with state := .kDisconnected, connChannel := ch } :
        TcpConnection).Inv := h.conn.of_close h.conn.input_wf rfl hch hev rfl
    have hdestroy : s.conn.step .connectionDestroy =
        .ok ({ s.conn with state := .kDisconnected, connChannel := ch },
          [.callback .down, .channelRemove]) := by
      show s.conn.connectionDestroy = _
      rw [connectionDestroy, if_pos hconn, Channel.disableAll, hdis, ok_bind]
    obtain ⟨c, hstep, hinv, hst, hnone, hpend, hinput⟩ :=
      hremove _ hclosed hev (Channel.setEvents_kept hdis).1
    refine ⟨c, ?_, hinv, ?_, hnone, hpend, hinput⟩
    · rw [step_quiet hdestroy rfl rfl (by decide), ok_bind]
      exact step_quiet hstep rfl rfl List.not_mem_nil
    · rw [if_pos hconn]
      exact hst
  · obtain ⟨hev, hmapped⟩ := hs.resolve_left hconn
    have hdestroy : s.conn.step .connectionDestroy = .ok (s.conn, [.channelRemove]) :=
      if_neg hconn
    obtain ⟨c, hstep, hinv, hst, hnone, hpend, hinput⟩ := hremove s.conn h.conn hev hmapped
    refine ⟨c, ?_, hinv, ?_, hnone, hpend, hinput⟩
    · rw [step_quiet hdestroy rfl rfl (by decide), ok_bind]
      exact step_quiet hstep rfl rfl List.not_mem_nil
    · rw [if_neg hconn]
      exact hst

/-- On any other connection the removal fails. -/
lemma step_destroy_fails (hs : s.conn.state ≠ .kConnected)
    (hch : ¬ (s.conn.connChannel.events = kNoneEvent ∧ s.conn.connChannel.mapped = true)) :
    ∃ e, (s.step .connectionDestroy >>= (·.step .channelRemove)) = .error e ∧
      (e = .assertion .channelRemove ∨ e = .assertion .removeChannel) := by
  have hdestroy : s.conn.step .connectionDestroy = .ok (s.conn, [.channelRemove]) := if_neg hs
  have hfails : ∃ e, s.conn.connChannel.remove = .error e := by
    rcases hrem : s.conn.connChannel.remove with e | ch
    · exact ⟨e, rfl⟩
    · unfold Channel.remove Channel.removeChannel at hrem
      obtain ⟨_, hnone, hrem⟩ := bind_eq_ok hrem
      obtain ⟨_, hmapped, -⟩ := bind_eq_ok hrem
      have hev : s.conn.connChannel.events = kNoneEvent := by
        simpa [Channel.isNoneEvent] using check_eq_ok hnone
      exact absurd ⟨hev, (check_eq_ok hmapped).1⟩ hch
  obtain ⟨e, he⟩ := hfails
  refine ⟨e, ?_, Channel.remove_error he⟩
  rw [step_quiet hdestroy rfl rfl (by decide), ok_bind, Wire.step]
  show (s.conn.channelRemove >>= _) = _
  rw [channelRemove, he]
  rfl

end Wire

end Firey
