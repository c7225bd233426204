import Firey.Framework.Machine
import Firey.Net.Calls

/-!
# The output stream of a connection

`Wire` is a connection together with its history: the messages `sendInLoop` has accepted, the
octets the kernel has taken, and what each `SHUT_WR` found.  `Wire.machine` runs a connection
through any inputs whatever, so the results hold for every mix of sends, partial writes,
interest changes, reads and closes.

The stream is conserved in every reachable state (`output_conserved`).  Three results say how
far the rest of the design reaches when `isWriting()` compares the whole mask and `sendInLoop`
asserts that some output was written: pending output drains only while the channel does not
read (`handleWrite_drains_iff`), a `SHUT_WR` may overtake pending output
(`shutdown_loses_nothing_iff`), and a send that finds output pending, or writes nothing, ends
the process (`sendInLoop_returns_iff`).
-/

set_option autoImplicit false

namespace Firey

/-- What has been handed over, what is still pending, and what was accepted, at a `SHUT_WR`. -/
structure ShutMark where
  pending : Bytes
  handed : Bytes
  accepted : List Bytes
  deriving DecidableEq, Repr

/-- A connection and the history of its output. -/
structure Wire where
  conn : TcpConnection
  accepted : List Bytes
  handed : Bytes
  shutdowns : List ShutMark
  deriving DecidableEq, Repr

namespace Wire

open TcpConnection

/-- A connection as constructed. -/
def start : Wire where
  conn := TcpConnection.ctor
  accepted := []
  handed := []
  shutdowns := []

/-- The history after a step that had these effects.  A `SHUT_WR` is the last thing a function
does, so it finds the output as the function leaves it. -/
def record (s : Wire) (i : Input) (c : TcpConnection) (es : List Effect) : Wire where
  conn := c
  accepted := s.accepted ++ i.accepts s.conn
  handed := s.handed ++ handedBy es
  shutdowns := s.shutdowns ++
    if .shutdownWrite ∈ es then
      [⟨c.pending, s.handed ++ handedBy es, s.accepted ++ i.accepts s.conn⟩]
    else []

def step (s : Wire) (i : Input) : Except Fault Wire := do
  let (c, es) ← s.conn.step i
  .ok (s.record i c es)

def machine : Machine Wire Input Fault := ⟨step⟩

/-! ## What every step keeps -/

/-- Nothing is lost, duplicated or reordered between the direct and the buffered path. -/
structure Inv (s : Wire) : Prop where
  conn : s.conn.Inv
  conserved : s.handed ++ s.conn.pending = s.accepted.flatten

lemma start_inv : start.Inv where
  conn := ctor_inv
  conserved := by
    rw [start, pending, ctor, Buffer.readable_ofInitialSize]
    rfl

/-- A step of the wire is a step of its connection. -/
lemma step_eq_ok {s t : Wire} {i : Input} (h : s.step i = .ok t) :
    ∃ c es, s.conn.step i = .ok (c, es) ∧ t = s.record i c es := by
  obtain ⟨⟨c, es⟩, hstep, hrec⟩ := bind_eq_ok h
  exact ⟨c, es, hstep, (Except.ok.inj hrec).symm⟩

lemma Inv.record {s : Wire} (h : s.Inv) {i : Input} {c : TcpConnection} {es : List Effect}
    (hsum : Summary s.conn i c es) : (s.record i c es).Inv where
  conn := hsum.inv
  conserved := by
    calc s.handed ++ handedBy es ++ c.pending
        = s.handed ++ (handedBy es ++ c.pending) := List.append_assoc _ _ _
      _ = s.handed ++ s.conn.pending ++ (i.accepts s.conn).flatten := by
          rw [hsum.bytes, List.append_assoc]
      _ = (s.accepted ++ i.accepts s.conn).flatten := by
          rw [h.conserved, List.flatten_append]

lemma step_inv (s : Wire) (i : Input) (t : Wire) (h : s.Inv) (hstep : s.step i = .ok t) :
    t.Inv := by
  obtain ⟨c, es, hconn, rfl⟩ := step_eq_ok hstep
  exact h.record (step_summary h.conn hconn)

/-- Every reachable state. -/
lemma inv_of_run {is : List Input} {s : Wire} (hrun : machine.run start is = .ok s) : s.Inv :=
  machine.run_invariant step_inv start_inv hrun

/-- **The output stream.**  In every reachable state the octets handed to the kernel, followed
by the pending ones, are the accepted messages in order; and an open connection asks for
write events exactly while output is pending. -/
theorem output_conserved {is : List Input} {s : Wire} (hrun : machine.run start is = .ok s) :
    s.handed ++ s.conn.pending = s.accepted.flatten ∧
      (s.conn.isOpen = true → (s.conn.wantsWrite = true ↔ s.conn.pending ≠ [])) := by
  have h := inv_of_run hrun
  exact ⟨h.conserved, fun ho => h.conn.wantsWrite_iff (ne_closed_of_isOpen ho)⟩

/-- A connection whose second message was written in part. -/
def partialSend : List Input :=
  [.connectionEstablished, .send true [1, 2] (.wrote 2), .send true [3, 4, 5] (.wrote 1)]

lemma partialSend_runs : ∃ s, machine.run start partialSend = .ok s ∧
    s.conn.isOpen = true ∧ s.handed = [1, 2, 3] ∧ s.conn.pending = [4, 5] ∧
      s.conn.wantsRead = true := by
  decide +kernel

theorem output_conserved_partialSend : ∃ s, machine.run start partialSend = .ok s ∧
    s.conn.pending ≠ [] ∧ s.handed ++ s.conn.pending = s.accepted.flatten ∧
      (s.conn.isOpen = true → (s.conn.wantsWrite = true ↔ s.conn.pending ≠ [])) := by
  obtain ⟨s, hrun, -, -, hpend, -⟩ := partialSend_runs
  exact ⟨s, hrun, by simp [hpend], output_conserved hrun⟩

/-! ## Draining -/

/-- `handleWrite` drains `k` octets: it hands the kernel the front of the output and keeps the
rest; once nothing is left the write interest is dropped and `writeCompleteCallback_`, if set,
is queued exactly once. -/
def Drains (c : TcpConnection) (k : ℕ) : Prop :=
  ∃ r, c.handleWrite (.wrote k) = .ok r ∧
    handedBy r.2 = c.pending.take k ∧ r.1.pending = c.pending.drop k ∧
      (r.1.pending = [] → r.1.wantsWrite = false ∧
        r.2.count (.queueInLoop .writeComplete) = if c.writeCompleteCallback then 1 else 0)

instance (c : TcpConnection) (k : ℕ) : Decidable (Drains c k) :=
  inferInstanceAs (Decidable (∃ r, c.handleWrite (.wrote k) = .ok r ∧ _))

lemma drains_of_not_reading {c : TcpConnection} (h : c.Inv) (ho : c.isOpen = true)
    (hr : c.wantsRead = false) {k : ℕ} (hk : 0 < k) (hle : k ≤ c.outputBuffer.readableBytes) :
    Drains c k := by
  have hne : c.pending ≠ [] := by
    rw [Ne, ← h.readableBytes_eq_zero_iff]
    omega
  have hw : c.connChannel.isWriting = true :=
    h.isWriting_iff.mpr ⟨(h.wantsWrite_iff (ne_closed_of_isOpen ho)).mpr hne, hr⟩
  have hmin : min k c.outputBuffer.readableBytes = k := min_eq_left hle
  obtain ⟨c', es, hwrite, hinv, hst, hpend, hes⟩ :=
    handleWrite_spec h hw (n := k) (by rw [hmin]; exact hk)
  have hopen : c'.state ≠ .kDisconnected := hst ▸ ne_closed_of_isOpen ho
  refine ⟨(c', es), hwrite, ?_, hpend, fun hnil => ⟨?_, ?_⟩⟩
  · have hquiet : handedBy (if c.pending.drop k = [] then c.drainedEffects else []) = [] := by
      unfold drainedEffects
      split_ifs <;> rfl
    rw [hes, handedBy, hquiet, hmin, List.append_nil]
  · rw [Bool.eq_false_iff]
    exact fun hon => (hinv.wantsWrite_iff hopen).mp hon hnil
  · rw [hes, if_pos (hpend ▸ hnil), List.count_cons_of_ne (by simp), drainedEffects]
    split_ifs <;> rfl

lemma not_drains_of_reading {c : TcpConnection} (h : c.Inv) (hr : c.wantsRead = true)
    (hne : c.pending ≠ []) {k : ℕ} (hk : 0 < k) : ¬ Drains c k := by
  rintro ⟨r, hwrite, hhand, -⟩
  rw [handleWrite_idle (h.not_isWriting_of_wantsRead hr)] at hwrite
  cases hwrite
  have hnil : c.pending.take k = [] := hhand.symm
  rcases List.take_eq_nil_iff.mp hnil with hzero | hempty
  · omega
  · exact hne hempty

/-- **Draining.**  On an open connection with output pending, `handleWrite` drains what the
kernel takes if and only if the channel does not ask for read events. -/
theorem handleWrite_drains_iff {is : List Input} {s : Wire}
    (hrun : machine.run start is = .ok s) (ho : s.conn.isOpen = true)
    (hne : s.conn.pending ≠ []) {k : ℕ} (hk : 0 < k)
    (hle : k ≤ s.conn.outputBuffer.readableBytes) :
    Drains s.conn k ↔ s.conn.wantsRead = false := by
  have h := (inv_of_run hrun).conn
  constructor
  · intro hdrains
    rw [Bool.eq_false_iff]
    exact fun hr => not_drains_of_reading h hr hne hk hdrains
  · intro hr
    exact drains_of_not_reading h ho hr hk hle

/-- `stopRead` alone would leave the interest on: `reading_` starts out false. -/
theorem handleWrite_drains_iff_stopRead :
    ∃ s, machine.run start (partialSend ++ [.startRead true, .stopRead true]) = .ok s ∧
      s.conn.wantsRead = false ∧ Drains s.conn 2 := by
  have hruns : ∃ s, machine.run start (partialSend ++ [.startRead true, .stopRead true]) = .ok s ∧
      s.conn.isOpen = true ∧ s.conn.pending ≠ [] ∧ 2 ≤ s.conn.outputBuffer.readableBytes ∧
        s.conn.wantsRead = false := by
    decide +kernel
  obtain ⟨s, hrun, ho, hne, hle, hr⟩ := hruns
  exact ⟨s, hrun, hr, (handleWrite_drains_iff hrun ho hne (by decide) hle).mpr hr⟩

/-- With the read interest a connection is established with, nothing drains. -/
theorem handleWrite_keeps_partialSend :
    ∃ s, machine.run start partialSend = .ok s ∧ s.conn.isOpen = true ∧
      s.conn.pending ≠ [] ∧ 2 ≤ s.conn.outputBuffer.readableBytes ∧ ¬ Drains s.conn 2 := by
  decide +kernel

/-! ## Shutting down -/

/-- What a shutdown is asked to do: every `SHUT_WR` comes when nothing is pending and every
accepted octet has been handed over.  An assertion failure ends the run. -/
def losesNothing : RunSpec Wire Fault where
  good s := ∀ m ∈ s.shutdowns, m.pending = [] ∧ m.handed = m.accepted.flatten
  move _ _ := True
  stop _ := True

/-- If the call gets to `shutdownInLoop` directly, nothing is pending, or the connection is
not closed and its channel does not ask for read events. -/
def ShutsDownSafely (s : Wire) (i : Input) : Prop :=
  i.shutsDown s.conn = true →
    s.conn.pending = [] ∨ s.conn.state ≠ .kDisconnected ∧ s.conn.wantsRead = false

/-- The marks of every earlier `SHUT_WR` are clean. -/
def Clean (s : Wire) : Prop := s.Inv ∧ losesNothing.good s

lemma mem_record_shutdowns {s : Wire} {i : Input} {c : TcpConnection} {es : List Effect}
    {m : ShutMark} (hm : m ∈ (s.record i c es).shutdowns) :
    m ∈ s.shutdowns ∨ .shutdownWrite ∈ es ∧
      m = ⟨c.pending, s.handed ++ handedBy es, s.accepted ++ i.accepts s.conn⟩ := by
  rcases List.mem_append.mp hm with hold | hnew
  · exact Or.inl hold
  · right
    split_ifs at hnew with hshut
    · exact ⟨hshut, List.mem_singleton.mp hnew⟩
    · simp at hnew

/-- A direct shutdown is held back by `isWriting()` alone. -/
lemma shutsDown_effects {c : TcpConnection} {i : Input} (hi : i.shutsDown c = true) :
    ∃ c', c'.pending = c.pending ∧ c.step i =
      .ok (c', if c.connChannel.isWriting then [] else [.shutdownWrite]) := by
  cases i with
  | shutdown inLoop =>
    cases inLoop with
    | false => cases hi
    | true =>
      have hs : c.state = .kConnected := by simpa [Input.shutsDown] using hi
      refine ⟨{ c with state := .kDisconnecting }, rfl, ?_⟩
      change c.shutdown true = _
      rw [shutdown, if_pos hs, runInLoop, if_pos rfl, shutdownInLoop_eq]
  | shutdownInLoop => exact ⟨c, rfl, shutdownInLoop_eq c⟩
  | _ => cases hi

/-- With output pending, `isWriting()` holds it back exactly when the connection is not closed
and its channel does not read. -/
lemma isWriting_iff_of_pending {c : TcpConnection} (h : c.Inv) (hne : c.pending ≠ []) :
    c.connChannel.isWriting = true ↔ c.state ≠ .kDisconnected ∧ c.wantsRead = false := by
  rw [h.isWriting_iff]
  constructor
  · rintro ⟨hw, hr⟩
    refine ⟨fun hs => ?_, hr⟩
    rw [h.closed hs] at hw
    cases hw
  · rintro ⟨hs, hr⟩
    exact ⟨(h.wantsWrite_iff hs).mpr hne, hr⟩

lemma clean_step {s t : Wire} {i : Input} (h : s.Clean) (hP : s.ShutsDownSafely i)
    (hstep : s.step i = .ok t) : t.Clean := by
  obtain ⟨hinv, hgood⟩ := h
  obtain ⟨c, es, hconn, rfl⟩ := step_eq_ok hstep
  have hsum := step_summary hinv.conn hconn
  have hinv' : (s.record i c es).Inv := hinv.record hsum
  refine ⟨hinv', fun m hm => ?_⟩
  rcases mem_record_shutdowns hm with hold | ⟨hshut, rfl⟩
  · exact hgood m hold
  · have hnil : c.pending = [] := by
      rcases hsum.shut hshut with hnil | ⟨hi, hpend⟩
      · exact hnil
      · by_contra hne
        have hsafe := (hP hi).resolve_left (hpend ▸ hne)
        obtain ⟨d, -, heq⟩ := shutsDown_effects hi
        rw [heq, (isWriting_iff_of_pending hinv.conn (hpend ▸ hne)).mpr hsafe] at hconn
        cases hconn
        simp at hshut
    refine ⟨hnil, ?_⟩
    have hcons := hinv'.conserved
    change s.handed ++ handedBy es ++ c.pending = _ at hcons
    rwa [hnil, List.append_nil] at hcons

/-- An unsafe direct shutdown succeeds and leaves a mark that is not clean. -/
lemma not_safe_step {s : Wire} {i : Input} (h : s.Inv) (hP : ¬ s.ShutsDownSafely i) :
    ∃ t, s.step i = .ok t ∧ ¬ losesNothing.good t := by
  unfold ShutsDownSafely at hP
  push Not at hP
  obtain ⟨hi, hne, hunsafe⟩ := hP
  have hidle : s.conn.connChannel.isWriting = false := by
    rw [Bool.eq_false_iff]
    intro hw
    obtain ⟨hs, hr⟩ := (isWriting_iff_of_pending h.conn hne).mp hw
    exact hunsafe hs hr
  obtain ⟨d, hpend, heq⟩ := shutsDown_effects hi
  rw [hidle] at heq
  refine ⟨s.record i d [.shutdownWrite], ?_, fun hgood => ?_⟩
  · rw [step, heq]
    rfl
  · have hmark := hgood ⟨d.pending, s.handed ++ handedBy [.shutdownWrite],
      s.accepted ++ i.accepts s.conn⟩ (by simp [record])
    exact hne (hpend ▸ hmark.1)

/-- **Shutting down.**  In every run, each `SHUT_WR` finds nothing pending and everything
accepted handed over, if and only if each shutdown that gets to `shutdownInLoop` directly
finds nothing pending, or a connection that is not closed and does not read. -/
theorem shutdown_loses_nothing_iff (is : List Input) :
    machine.Meets losesNothing start is ↔ machine.Along ShutsDownSafely start is := by
  refine machine.meets_iff_of_sound (I := Clean) (fun s h => h.2) ?_ ?_
    ⟨start_inv, fun m hm => (nomatch hm)⟩
  · intro s i h hP
    cases hstep : machine.step s i with
    | ok t => exact ⟨clean_step h hP hstep, trivial⟩
    | error e => trivial
  · intro s i h hP
    obtain ⟨t, ht, hbad⟩ := not_safe_step h.1 hP
    change losesNothing.Seen s (s.step i)
    rw [ht]
    exact fun hgood => hbad hgood.2

/-- A shutdown right after a message that was written in part overtakes the rest. -/
theorem shutdown_overtakes_partialSend :
    ∃ s, machine.run start (partialSend ++ [.shutdown true]) = .ok s ∧
      s.shutdowns = [⟨[4, 5], [1, 2, 3], [[1, 2], [3, 4, 5]]⟩] ∧ ¬ losesNothing.good s := by
  have hruns : ∃ s, machine.run start (partialSend ++ [.shutdown true]) = .ok s ∧
      s.shutdowns = [⟨[4, 5], [1, 2, 3], [[1, 2], [3, 4, 5]]⟩] := by
    decide +kernel
  obtain ⟨s, hrun, hmarks⟩ := hruns
  refine ⟨s, hrun, hmarks, fun hgood => ?_⟩
  have hmark := hgood _ (hmarks ▸ List.mem_singleton.mpr rfl)
  exact absurd hmark.1 (by decide)

/-! ## Sending -/

/-- **Sending.**  `sendInLoop` returns if and only if the connection is closed, or nothing is
pending, the message is not empty, and the kernel takes some of it. -/
theorem sendInLoop_returns_iff {is : List Input} {s : Wire}
    (hrun : machine.run start is = .ok s) (data : Bytes) (w : WriteResult) :
    (∃ r, s.conn.sendInLoop data w = .ok r) ↔
      s.conn.state = .kDisconnected ∨
        s.conn.pending = [] ∧ data ≠ [] ∧ ∃ n, w = .wrote n ∧ 0 < n := by
  have h := (inv_of_run hrun).conn
  by_cases hs : s.conn.state = .kDisconnected
  · exact ⟨fun _ => Or.inl hs, fun _ => ⟨(s.conn, []), by rw [sendInLoop, if_pos hs]⟩⟩
  · by_cases hok : s.conn.pending = [] ∧ ∃ n, w = .wrote n ∧ 0 < min n data.length
    · obtain ⟨hnil, n, rfl, hn⟩ := hok
      obtain ⟨c, es, hsend, -⟩ := sendInLoop_spec h hs hnil hn
      have hlen : 0 < data.length := by omega
      exact ⟨fun _ => Or.inr ⟨hnil, List.ne_nil_of_length_pos hlen, n, rfl, by omega⟩,
        fun _ => ⟨(c, es), hsend⟩⟩
    · rw [sendInLoop_fails h hs hok]
      constructor
      · rintro ⟨r, hr⟩
        cases hr
      · rintro (hcl | ⟨hnil, hdata, n, rfl, hn⟩)
        · exact absurd hcl hs
        · have hlen := List.length_pos_of_ne_nil hdata
          exact absurd ⟨hnil, n, rfl, by omega⟩ hok

theorem sendInLoop_returns_iff_established :
    ∃ s, machine.run start [.connectionEstablished] = .ok s ∧
      ∃ r, s.conn.sendInLoop [1, 2] (.wrote 1) = .ok r := by
  have hruns : ∃ s, machine.run start [.connectionEstablished] = .ok s ∧
      s.conn.pending = [] := by
    decide +kernel
  obtain ⟨s, hrun, hnil⟩ := hruns
  exact ⟨s, hrun, (sendInLoop_returns_iff hrun [1, 2] (.wrote 1)).mpr
    (Or.inr ⟨hnil, by decide, 1, rfl, by decide⟩)⟩

/-- On a fresh connection: a full socket buffer, a reset peer and an empty message each fail
the assertion, and so does a second message behind pending output. -/
theorem sendInLoop_fails_established :
    (∃ s, machine.run start [.connectionEstablished] = .ok s ∧
      s.conn.sendInLoop [1] (.failed .EAGAIN) = .error (.assertion .sendInLoop) ∧
      s.conn.sendInLoop [1] (.failed .EPIPE) = .error (.assertion .sendInLoop) ∧
      s.conn.sendInLoop [] (.wrote 0) = .error (.assertion .sendInLoop)) ∧
    ∃ s, machine.run start partialSend = .ok s ∧
      s.conn.sendInLoop [6] (.wrote 1) = .error (.assertion .sendInLoop) := by
  decide +kernel

end Wire

end Firey
