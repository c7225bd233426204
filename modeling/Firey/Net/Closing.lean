import Firey.Net.LifeCycle

/-!
# Who closes a connection

`handleClose` is run by three calls, at an end of stream, by `forceClose` in the loop of the
connection and by `forceCloseInLoop`, and it is the one function that tells the server
(`closeCallback_`).  `connectionDestroy` closes a connection without telling anybody.  No other
function takes a connection to `kDisconnected` (`stays_open`).

`Served` is the life of a connection of any loop: unlike one that is established where it was
accepted (`Lived`), it may be still on its way there.
-/

set_option autoImplicit false

namespace Firey

namespace TcpConnection

/-- The calls that come to `handleClose` when the connection is open. -/
def Input.closes : Input → Bool
  | .handleRead (.got []) => true
  | .forceClose inLoop => inLoop
  | .forceCloseInLoop => true
  | _ => false

section Closes

variable {c c' : TcpConnection} {i : Input} {es : List Effect}

lemma sendInLoop_state (h : c.Inv) {data : Bytes} {w : WriteResult}
    (hstep : c.sendInLoop data w = .ok (c', es)) : c'.state = c.state := by
  by_cases hs : c.state = .kDisconnected
  · rw [sendInLoop, if_pos hs] at hstep
    cases hstep
    rfl
  · by_cases htakes : c.pending = [] ∧ ∃ n, w = .wrote n ∧ 0 < min n data.length
    · obtain ⟨hnil, n, rfl, hn⟩ := htakes
      obtain ⟨d, fs, hsend, -, hst, -⟩ := sendInLoop_spec h hs hnil hn
      rw [hsend] at hstep
      cases hstep
      exact hst
    · rw [sendInLoop_fails h hs htakes] at hstep
      cases hstep

lemma handleWrite_state (h : c.Inv) {w : WriteResult} (hstep : c.handleWrite w = .ok (c', es)) :
    c'.state = c.state := by
  by_cases hw : c.connChannel.isWriting = true
  · by_cases hn : ∃ n, w = .wrote n ∧ 0 < min n c.outputBuffer.readableBytes
    · obtain ⟨n, rfl, hn⟩ := hn
      obtain ⟨d, fs, hwrite, -, hst, -⟩ := handleWrite_spec h hw hn
      rw [hwrite] at hstep
      cases hstep
      exact hst
    · rw [handleWrite_stuck c (fun n hwn => Nat.eq_zero_of_not_pos fun hpos => hn ⟨n, hwn, hpos⟩)]
        at hstep
      cases hstep
      rfl
  · rw [handleWrite_idle (by simpa using hw)] at hstep
    cases hstep
    rfl

/-- A call from another thread leaves the connection as it is. -/
lemma runInLoop_state {inLoop : Bool} {f : Functor} {now : Outcome}
    (hnow : inLoop = true → now = .ok (c', es) → c'.state = c.state)
    (hstep : c.runInLoop inLoop f now = .ok (c', es)) : c'.state = c.state := by
  cases inLoop with
  | false =>
    cases hstep
    rfl
  | true => exact hnow rfl hstep

lemma shutdownInLoop_state (hstep : c.shutdownInLoop = .ok (c', es)) : c'.state = c.state := by
  rw [shutdownInLoop_eq] at hstep
  cases hstep
  rfl

lemma startReadInLoop_state (h : c.Inv) (hstep : c.startReadInLoop = .ok (c', es)) :
    c'.state = c.state := by
  obtain ⟨d, hread, -, hst, -⟩ := startReadInLoop_spec h
  rw [hread] at hstep
  cases hstep
  exact hst

lemma stopReadInLoop_state (h : c.Inv) (hstep : c.stopReadInLoop = .ok (c', es)) :
    c'.state = c.state := by
  obtain ⟨d, hread, -, hst, -⟩ := stopReadInLoop_spec h
  rw [hread] at hstep
  cases hstep
  exact hst

lemma disconnecting_ne : ConnState.kDisconnecting ≠ .kDisconnected := by decide

/-- **Nobody else closes a connection** but `connectionDestroy`. -/
lemma stays_open (h : c.Inv) (ho : c.isOpen = true) (hcloses : i.closes = false)
    (hdestroy : i ≠ .connectionDestroy) (hstep : c.step i = .ok (c', es)) :
    c'.state ≠ .kDisconnected := by
  have hopen := ne_closed_of_isOpen ho
  have hkept (hs : c'.state = c.state) : c'.state ≠ .kDisconnected := hs ▸ hopen
  cases i with
  | connectionEstablished =>
    obtain ⟨-, -, hstep⟩ := bind_eq_ok hstep
    obtain ⟨channel, -, hstep⟩ := bind_eq_ok hstep
    cases hstep
    exact fun hs => ConnState.noConfusion hs
  | connectionDestroy => exact absurd rfl hdestroy
  | channelRemove =>
    obtain ⟨channel, -, hstep⟩ := bind_eq_ok hstep
    cases hstep
    exact hopen
  | send inLoop data w =>
    change c.send inLoop data w = _ at hstep
    unfold send at hstep
    split at hstep
    · exact hkept (runInLoop_state (fun _ => sendInLoop_state h) hstep)
    · cases hstep
      exact hopen
  | sendInLoop data w => exact hkept (sendInLoop_state h hstep)
  | shutdown inLoop =>
    change c.shutdown inLoop = _ at hstep
    unfold shutdown at hstep
    split at hstep
    · have hs := runInLoop_state (fun _ => shutdownInLoop_state) hstep
      exact hs ▸ disconnecting_ne
    · cases hstep
      exact hopen
  | shutdownInLoop => exact hkept (shutdownInLoop_state hstep)
  | forceClose inLoop =>
    have hremote : inLoop = false := hcloses
    change c.forceClose inLoop = _ at hstep
    rw [forceClose, if_pos ho, hremote] at hstep
    cases hstep
    exact disconnecting_ne
  | forceCloseInLoop => cases hcloses
  | startRead inLoop => exact hkept (runInLoop_state (fun _ => startReadInLoop_state h) hstep)
  | startReadInLoop => exact hkept (startReadInLoop_state h hstep)
  | stopRead inLoop => exact hkept (runInLoop_state (fun _ => stopReadInLoop_state h) hstep)
  | stopReadInLoop => exact hkept (stopReadInLoop_state h hstep)
  | handleRead r =>
    obtain ⟨b, -, heq⟩ := handleRead_eq h r
    change c.handleRead r = _ at hstep
    rw [heq] at hstep
    cases r with
    | failed e =>
      cases hstep
      exact hopen
    | got data =>
      cases data with
      | nil => cases hcloses
      | cons x xs =>
        cases hstep
        exact hopen
  | handleWrite w => exact hkept (handleWrite_state h hstep)
  | handleError =>
    cases hstep
    exact hopen
  | setWriteCompleteCallback =>
    cases hstep
    exact hopen
  | setHighWaterCallback mark =>
    cases hstep
    exact hopen
  | retrieveInput len =>
    obtain ⟨input, -, hstep⟩ := bind_eq_ok hstep
    cases hstep
    exact hopen

/-- `connectionDestroy` does not tell the server. -/
lemma count_of_destroy (hstep : c.step .connectionDestroy = .ok (c', es)) :
    es.count .closeCallback = 0 := by
  change c.connectionDestroy = _ at hstep
  unfold connectionDestroy at hstep
  split at hstep
  · obtain ⟨channel, -, hstep⟩ := bind_eq_ok hstep
    cases hstep
    rfl
  · cases hstep
    rfl

/-- What a step does about the closing of a connection: nothing; or it closes it and goes on to tell
the server; or it is `connectionDestroy`. -/
lemma Summary.closing (hsum : Summary c i c' es) :
    es.count .closeCallback = 0 ∧ (c'.state = .kDisconnected ↔ c.state = .kDisconnected) ∨
      es.count .closeCallback = 1 ∧ c.isOpen = true ∧ c'.state = .kDisconnected ∨
      es.count .closeCallback = 0 ∧ c.isOpen = true ∧ i = .connectionDestroy := by
  cases hsum.life with
  | stays hs hes =>
    refine Or.inl ⟨EventLoop.count_closeCallback_of_noCalls hes, ?_⟩
    rcases hs with hs | ⟨ho, hs⟩
    · rw [hs]
    · exact iff_of_false (hs ▸ disconnecting_ne) (ne_closed_of_isOpen ho)
  | opens hs hs' hes =>
    refine Or.inl ⟨by rw [hes]; rfl, iff_of_false ?_ ?_⟩
    · rw [hs']; decide
    · rw [hs]; decide
  | message x xs hi hs hes => exact Or.inl ⟨by rw [hes]; rfl, by rw [hs]⟩
  | closes ho hs' hes => exact Or.inr (Or.inl ⟨by rw [hes]; rfl, ho, hs'⟩)
  | destroys hi hs hs' hes =>
    exact Or.inr (Or.inr ⟨by rw [hes]; rfl, isOpen_iff.mpr (Or.inl hs), hi⟩)

/-- The closing of an open connection. -/
lemma closes_ok (h : c.Inv) (ho : c.isOpen = true)
    (hi : i.closes = true) : ∃ c', c.step i = .ok (c', [.callback .down, .closeCallback]) := by
  cases i with
  | handleRead r =>
    cases r with
    | failed e => cases hi
    | got data =>
      cases data with
      | cons x xs => cases hi
      | nil =>
        obtain ⟨b, hb, heq⟩ := handleRead_eq h (.got [])
        have hbuf : ({ c with inputBuffer := b } : TcpConnection).Inv :=
          h.of_frame hb rfl h.channel_ok rfl Iff.rfl
        obtain ⟨ch, -, -, hclose⟩ := handleClose_spec hbuf ho
        exact ⟨_, heq.trans hclose⟩
  | forceClose inLoop =>
    have hloop : inLoop = true := hi
    obtain ⟨ch, -, -, hclose⟩ := handleClose_spec (h.disconnecting ho) rfl
    refine ⟨_, Eq.trans ?_ hclose⟩
    change c.forceClose inLoop = _
    rw [forceClose, if_pos ho, hloop]
    rfl
  | forceCloseInLoop =>
    obtain ⟨ch, -, -, hclose⟩ := handleClose_spec h ho
    refine ⟨_, Eq.trans ?_ hclose⟩
    change c.forceCloseInLoop = _
    rw [forceCloseInLoop, if_pos ho]
  | _ => cases hi

end Closes

end TcpConnection

/-- The callbacks of a connection, which may still be on the way to its loop. -/
inductive Served (c : TcpConnection) : List Callback → Prop
  | fresh (hs : c.state = .kConnecting) : Served c []
  | lived {tr : List Callback} {k : ℕ} (h : Lived c tr k) : Served c tr

namespace Served

open TcpConnection

variable {c c' : TcpConnection} {i : Input} {es : List Effect} {tr : List Callback}

lemma isLife (h : Served c tr) : IsLife tr := by
  cases h with
  | fresh hs => exact ⟨0, List.nil_prefix⟩
  | lived h => exact h.isLife

lemma eq_nil (h : Served c tr) (hs : c.state = .kConnecting) : tr = [] := by
  cases h with
  | fresh _ => rfl
  | lived h => exact absurd hs h.not_connecting

lemma of_open (h : Served c tr) (ho : c.isOpen = true) :
    ∃ n, tr = .up :: List.replicate n .message := by
  cases h with
  | fresh hs =>
    rw [TcpConnection.isOpen, hs] at ho
    exact absurd ho (by decide)
  | lived h =>
    cases h with
    | running n _ => exact ⟨n, rfl⟩
    | closed n hs => exact absurd hs (ne_closed_of_isOpen ho)

/-- A message to a connection that is not open is not a life. -/
lemma not_isLife_message (h : Served c tr) (ho : c.isOpen = false) :
    ¬ IsLife (tr ++ [.message]) := by
  cases h with
  | fresh hs =>
    rintro ⟨n, hn⟩
    exact absurd (List.cons_prefix_cons.mp hn).1 (by decide)
  | lived h =>
    refine h.not_isLife_message ?_
    cases hstate : c.state with
    | kConnecting => exact absurd hstate h.not_connecting
    | kConnected => exact absurd (isOpen_iff.mpr (Or.inl hstate)) (by rw [ho]; decide)
    | kDisconnecting => exact absurd (isOpen_iff.mpr (Or.inr hstate)) (by rw [ho]; decide)
    | kDisconnected => rfl

/-- The state stays, or an open connection starts to disconnect. -/
lemma stays (h : Served c tr)
    (hs : c'.state = c.state ∨ c.isOpen = true ∧ c'.state = .kDisconnecting) : Served c' tr := by
  cases h with
  | fresh hconnecting =>
    rcases hs with hs | ⟨ho, -⟩
    · exact .fresh (hs.trans hconnecting)
    · rw [TcpConnection.isOpen, hconnecting] at ho
      exact absurd ho (by decide)
  | lived h =>
    cases h with
    | running n ho =>
      refine .lived (.running n ?_)
      rcases hs with hs | ⟨-, hs⟩
      · rwa [TcpConnection.isOpen, hs]
      · exact isOpen_iff.mpr (Or.inr hs)
    | closed n hclosed =>
      refine .lived (.closed n ?_)
      rcases hs with hs | ⟨ho, -⟩
      · exact hs.trans hclosed
      · exact absurd hclosed (ne_closed_of_isOpen ho)

/-- **A step leads on along the life**, if it reads from an open connection only. -/
lemma step (h : Served c tr) (hsum : Summary c i c' es)
    (hread : ∀ data, i = .handleRead (.got data) → c.isOpen = true) :
    Served c' (tr ++ callbacksOf es) := by
  cases hsum.life with
  | stays hs hes =>
    rw [EventLoop.callbacksOf_of_noCalls hes, List.append_nil]
    exact h.stays hs
  | opens hs hs' hes =>
    rw [h.eq_nil hs, hes]
    exact .lived (.running 0 (isOpen_iff.mpr (Or.inl hs')))
  | message x xs hi hs hes =>
    have ho := hread _ hi
    obtain ⟨n, rfl⟩ := h.of_open ho
    have hmessages : (.up :: List.replicate n Callback.message) ++ [.message] =
        .up :: List.replicate (n + 1) .message := by
      rw [List.replicate_succ', List.cons_append]
    rw [hes]
    change Served c' ((.up :: List.replicate n Callback.message) ++ [.message])
    rw [hmessages]
    exact .lived (.running (n + 1) (by rwa [TcpConnection.isOpen, hs]))
  | closes ho hs' hes =>
    obtain ⟨n, rfl⟩ := h.of_open ho
    rw [hes]
    exact .lived (.closed n hs')
  | destroys hi hs hs' hes =>
    obtain ⟨n, rfl⟩ := h.of_open (isOpen_iff.mpr (Or.inl hs))
    rw [hes]
    exact .lived (.closed n hs')

end Served

end Firey
