import Firey.Net.LifeCycle
import Firey.Net.TcpServer

/-!
# From `connectionDestroy` to the removal of the channel

What the functions of a connection do to its channel, said once (`ChannelStep`): only
`connectionDestroy` goes on to `connChannel_->remove()`, and on a closed connection only
`startRead` asks for events again.

`Stay` is what the server has to do with one connection, as one loop sees it: the connection
object, whether the map holds it, the functors that wait for it in its loop, and whether
`connectionDestroy` is waiting for a callback to return.  `Stay.Sound` is the invariant: the duty
to remove the channel is with exactly one of them, and what is removed is closed.
-/

set_option autoImplicit false

namespace Firey

namespace Channel

variable {c c' : Channel}

/-- A request to the kernel changes the entry of the epoll set alone. -/
lemma pollerUpdate_kept {op : EpollOp} (h : pollerUpdate op c = .ok c') :
    c'.mapped = c.mapped ∧ c'.events = c.events := by
  unfold pollerUpdate at h
  split at h
  · rw [Except.ok.injEq] at h
    exact h ▸ ⟨rfl, rfl⟩
  · split_ifs at h
    rw [Except.ok.injEq] at h
    exact h ▸ ⟨rfl, rfl⟩

/-- Whatever is asked for, the channel is in `channels_` then. -/
lemma setEvents_kept {m : Mask} (h : c.setEvents m = .ok c') :
    c'.mapped = true ∧ c'.events = m := by
  unfold setEvents update updateChannel at h
  dsimp only at h
  split at h
  · obtain ⟨_, _, h⟩ := bind_eq_ok h
    exact pollerUpdate_kept h
  · obtain ⟨_, hmapped, h⟩ := bind_eq_ok h
    have hkept := pollerUpdate_kept h
    exact ⟨hkept.1.trans (check_eq_ok hmapped), hkept.2⟩
  · obtain ⟨_, hmapped, h⟩ := bind_eq_ok h
    have hc := check_eq_ok hmapped
    split at h
    · obtain ⟨d, hd, h⟩ := bind_eq_ok h
      have hkept := pollerUpdate_kept hd
      rw [Except.ok.injEq] at h
      exact h ▸ ⟨hkept.1.trans hc, hkept.2⟩
    · have hkept := pollerUpdate_kept h
      exact ⟨hkept.1.trans hc, hkept.2⟩

/-- Nothing is kept about the channel any more. -/
structure Removed (c : Channel) : Prop where
  events : c.events = kNoneEvent
  index : c.index = .kNew
  mapped : c.mapped = false
  registered : c.registered = none
  addToLoop : c.addToLoop = false

/-- The poller removes a channel it knows, if there is no interest left. -/
lemma remove_spec (h : c.Ok) (hmapped : c.mapped = true) (hevents : c.events = kNoneEvent) :
    ∃ c', c.remove = .ok c' ∧ c'.Removed := by
  rcases hidx : c.index
  · rw [(h.new hidx).1] at hmapped
    exact nomatch hmapped
  · refine ⟨{ c with addToLoop := false, mapped := false, registered := none, index := .kNew }, ?_,
      hevents, rfl, rfl, rfl, rfl⟩
    have hreg := (h.added hidx).2
    simp [remove, removeChannel, check, hmapped, hidx, pollerUpdate, epollCtl, hreg,
      isNoneEvent, hevents]
  · have hreg := (h.deleted hidx).2
    refine ⟨{ c with addToLoop := false, mapped := false, index := .kNew }, ?_,
      hevents, rfl, rfl, hreg, rfl⟩
    simp [remove, removeChannel, check, hmapped, hidx, isNoneEvent, hevents]

end Channel

namespace TcpConnection

/-- The step runs `startReadInLoop`. -/
def Input.startsRead : Input → Bool
  | .startReadInLoop => true
  | .startRead inLoop => inLoop
  | _ => false

/-- What a step does to the channel, if it is neither of the two ends of `connectionDestroy`. -/
structure ChannelStep (c : TcpConnection) (i : Input) (c' : TcpConnection) (es : List Effect) :
    Prop where
  effects : .channelRemove ∉ es
  connecting : i ≠ .connectionEstablished → c.state = .kConnecting → c'.state = .kConnecting
  channel : c'.connChannel = c.connChannel ∨ c'.connChannel.mapped = true
  established : i = .connectionEstablished → c'.connChannel.mapped = true
  closed : c'.state = .kDisconnected →
    (c.state = .kDisconnected → i.startsRead = false ∧ c.connChannel.events = kNoneEvent) →
    c'.connChannel.events = kNoneEvent

namespace ChannelStep

variable {c c' : TcpConnection} {i : Input} {es : List Effect}

/-- The channel is left alone. -/
lemma kept (hes : .channelRemove ∉ es) (hi : i ≠ .connectionEstablished)
    (hs : c'.state = c.state) (hch : c'.connChannel = c.connChannel) : ChannelStep c i c' es where
  effects := hes
  connecting _ hs' := hs.trans hs'
  channel := Or.inl hch
  established h := absurd h hi
  closed hs' h := by
    rw [hch]
    exact (h (hs.symm.trans hs')).2

/-- The interest is changed. -/
lemma changed {m : Mask} (hes : .channelRemove ∉ es)
    (hs : i ≠ .connectionEstablished → c.state = .kConnecting → c'.state = .kConnecting)
    (hch : c.connChannel.setEvents m = .ok c'.connChannel)
    (hm : c'.state = .kDisconnected →
      (c.state = .kDisconnected → i.startsRead = false ∧ c.connChannel.events = kNoneEvent) →
      m = kNoneEvent) :
    ChannelStep c i c' es where
  effects := hes
  connecting := hs
  channel := Or.inr (Channel.setEvents_kept hch).1
  established _ := (Channel.setEvents_kept hch).1
  closed hs' h := (Channel.setEvents_kept hch).2.trans (hm hs' h)

/-- A call is its second half, at once or queued. -/
lemma runInLoop {inLoop : Bool} {f : Functor} {now : Outcome} (hi : i ≠ .connectionEstablished)
    (hnow : inLoop = true → now = .ok (c', es) → ChannelStep c i c' es)
    (hstep : c.runInLoop inLoop f now = .ok (c', es)) : ChannelStep c i c' es := by
  unfold TcpConnection.runInLoop at hstep
  split_ifs at hstep with hin
  · exact hnow hin hstep
  · rw [Except.ok.injEq, Prod.mk.injEq] at hstep
    obtain ⟨rfl, rfl⟩ := hstep
    exact kept (by simp) hi rfl rfl

end ChannelStep

section Steps

variable {c c' : TcpConnection} {i : Input} {es : List Effect}

lemma ok_inj {c c' : TcpConnection} {es es' : List Effect}
    (h : (Except.ok (c, es) : Outcome) = .ok (c', es')) : c' = c ∧ es' = es := by
  rw [Except.ok.injEq, Prod.mk.injEq] at h
  exact ⟨h.1.symm, h.2.symm⟩

lemma attempt_channel (c : TcpConnection) (data : Bytes) (w : WriteResult) :
    .channelRemove ∉ (c.attempt data w).effects := by
  unfold attempt
  split_ifs
  · split
    · dsimp only
      split_ifs <;> simp
    · simp
  · simp

lemma highWaterEffects_channel (c : TcpConnection) (remaining : ℕ) :
    .channelRemove ∉ c.highWaterEffects remaining := by
  unfold highWaterEffects
  dsimp only
  split_ifs <;> simp

lemma sendInLoop_channel {data : Bytes} {w : WriteResult} (hi : i ≠ .connectionEstablished)
    (hstep : c.sendInLoop data w = .ok (c', es)) : ChannelStep c i c' es := by
  unfold sendInLoop at hstep
  by_cases hs : c.state = .kDisconnected
  · rw [if_pos hs] at hstep
    obtain ⟨rfl, rfl⟩ := ok_inj hstep
    exact .kept (by simp) hi rfl rfl
  · rw [if_neg hs] at hstep
    obtain ⟨_, _, hstep⟩ := bind_eq_ok hstep
    split at hstep
    · obtain ⟨output, _, hstep⟩ := bind_eq_ok hstep
      have hes : .channelRemove ∉
          (c.attempt data w).effects ++ c.highWaterEffects (c.attempt data w).remaining := by
        rw [List.mem_append, not_or]
        exact ⟨attempt_channel c data w, highWaterEffects_channel c _⟩
      dsimp only at hstep
      split at hstep
      · obtain ⟨rfl, rfl⟩ := ok_inj hstep
        exact .kept hes hi rfl rfl
      · obtain ⟨channel, hch, hstep⟩ := bind_eq_ok hstep
        obtain ⟨rfl, rfl⟩ := ok_inj hstep
        exact .changed hes (fun _ => id) hch fun hclosed _ => absurd hclosed hs
    · obtain ⟨rfl, rfl⟩ := ok_inj hstep
      exact .kept (attempt_channel _ data w) hi rfl rfl

lemma shutdownInLoop_channel (hi : i ≠ .connectionEstablished)
    (hstep : c.shutdownInLoop = .ok (c', es)) : ChannelStep c i c' es := by
  rw [shutdownInLoop_eq] at hstep
  obtain ⟨rfl, rfl⟩ := ok_inj hstep
  refine .kept ?_ hi rfl rfl
  split_ifs <;> simp

lemma handleClose_channel (hstep : c.handleClose = .ok (c', es)) : ChannelStep c i c' es := by
  unfold handleClose at hstep
  obtain ⟨_, hopen, hstep⟩ := bind_eq_ok hstep
  have ho := isOpen_iff.mp (check_eq_ok hopen)
  obtain ⟨channel, hch, hstep⟩ := bind_eq_ok hstep
  obtain ⟨rfl, rfl⟩ := ok_inj hstep
  refine .changed (by simp) (fun _ hs => ?_) hch fun _ _ => rfl
  rcases ho with ho | ho <;> exact nomatch hs.symm.trans ho

lemma forceCloseInLoop_channel (hi : i ≠ .connectionEstablished)
    (hstep : c.forceCloseInLoop = .ok (c', es)) : ChannelStep c i c' es := by
  unfold forceCloseInLoop at hstep
  split_ifs at hstep
  · exact handleClose_channel hstep
  · obtain ⟨rfl, rfl⟩ := ok_inj hstep
    exact .kept (by simp) hi rfl rfl

/-- What is done after the state was set to `kDisconnecting` is done to the connection. -/
lemma ChannelStep.disconnecting (ho : c.isOpen = true)
    (h : ChannelStep { c with state := .kDisconnecting } i c' es) : ChannelStep c i c' es where
  effects := h.effects
  connecting _ hs := by
    rcases isOpen_iff.mp ho with ho | ho <;> exact nomatch hs.symm.trans ho
  channel := h.channel
  established := h.established
  closed hs' _ := h.closed hs' fun hs => nomatch hs

lemma startReadInLoop_channel (hi : i.startsRead = true) (hi' : i ≠ .connectionEstablished)
    (hstep : c.startReadInLoop = .ok (c', es)) : ChannelStep c i c' es := by
  unfold startReadInLoop at hstep
  split_ifs at hstep
  · obtain ⟨channel, hch, hstep⟩ := bind_eq_ok hstep
    obtain ⟨rfl, rfl⟩ := ok_inj hstep
    exact .changed (by simp) (fun _ => id) hch fun hs h => nomatch (h hs).1.symm.trans hi
  · obtain ⟨rfl, rfl⟩ := ok_inj hstep
    exact .kept (by simp) hi' rfl rfl

lemma stopReadInLoop_channel (hi : i ≠ .connectionEstablished)
    (hstep : c.stopReadInLoop = .ok (c', es)) : ChannelStep c i c' es := by
  unfold stopReadInLoop at hstep
  split_ifs at hstep
  · obtain ⟨channel, hch, hstep⟩ := bind_eq_ok hstep
    obtain ⟨rfl, rfl⟩ := ok_inj hstep
    refine .changed (by simp) (fun _ => id) hch fun hs h => ?_
    rw [(h hs).2]
    decide
  · obtain ⟨rfl, rfl⟩ := ok_inj hstep
    exact .kept (by simp) hi rfl rfl

lemma handleRead_channel {r : ReadResult} (hi : i ≠ .connectionEstablished)
    (hstep : c.handleRead r = .ok (c', es)) : ChannelStep c i c' es := by
  unfold handleRead at hstep
  obtain ⟨result, _, hstep⟩ := bind_eq_ok hstep
  dsimp only at hstep
  split_ifs at hstep
  · obtain ⟨rfl, rfl⟩ := ok_inj hstep
    exact .kept (by simp) hi rfl rfl
  · have h := handleClose_channel (i := i) hstep
    exact ⟨h.effects, h.connecting, h.channel, h.established, h.closed⟩
  · obtain ⟨rfl, rfl⟩ := ok_inj hstep
    exact .kept (by simp) hi rfl rfl

lemma handleWrite_channel {w : WriteResult} (hi : i ≠ .connectionEstablished)
    (hstep : c.handleWrite w = .ok (c', es)) : ChannelStep c i c' es := by
  have hstay (h : (Except.ok (c, []) : Outcome) = .ok (c', es)) : ChannelStep c i c' es := by
    obtain ⟨rfl, rfl⟩ := ok_inj h
    exact .kept (by simp) hi rfl rfl
  unfold handleWrite at hstep
  split_ifs at hstep with hwriting
  · split at hstep
    · dsimp only at hstep
      split at hstep
      · obtain ⟨output, _, hstep⟩ := bind_eq_ok hstep
        split at hstep
        · obtain ⟨channel, hch, hstep⟩ := bind_eq_ok hstep
          -- a channel that is writing has an interest
          have hnone : c.connChannel.events ≠ kNoneEvent := by
            intro hnone
            rw [Channel.isWriting, hnone] at hwriting
            exact absurd hwriting (by decide)
          split at hstep
          · rw [shutdownInLoop_eq, ok_bind] at hstep
            obtain ⟨rfl, rfl⟩ := ok_inj hstep
            refine .changed ?_ (fun _ => id) hch fun hs h => absurd (h hs).2 hnone
            dsimp only
            split_ifs <;> simp
          · obtain ⟨rfl, rfl⟩ := ok_inj hstep
            refine .changed ?_ (fun _ => id) hch fun hs h => absurd (h hs).2 hnone
            split_ifs <;> simp
        · obtain ⟨rfl, rfl⟩ := ok_inj hstep
          exact .kept (by simp) hi rfl rfl
      · exact hstay hstep
    · exact hstay hstep
  · exact hstay hstep

/-- **What a step does to the channel**, where it does not destroy the connection. -/
theorem step_channel (hdestroy : i ≠ .connectionDestroy) (hremove : i ≠ .channelRemove)
    (hstep : c.step i = .ok (c', es)) : ChannelStep c i c' es := by
  cases i with
  | connectionEstablished =>
    obtain ⟨_, _, hstep⟩ := bind_eq_ok hstep
    obtain ⟨channel, hch, hstep⟩ := bind_eq_ok hstep
    obtain ⟨rfl, rfl⟩ := ok_inj hstep
    exact .changed (by simp) (fun h => absurd rfl h) hch fun hclosed => nomatch hclosed
  | connectionDestroy => exact absurd rfl hdestroy
  | channelRemove => exact absurd rfl hremove
  | send inLoop data w =>
    change c.send inLoop data w = _ at hstep
    unfold send at hstep
    split at hstep
    · exact .runInLoop nofun (fun _ => sendInLoop_channel nofun) hstep
    · obtain ⟨rfl, rfl⟩ := ok_inj hstep
      exact .kept (by simp) nofun rfl rfl
  | sendInLoop data w => exact sendInLoop_channel nofun hstep
  | shutdown inLoop =>
    change c.shutdown inLoop = _ at hstep
    unfold shutdown at hstep
    split at hstep
    next hs =>
      refine .disconnecting (isOpen_iff.mpr (Or.inl hs)) ?_
      exact .runInLoop nofun (fun _ => shutdownInLoop_channel nofun) hstep
    next =>
      obtain ⟨rfl, rfl⟩ := ok_inj hstep
      exact .kept (by simp) nofun rfl rfl
  | shutdownInLoop => exact shutdownInLoop_channel nofun hstep
  | forceClose inLoop =>
    change c.forceClose inLoop = _ at hstep
    unfold forceClose at hstep
    split at hstep
    next ho =>
      refine .disconnecting ho ?_
      exact .runInLoop nofun (fun _ => forceCloseInLoop_channel nofun) hstep
    next =>
      obtain ⟨rfl, rfl⟩ := ok_inj hstep
      exact .kept (by simp) nofun rfl rfl
  | forceCloseInLoop => exact forceCloseInLoop_channel nofun hstep
  | startRead inLoop =>
    exact .runInLoop nofun (fun hin => startReadInLoop_channel hin nofun) hstep
  | startReadInLoop => exact startReadInLoop_channel rfl nofun hstep
  | stopRead inLoop => exact .runInLoop nofun (fun _ => stopReadInLoop_channel nofun) hstep
  | stopReadInLoop => exact stopReadInLoop_channel nofun hstep
  | handleRead r => exact handleRead_channel nofun hstep
  | handleWrite w => exact handleWrite_channel nofun hstep
  | handleError =>
    obtain ⟨rfl, rfl⟩ := ok_inj hstep
    exact .kept (by simp) nofun rfl rfl
  | setWriteCompleteCallback =>
    obtain ⟨rfl, rfl⟩ := ok_inj hstep
    exact .kept (by simp) nofun rfl rfl
  | setHighWaterCallback mark =>
    obtain ⟨rfl, rfl⟩ := ok_inj hstep
    exact .kept (by simp) nofun rfl rfl
  | retrieveInput len =>
    obtain ⟨_, _, hstep⟩ := bind_eq_ok hstep
    obtain ⟨rfl, rfl⟩ := ok_inj hstep
    exact .kept (by simp) nofun rfl rfl

/-- The DOWN callbacks of a step are those of the way to `kDisconnected`. -/
lemma Summary.down (h : Summary c i c' es) :
    (if c.state = .kDisconnected then 1 else 0) + (callbacksOf es).count .down =
      if c'.state = .kDisconnected then 1 else 0 := by
  cases h.life with
  | stays hs hes =>
    rw [EventLoop.callbacksOf_of_noCalls hes]
    rcases hs with hs | ⟨ho, hs⟩
    · rw [hs]
      rfl
    · rw [if_neg (ne_closed_of_isOpen ho), hs]
      rfl
  | opens hs hs' hes =>
    rw [hs, hs', hes]
    rfl
  | message x xs hi hs hes =>
    rw [hs, hes]
    rfl
  | closes ho hs' hes =>
    rw [if_neg (ne_closed_of_isOpen ho), hs', hes]
    rfl
  | destroys hi hs hs' hes =>
    rw [hs, hs', hes]
    rfl

/-- Nothing goes back to `kConnecting`. -/
lemma Summary.connecting (h : Summary c i c' es) (hs' : c'.state = .kConnecting) :
    c.state = .kConnecting := by
  cases h.life with
  | stays hs _ =>
    rcases hs with hs | ⟨-, hs⟩
    · exact hs.symm.trans hs'
    · exact nomatch hs.symm.trans hs'
  | opens hs _ _ => exact hs
  | message x xs _ hs _ => exact hs.symm.trans hs'
  | closes _ hs _ => exact nomatch hs.symm.trans hs'
  | destroys _ _ hs _ => exact nomatch hs.symm.trans hs'

end Steps

end TcpConnection

/-! ## One connection, as the server is concerned with it -/

open TcpConnection

/-- A connection with what is left to do about it: the entries of the map, the functors in its
loop, and the calls of `connectionDestroy` that wait for a callback to return. -/
structure Stay where
  conn : TcpConnection
  trace : List Callback
  removed : Bool
  entries : ℕ
  due : List ServerTask
  removing : ℕ

namespace Stay

/-- A member function has been called. -/
def after (v : Stay) (id : ConnId) (i : Input) (c : TcpConnection) (es : List Effect) : Stay where
  conn := c
  trace := v.trace ++ callbacksOf es
  removed := v.removed || decide (i = .channelRemove)
  entries := v.entries
  due := v.due ++ functorsOf id es
  removing := v.removing + es.count .channelRemove

/-- Who has to see to it that the channel is removed, or has done so. -/
def duties (v : Stay) (id : ConnId) : ℕ :=
  v.entries + v.due.count (.connectionDestroy id) + v.removing + v.removed.toNat

/-- `n` is one, but for the middle of a step that takes the duty from one place to another. -/
structure Sound (id : ConnId) (n : ℕ) (v : Stay) : Prop where
  conn : v.conn.Inv
  down : v.trace.count .down = if v.conn.state = .kDisconnected then 1 else 0
  quiet : v.removed = false → v.conn.state = .kDisconnected →
    v.conn.connChannel.events = kNoneEvent
  mapped : v.removed = false → v.conn.state ≠ .kConnecting → v.conn.connChannel.mapped = true
  duty : v.duties id = n
  leaving : 0 < v.removing ∨ v.removed = true → v.conn.state = .kDisconnected
  connecting : v.conn.state = .kConnecting → .connectionEstablished id ∈ v.due
  ordered : ∀ before rest, v.due = before ++ .connectionDestroy id :: rest →
    v.conn.state = .kConnecting → .connectionEstablished id ∈ before

lemma destroy_notMem_functorsOf (id j : ConnId) (es : List Effect) :
    .connectionDestroy j ∉ functorsOf id es := by
  rw [functorsOf, List.mem_filterMap]
  rintro ⟨e, -, he⟩
  rcases e <;> exact nomatch he

/-- What is appended to the queue does not come before what is in it. -/
lemma ordered_append {due ts before rest : List ServerTask} {t : ServerTask} (ht : t ∉ ts)
    (h : due ++ ts = before ++ t :: rest) : ∃ rest', due = before ++ t :: rest' := by
  rcases List.append_eq_append_iff.mp h with ⟨mid, hbefore, hts⟩ | ⟨mid, hdue, hrest⟩
  · exact absurd (by rw [hts]; simp) ht
  · rcases mid with _ | ⟨u, mid⟩
    · exact absurd (by rw [← List.nil_append ts, ← hrest]; exact List.mem_cons_self) ht
    · rw [List.cons_append, List.cons.injEq] at hrest
      exact ⟨mid, by rw [hdue, hrest.1]⟩

namespace Sound

variable {id : ConnId} {n : ℕ} {v : Stay} {i : Input} {c : TcpConnection} {es : List Effect}

lemma duties_eq (h : v.Sound id n) :
    v.entries + v.due.count (.connectionDestroy id) + v.removing + v.removed.toNat = n :=
  h.duty

/-- While somebody has to see to it, the channel is not removed. -/
lemma not_removed (h : v.Sound id n)
    (hn : n ≤ v.entries + v.due.count (.connectionDestroy id) + v.removing) :
    v.removed = false := by
  have hduty := h.duties_eq
  rcases hr : v.removed
  · rfl
  · rw [hr, Bool.toNat_true] at hduty
    omega

/-- What nobody has to see to any more has been seen to. -/
lemma removed_of_free (h : v.Sound id 1) (hentries : v.entries = 0)
    (hdue : .connectionDestroy id ∉ v.due) (hremoving : v.removing = 0) : v.removed = true := by
  have hduty := h.duties_eq
  rw [hentries, List.count_eq_zero.mpr hdue, hremoving] at hduty
  rcases hr : v.removed
  · rw [hr] at hduty
    simp at hduty
  · rfl

/-- A call leaves the duty where it is. -/
lemma call (h : v.Sound id n) (hdestroy : i ≠ .connectionDestroy) (hremove : i ≠ .channelRemove)
    (hestablish : i ≠ .connectionEstablished)
    (hread : v.removed = false → v.conn.state = .kDisconnected → i.startsRead = false)
    (hstep : v.conn.step i = .ok (c, es)) : (v.after id i c es).Sound id n := by
  have hsum := step_summary h.conn hstep
  have hch := step_channel hdestroy hremove hstep
  have hremoved : (v.after id i c es).removed = v.removed := by simp [after, hremove]
  have hremoving : (v.after id i c es).removing = v.removing := by
    simp [after, List.count_eq_zero.mpr hch.effects]
  have hdestroys : (v.after id i c es).due.count (.connectionDestroy id) =
      v.due.count (.connectionDestroy id) := by
    simp [after, List.count_append, List.count_eq_zero.mpr (destroy_notMem_functorsOf id id es)]
  refine ⟨hsum.inv, ?_, ?_, ?_, ?_, ?_, ?_, ?_⟩
  · change (v.trace ++ callbacksOf es).count .down = _
    rw [List.count_append, h.down]
    exact hsum.down
  · intro hr hs
    rw [hremoved] at hr
    exact hch.closed hs fun hclosed => ⟨hread hr hclosed, h.quiet hr hclosed⟩
  · intro hr hs
    rw [hremoved] at hr
    rcases hch.channel with hkept | hmapped
    · change c.connChannel.mapped = true
      rw [hkept]
      exact h.mapped hr fun hs' => hs (hch.connecting hestablish hs')
    · exact hmapped
  · unfold duties
    rw [hremoved, hremoving, hdestroys]
    exact h.duty
  · rw [hremoved, hremoving]
    exact fun hl => EventLoop.closed_step hsum (h.leaving hl)
  · exact fun hs => List.mem_append_left _ (h.connecting (hsum.connecting hs))
  · intro before rest hdue hs
    obtain ⟨rest', hrest⟩ := ordered_append (destroy_notMem_functorsOf id id es) hdue
    exact h.ordered before rest' hrest (hsum.connecting hs)

/-- A functor that is neither of the two ends is taken from the queue. -/
lemma pop {t : ServerTask} {ts : List ServerTask} (h : v.Sound id n) (hdue : v.due = t :: ts)
    (hdestroy : t ≠ .connectionDestroy id) (hestablish : t ≠ .connectionEstablished id) :
    ({ v with due := ts } : Stay).Sound id n where
  conn := h.conn
  down := h.down
  quiet := h.quiet
  mapped := h.mapped
  duty := by
    have hduty := h.duties_eq
    rwa [hdue, List.count_cons_of_ne hdestroy] at hduty
  leaving := h.leaving
  connecting hs := by
    have hmem := h.connecting hs
    rw [hdue] at hmem
    exact (List.mem_cons.mp hmem).resolve_left (Ne.symm hestablish)
  ordered before rest hts hs := by
    have hmem := h.ordered (t :: before) rest (by rw [hdue, List.cons_append, ← hts]) hs
    exact (List.mem_cons.mp hmem).resolve_left (Ne.symm hestablish)

/-- Once the channel is removed, the functors that wait do not matter. -/
lemma drop (h : v.Sound id 1) (hremoved : v.removed = true) :
    ({ v with due := [] } : Stay).Sound id 1 := by
  have hclosed := h.leaving (Or.inr hremoved)
  refine ⟨h.conn, h.down, h.quiet, h.mapped, ?_, h.leaving,
    fun hs => (nomatch hs.symm.trans hclosed), fun _ _ _ hs => (nomatch hs.symm.trans hclosed)⟩
  have hduty := h.duties_eq
  unfold duties
  rw [hremoved] at hduty ⊢
  simp at hduty ⊢
  omega

/-- `connectionEstablished` is called, and leads out of `kConnecting`. -/
lemma establish {ts : List ServerTask} (h : v.Sound id n)
    (hdue : v.due = .connectionEstablished id :: ts)
    (hstep : v.conn.step .connectionEstablished = .ok (c, es)) :
    ({ v with due := ts }.after id .connectionEstablished c es).Sound id n := by
  have hsum := step_summary h.conn hstep
  have hmapped := (step_channel (i := .connectionEstablished) nofun nofun hstep).established rfl
  obtain ⟨_, hs, hrest⟩ := bind_eq_ok hstep
  have hconnecting : v.conn.state = .kConnecting := check_eq_ok hs
  obtain ⟨channel, _, hrest⟩ := bind_eq_ok hrest
  obtain ⟨rfl, rfl⟩ := ok_inj hrest
  refine ⟨hsum.inv, ?_, fun _ hs' => (nomatch hs'), fun _ _ => hmapped, ?_, fun hleaving => ?_,
    fun hs' => (nomatch hs'), fun _ _ _ hs' => (nomatch hs')⟩
  · change (v.trace ++ callbacksOf [.callback .up]).count .down = _
    rw [List.count_append, h.down]
    exact hsum.down
  · have hduty := h.duties_eq
    rw [hdue, List.count_cons_of_ne (by simp)] at hduty
    simpa [duties, after, functorsOf] using hduty
  · have hclosed := h.leaving (by simpa [after] using hleaving)
    exact nomatch hclosed.symm.trans hconnecting

/-- `shutdown` and `forceCloseWithDelay` set the state. -/
lemma halfClose (h : v.Sound id n) (ho : v.conn.isOpen = true) :
    ({ v with conn := { v.conn with state := .kDisconnecting } } : Stay).Sound id n where
  conn := h.conn.disconnecting ho
  down := by
    rw [h.down, if_neg (ne_closed_of_isOpen ho)]
    rfl
  quiet _ hs := nomatch hs
  mapped hr _ := h.mapped hr fun hs => by
    rcases isOpen_iff.mp ho with ho | ho <;> exact nomatch hs.symm.trans ho
  duty := h.duty
  leaving hl := absurd (h.leaving hl) (ne_closed_of_isOpen ho)
  connecting hs := nomatch hs
  ordered _ _ _ hs := nomatch hs

/-- The duty is taken out of the queue: the connection has been established by then. -/
lemma popDestroy {ts : List ServerTask} (h : v.Sound id (n + 1))
    (hdue : v.due = .connectionDestroy id :: ts) :
    ({ v with due := ts } : Stay).Sound id n ∧ v.conn.state ≠ .kConnecting := by
  have hne : v.conn.state ≠ .kConnecting := fun hs => nomatch h.ordered [] ts hdue hs
  refine ⟨⟨h.conn, h.down, h.quiet, h.mapped, ?_, h.leaving, fun hs => absurd hs hne,
    fun _ _ _ hs => absurd hs hne⟩, hne⟩
  have hduty := h.duties_eq
  rw [hdue, List.count_cons_self] at hduty
  unfold duties
  dsimp only
  omega

/-- The duty is taken out of the map. -/
lemma erase (h : v.Sound id 1) (hentries : 0 < v.entries) :
    ({ v with entries := 0 } : Stay).Sound id 0 := by
  refine ⟨h.conn, h.down, h.quiet, h.mapped, ?_, h.leaving, h.connecting, h.ordered⟩
  have hduty := h.duties_eq
  unfold duties
  dsimp only
  omega

/-- The duty is put into the queue, behind `connectionEstablished`. -/
lemma queue (h : v.Sound id 0) :
    ({ v with due := v.due ++ [.connectionDestroy id] } : Stay).Sound id 1 := by
  have hduty := h.duties_eq
  have hnone : .connectionDestroy id ∉ v.due := List.count_eq_zero.mp (by omega)
  refine ⟨h.conn, h.down, h.quiet, h.mapped, ?_, h.leaving,
    fun hs => List.mem_append_left _ (h.connecting hs), fun before rest hdue hs => ?_⟩
  · unfold duties
    simp only [List.count_append, List.count_singleton_self]
    omega
  · -- the functor that is queued is the only one of its kind
    have hend : before = v.due := by
      rcases List.append_eq_append_iff.mp hdue with ⟨mid, hbefore, hmid⟩ | ⟨mid, hdue, hmid⟩
      · rcases mid with _ | ⟨t, mid⟩
        · rw [hbefore, List.append_nil]
        · rw [List.cons_append, List.cons.injEq] at hmid
          exact absurd hmid.2 (by simp)
      · rcases mid with _ | ⟨t, mid⟩
        · rw [hdue, List.append_nil]
        · rw [List.cons_append, List.cons.injEq] at hmid
          exact absurd (by rw [hdue, hmid.1]; simp) hnone
    exact hend ▸ h.connecting hs

/-- `connectionDestroy` is called, where nothing has left the connection half closed. -/
lemma destroy (h : v.Sound id 0) (hconnecting : v.conn.state ≠ .kConnecting)
    (hhalf : v.conn.state ≠ .kDisconnecting)
    (hstep : v.conn.step .connectionDestroy = .ok (c, es)) :
    (v.after id .connectionDestroy c es).Sound id 1 := by
  have hsum := step_summary h.conn hstep
  have hduty := h.duties_eq
  have hremoved : v.removed = false := h.not_removed (Nat.zero_le _)
  have hsound (hs : c.state = .kDisconnected) (hnone : c.connChannel.events = kNoneEvent)
      (hmapped : c.connChannel.mapped = true) (hes : es.count .channelRemove = 1)
      (hfunctors : functorsOf id es = []) : (v.after id .connectionDestroy c es).Sound id 1 := by
    refine ⟨hsum.inv, ?_, fun _ _ => hnone, fun _ _ => hmapped, ?_, fun _ => hs,
      fun hs' => (nomatch hs'.symm.trans hs), fun _ _ _ hs' => (nomatch hs'.symm.trans hs)⟩
    · change (v.trace ++ callbacksOf es).count .down = _
      rw [List.count_append, h.down]
      exact hsum.down
    · unfold duties after
      rw [hfunctors, hes, hremoved]
      simp
      omega
  change v.conn.connectionDestroy = _ at hstep
  unfold connectionDestroy at hstep
  split at hstep
  · obtain ⟨channel, hch, hstep⟩ := bind_eq_ok hstep
    obtain ⟨rfl, rfl⟩ := ok_inj hstep
    have hkept := Channel.setEvents_kept hch
    exact hsound rfl hkept.2 hkept.1 rfl rfl
  next hconnected =>
    obtain ⟨rfl, rfl⟩ := ok_inj hstep
    have hclosed : v.conn.state = .kDisconnected := by
      rcases hs : v.conn.state <;> first | rfl | contradiction
    exact hsound hclosed (h.quiet hremoved hclosed) (h.mapped hremoved hconnecting) rfl rfl

/-- `channelRemove` is called: it succeeds, and nothing is kept about the channel then. -/
lemma remove (h : v.Sound id 1) {k : ℕ} (hremoving : v.removing = k + 1) :
    ∃ c, v.conn.step .channelRemove = .ok (c, []) ∧ c.state = .kDisconnected ∧
      c.connChannel.Removed ∧
      ({ v with removing := k }.after id .channelRemove c []).Sound id 1 := by
  have hclosed := h.leaving (Or.inl (by omega))
  have hduty := h.duties_eq
  have hremoved : v.removed = false := h.not_removed (by omega)
  obtain ⟨channel, hrem, hchannel⟩ := Channel.remove_spec h.conn.channel_ok
    (h.mapped hremoved fun hs => nomatch hs.symm.trans hclosed) (h.quiet hremoved hclosed)
  have hstep : v.conn.step .channelRemove = .ok ({ v.conn with connChannel := channel }, []) := by
    change v.conn.channelRemove = _
    rw [channelRemove, hrem, ok_bind]
  have hsum := step_summary h.conn hstep
  refine ⟨_, hstep, hclosed, hchannel, hsum.inv, ?_, fun hr => ?_, fun hr => ?_, ?_,
    fun _ => hclosed, fun hs => (nomatch hs.symm.trans hclosed),
    fun _ _ _ hs => (nomatch hs.symm.trans hclosed)⟩
  · change (v.trace ++ callbacksOf []).count .down = _
    rw [List.count_append, h.down]
    exact hsum.down
  · exact absurd hr (by simp [after])
  · exact absurd hr (by simp [after])
  · unfold duties after
    simp [functorsOf]
    omega

end Sound

end Stay

end Firey
