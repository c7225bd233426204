import Firey.Net.DirectCalls

/-!
# The notices of a connection, and its input

`writeCompleteCallback_` and `highWaterCallback_` are queued as functors, by `sendInLoop` and by
`handleWrite`.  `Duplex` is a connection with the history of both its directions and of these
notices, run through any inputs whatever, and `notices_exact` says what the notices are in terms of
the streams alone: a step that hands something to the kernel and leaves nothing pending queues a
write-complete notice, one that takes the pending output to the high water mark from below queues a
high-water notice, and no other step queues any.

What arrives is conserved as what leaves is (`Firey.Net.Stream`): it has been consumed, or it is in
the input buffer.
-/

set_option autoImplicit false

namespace Firey

/-- The notice that a functor is. -/
def Effect.notice : Effect → Option Functor
  | .queueInLoop .writeComplete => some .writeComplete
  | .queueInLoop .highWater => some .highWater
  | _ => none

/-- The effect is not seen in the streams. -/
def Effect.isQuiet : Effect → Bool
  | .write _ _ => false
  | .callback .message => false
  | e => e.notice.isNone

def noticesBy (es : List Effect) : List Functor := es.filterMap Effect.notice

def messagesBy (es : List Effect) : ℕ := es.count (.callback .message)

lemma handedBy_of_quiet {es : List Effect} (h : ∀ e ∈ es, e.isQuiet = true) :
    handedBy es = [] := by
  induction es with
  | nil => rfl
  | cons e es ih =>
    have hrest := ih fun f hf => h f (List.mem_cons_of_mem _ hf)
    have he := h e List.mem_cons_self
    cases e with
    | write data n => cases he
    | _ => exact hrest

lemma noticesBy_of_quiet {es : List Effect} (h : ∀ e ∈ es, e.isQuiet = true) :
    noticesBy es = [] := by
  rw [noticesBy, List.filterMap_eq_nil_iff]
  intro e he
  have hquiet := h e he
  cases e with
  | queueInLoop f => cases f <;> first | rfl | cases hquiet
  | _ => rfl

lemma messagesBy_of_quiet {es : List Effect} (h : ∀ e ∈ es, e.isQuiet = true) :
    messagesBy es = 0 :=
  List.count_eq_zero.mpr fun hmem => Bool.false_ne_true (h _ hmem)

namespace TcpConnection

/-- The octets that a read takes from the kernel. -/
def Input.delivers (c : TcpConnection) : Input → Bytes
  | .handleRead (.got data) => data.take c.inputBuffer.readFdOffer
  | _ => []

/-- The octets that a callback takes from the input. -/
def Input.consumes (c : TcpConnection) : Input → Bytes
  | .retrieveInput len => c.inputBuffer.readable.take len
  | _ => []

/-- The notices that are due when a step has handed this to the kernel. -/
def dues (c c' : TcpConnection) (handed : Bytes) : List Functor :=
  (if handed ≠ [] ∧ c'.pending = [] ∧ c.writeCompleteCallback = true then [.writeComplete]
    else []) ++
  if c.pending.length < c.highWaterMark ∧ c.highWaterMark ≤ c'.pending.length ∧
      c.highWaterCallback = true then [.highWater]
  else []

/-- What a step does to the input, and what it tells. -/
structure Tells (c : TcpConnection) (i : Input) (c' : TcpConnection) (es : List Effect) :
    Prop where
  notices : noticesBy es = dues c c' (handedBy es)
  messages : messagesBy es = if i.delivers c = [] then 0 else 1
  input : i.consumes c ++ c'.inputBuffer.readable = c.inputBuffer.readable ++ i.delivers c

/-- A step that is not seen in the streams. -/
structure Quiet (c c' : TcpConnection) (es : List Effect) : Prop where
  effects : ∀ e ∈ es, e.isQuiet = true
  input : c'.inputBuffer.readable = c.inputBuffer.readable

variable {c c' : TcpConnection} {i : Input} {es : List Effect}

/-- Output that does not grow does not reach the mark. -/
lemma dues_eq (hle : c'.pending.length ≤ c.pending.length) (handed : Bytes) :
    dues c c' handed =
      if handed ≠ [] ∧ c'.pending = [] ∧ c.writeCompleteCallback = true then [.writeComplete]
      else [] := by
  have hnot : ¬ (c.pending.length < c.highWaterMark ∧ c.highWaterMark ≤ c'.pending.length ∧
      c.highWaterCallback = true) := by omega
  rw [dues, if_neg hnot, List.append_nil]

lemma Quiet.tells (h : Quiet c c' es) (hsum : Summary c i c' es) (hacc : i.accepts c = [])
    (hdel : i.delivers c = []) (hcon : i.consumes c = []) : Tells c i c' es where
  notices := by
    have hhanded := handedBy_of_quiet h.effects
    have hpending := hsum.bytes
    rw [hhanded, hacc, List.nil_append, List.flatten_nil, List.append_nil] at hpending
    rw [noticesBy_of_quiet h.effects, hhanded, dues_eq (by rw [hpending])]
    exact (if_neg fun hwrote => hwrote.1 rfl).symm
  messages := by rw [messagesBy_of_quiet h.effects, if_pos hdel]
  input := by rw [hcon, hdel, h.input, List.nil_append, List.append_nil]

/-! ## The steps that write -/

/-- What `sendInLoop` does besides, when it takes a message. -/
lemma sendInLoop_effects (h : c.Inv) (hs : c.state ≠ .kDisconnected) (hnil : c.pending = [])
    {data : Bytes} {n : ℕ} (hok : c.sendInLoop data (.wrote n) = .ok (c', es)) :
    es = .write data (min n data.length) ::
      if data.length ≤ n then
        if c.writeCompleteCallback = true then [.queueInLoop .writeComplete] else []
      else c.highWaterEffects (data.length - n) := by
  have hw := h.isWriting_of_pending_nil hnil
  have hzero := h.readableBytes_eq_zero_iff.mpr hnil
  unfold sendInLoop at hok
  simp only [if_neg hs, attempt, hw, hzero, Bool.not_false, beq_self_eq_true, Bool.and_self,
    if_true] at hok
  obtain ⟨-, -, hok⟩ := bind_eq_ok hok
  by_cases hall : data.length ≤ n
  · have hrest : data.length - min n data.length = 0 := by omega
    rw [if_neg (by omega)] at hok
    cases hok
    rw [if_pos hall, hrest]
    simp only [true_and]
  · have hrest : data.length - min n data.length = data.length - n := by omega
    rw [if_pos ⟨trivial, by omega⟩] at hok
    obtain ⟨output, -, hok⟩ := bind_eq_ok hok
    obtain ⟨channel, -, hok⟩ := bind_eq_ok hok
    cases hok
    rw [if_neg hall, hrest, if_neg (by omega)]
    rfl

lemma sendInLoop_tells (h : c.Inv) {data : Bytes} {w : WriteResult}
    (hok : c.sendInLoop data w = .ok (c', es)) :
    noticesBy es = dues c c' (handedBy es) ∧ messagesBy es = 0 := by
  by_cases hs : c.state = .kDisconnected
  · rw [sendInLoop, if_pos hs] at hok
    cases hok
    rw [dues_eq (le_refl _)]
    exact ⟨(if_neg fun hwrote => hwrote.1 rfl).symm, rfl⟩
  · by_cases htakes : c.pending = [] ∧ ∃ n, w = .wrote n ∧ 0 < min n data.length
    · obtain ⟨hnil, n, rfl, htaken⟩ := htakes
      obtain ⟨c₁, es₁, hok₁, -, -, hhanded, hpending, -⟩ := sendInLoop_spec h hs hnil htaken
      rw [hok] at hok₁
      cases hok₁
      have heffects := sendInLoop_effects h hs hnil hok
      have hwrote : data.take n ≠ [] := by
        rw [Ne, List.take_eq_nil_iff, ← List.length_eq_zero_iff]
        omega
      rw [hhanded, dues, hpending, hnil, List.length_drop, List.length_nil, heffects]
      by_cases hall : data.length ≤ n
      · rw [if_pos hall, if_neg (by omega : ¬ (0 < c.highWaterMark ∧ _)), List.append_nil]
        have hdrained := List.drop_eq_nil_of_le hall
        cases c.writeCompleteCallback with
        | true => exact ⟨(if_pos ⟨hwrote, hdrained, rfl⟩).symm, rfl⟩
        | false => exact ⟨(if_neg fun hset => Bool.false_ne_true hset.2.2).symm, rfl⟩
      · have hzero := h.readableBytes_eq_zero_iff.mpr hnil
        have hleft : ¬ data.drop n = [] := fun hdrop => hall (List.drop_eq_nil_iff.mp hdrop)
        rw [if_neg hall, if_neg (fun hset => hleft hset.2.1), List.nil_append, highWaterEffects,
          hzero, Nat.zero_add]
        by_cases hmark : c.highWaterMark ≤ data.length - n ∧ 0 < c.highWaterMark ∧
            c.highWaterCallback = true
        · rw [if_pos hmark, if_pos ⟨hmark.2.1, hmark.1, hmark.2.2⟩]
          exact ⟨rfl, rfl⟩
        · rw [if_neg hmark, if_neg fun hset => hmark ⟨hset.2.1, hset.1, hset.2.2⟩]
          exact ⟨rfl, rfl⟩
    · rw [sendInLoop_fails h hs htakes] at hok
      cases hok

lemma handleWrite_frame {w : WriteResult} (hok : c.handleWrite w = .ok (c', es)) :
    c'.inputBuffer = c.inputBuffer := by
  unfold handleWrite at hok
  split at hok
  · cases w with
    | failed e =>
      cases hok
      rfl
    | wrote n =>
      dsimp only at hok
      split at hok
      · obtain ⟨output, -, hok⟩ := bind_eq_ok hok
        split at hok
        · obtain ⟨channel, -, hok⟩ := bind_eq_ok hok
          split at hok
          · rw [shutdownInLoop_eq] at hok
            cases hok
            rfl
          · cases hok
            rfl
        · cases hok
          rfl
      · cases hok
        rfl
  · cases hok
    rfl

lemma drainedEffects_tells (c : TcpConnection) :
    noticesBy c.drainedEffects =
        (if c.writeCompleteCallback = true then [.writeComplete] else []) ∧
      messagesBy c.drainedEffects = 0 ∧ handedBy c.drainedEffects = [] := by
  unfold drainedEffects
  split <;> split <;> exact ⟨rfl, rfl, rfl⟩

lemma handleWrite_tells (h : c.Inv) {w : WriteResult} (hok : c.handleWrite w = .ok (c', es)) :
    noticesBy es = dues c c' (handedBy es) ∧ messagesBy es = 0 := by
  have hidle (hstep : c.handleWrite w = .ok (c, [])) :
      noticesBy es = dues c c' (handedBy es) ∧ messagesBy es = 0 := by
    rw [hok] at hstep
    cases hstep
    rw [dues_eq (le_refl _)]
    exact ⟨(if_neg fun hwrote => hwrote.1 rfl).symm, rfl⟩
  by_cases hw : c.connChannel.isWriting = true
  · by_cases hn : ∃ n, w = .wrote n ∧ 0 < min n c.outputBuffer.readableBytes
    · obtain ⟨n, rfl, hn⟩ := hn
      obtain ⟨c₁, es₁, hok₁, -, -, hpending, heffects⟩ := handleWrite_spec h hw hn
      rw [hok] at hok₁
      cases hok₁
      have hle : c'.pending.length ≤ c.pending.length := by
        rw [hpending, List.length_drop]
        omega
      rw [dues_eq hle, heffects]
      by_cases hdrained : c.pending.drop n = []
      · have hwrote : c.pending.take (min n c.outputBuffer.readableBytes) ≠ [] := by
          rw [Ne, List.take_eq_nil_iff, ← List.length_eq_zero_iff, h.length_pending]
          omega
        obtain ⟨hnotices, hmessages, hhanded⟩ := drainedEffects_tells c
        rw [if_pos hdrained]
        refine ⟨hnotices.trans ?_, hmessages⟩
        rw [handedBy, hhanded, List.append_nil]
        have hnil := hpending.trans hdrained
        cases c.writeCompleteCallback with
        | true => exact (if_pos ⟨hwrote, hnil, rfl⟩).symm
        | false => exact (if_neg fun hset => Bool.false_ne_true hset.2.2).symm
      · rw [if_neg hdrained]
        exact ⟨(if_neg fun hset => hdrained (hpending.symm.trans hset.2.1)).symm, rfl⟩
    · exact hidle (handleWrite_stuck c
        (fun n hwn => Nat.eq_zero_of_not_pos fun hpos => hn ⟨n, hwn, hpos⟩))
  · exact hidle (handleWrite_idle (by simpa using hw) w)

/-! ## The other steps -/

lemma Quiet.refl (c : TcpConnection) : Quiet c c [] :=
  ⟨fun _ he => absurd he List.not_mem_nil, rfl⟩

lemma runInLoop_quiet {inLoop : Bool} {f : Functor} {now : Outcome}
    (hf : (Effect.queueInLoop f).isQuiet = true) (hnow : now = .ok (c', es) → Quiet c c' es)
    (hok : c.runInLoop inLoop f now = .ok (c', es)) : Quiet c c' es := by
  unfold runInLoop at hok
  split at hok
  · exact hnow hok
  · cases hok
    exact ⟨fun e he => List.mem_singleton.mp he ▸ hf, rfl⟩

lemma shutdownInLoop_quiet (hok : c.shutdownInLoop = .ok (c', es)) : Quiet c c' es := by
  rw [shutdownInLoop_eq] at hok
  cases hok
  refine ⟨fun e he => ?_, rfl⟩
  split at he
  · cases he
  · rw [List.mem_singleton.mp he]
    rfl

lemma handleClose_quiet (hok : c.handleClose = .ok (c', es)) : Quiet c c' es := by
  obtain ⟨-, -, hok⟩ := bind_eq_ok hok
  obtain ⟨channel, -, hok⟩ := bind_eq_ok hok
  cases hok
  refine ⟨fun e he => ?_, rfl⟩
  rcases List.mem_pair.mp he with rfl | rfl <;> rfl

lemma forceCloseInLoop_quiet (hok : c.forceCloseInLoop = .ok (c', es)) : Quiet c c' es := by
  unfold forceCloseInLoop at hok
  split at hok
  · exact handleClose_quiet hok
  · cases hok
    exact .refl c

lemma startReadInLoop_quiet (hok : c.startReadInLoop = .ok (c', es)) : Quiet c c' es := by
  unfold startReadInLoop at hok
  split at hok
  · obtain ⟨channel, -, hok⟩ := bind_eq_ok hok
    cases hok
    exact ⟨fun _ he => absurd he List.not_mem_nil, rfl⟩
  · cases hok
    exact .refl c

lemma stopReadInLoop_quiet (hok : c.stopReadInLoop = .ok (c', es)) : Quiet c c' es := by
  unfold stopReadInLoop at hok
  split at hok
  · obtain ⟨channel, -, hok⟩ := bind_eq_ok hok
    cases hok
    exact ⟨fun _ he => absurd he List.not_mem_nil, rfl⟩
  · cases hok
    exact .refl c

lemma connectionEstablished_quiet (hok : c.connectionEstablished = .ok (c', es)) :
    Quiet c c' es := by
  obtain ⟨-, -, hok⟩ := bind_eq_ok hok
  obtain ⟨channel, -, hok⟩ := bind_eq_ok hok
  cases hok
  exact ⟨fun e he => by rw [List.mem_singleton.mp he]; rfl, rfl⟩

lemma connectionDestroy_quiet (hok : c.connectionDestroy = .ok (c', es)) : Quiet c c' es := by
  unfold connectionDestroy at hok
  split at hok
  · obtain ⟨channel, -, hok⟩ := bind_eq_ok hok
    cases hok
    refine ⟨fun e he => ?_, rfl⟩
    rcases List.mem_pair.mp he with rfl | rfl <;> rfl
  · cases hok
    exact ⟨fun e he => by rw [List.mem_singleton.mp he]; rfl, rfl⟩

lemma channelRemove_quiet (hok : c.channelRemove = .ok (c', es)) : Quiet c c' es := by
  obtain ⟨channel, -, hok⟩ := bind_eq_ok hok
  cases hok
  exact ⟨fun _ he => absurd he List.not_mem_nil, rfl⟩

lemma shutdown_quiet {inLoop : Bool} (hok : c.shutdown inLoop = .ok (c', es)) :
    Quiet c c' es := by
  unfold shutdown at hok
  split at hok
  · obtain ⟨heffects, hinput⟩ := runInLoop_quiet rfl shutdownInLoop_quiet hok
    exact ⟨heffects, hinput⟩
  · cases hok
    exact .refl c

lemma forceClose_quiet {inLoop : Bool} (hok : c.forceClose inLoop = .ok (c', es)) :
    Quiet c c' es := by
  unfold forceClose at hok
  split at hok
  · obtain ⟨heffects, hinput⟩ := runInLoop_quiet rfl forceCloseInLoop_quiet hok
    exact ⟨heffects, hinput⟩
  · cases hok
    exact .refl c

/-- Sending, directly or from the queue. -/
lemma send_tells (h : c.Inv) {inLoop : Bool} {data : Bytes} {w : WriteResult}
    (hok : c.send inLoop data w = .ok (c', es)) :
    noticesBy es = dues c c' (handedBy es) ∧ messagesBy es = 0 ∧
      c'.inputBuffer = c.inputBuffer := by
  have hnone : ([] : List Functor) = dues c c [] := by
    rw [dues_eq (le_refl _)]
    exact (if_neg fun hwrote => hwrote.1 rfl).symm
  unfold send at hok
  split at hok
  · cases inLoop with
    | true =>
      have hsend : c.sendInLoop data w = .ok (c', es) := hok
      obtain ⟨hnotices, hmessages⟩ := sendInLoop_tells h hsend
      exact ⟨hnotices, hmessages, (sendInLoop_frame h hsend).1⟩
    | false =>
      cases hok
      exact ⟨hnone, rfl, rfl⟩
  · cases hok
    exact ⟨hnone, rfl, rfl⟩

lemma handleRead_tells (h : c.Inv) {r : ReadResult} (hsum : Summary c (.handleRead r) c' es)
    (hok : c.handleRead r = .ok (c', es)) : Tells c (.handleRead r) c' es := by
  cases r with
  | failed e =>
    have heq : c.handleRead (.failed e) = .ok (c, []) := rfl
    rw [heq] at hok
    cases hok
    exact (Quiet.refl c).tells hsum rfl rfl rfl
  | got data =>
    by_cases hdata : data = []
    · rw [hdata] at hok hsum ⊢
      obtain ⟨b, hread, -, hreadable⟩ := Buffer.readFd_got_spec h.input_wf []
      rw [List.take_nil, List.append_nil] at hreadable
      have hclose : c.handleRead (.got []) = handleClose { c with inputBuffer := b } := by
        rw [handleRead, hread, ok_bind]
        simp
      obtain ⟨heffects, hinput⟩ := handleClose_quiet (hclose.symm.trans hok)
      exact Quiet.tells ⟨heffects, hinput.trans hreadable⟩ hsum rfl List.take_nil rfl
    · obtain ⟨b, -, hreadable, heq⟩ := handleRead_message h hdata
      rw [heq] at hok
      cases hok
      have hdelivers : Input.delivers c (.handleRead (.got data)) ≠ [] := by
        have hoffer := readFdOffer_pos c.inputBuffer
        rw [Input.delivers, Ne, List.take_eq_nil_iff]
        exact not_or.mpr ⟨by omega, hdata⟩
      refine ⟨?_, ?_, ?_⟩
      · have hsame : ({ c with inputBuffer := b } : TcpConnection).pending = c.pending := rfl
        rw [dues_eq (by rw [hsame])]
        exact (if_neg fun hwrote => hwrote.1 rfl).symm
      · rw [if_neg hdelivers]
        rfl
      · exact hreadable

lemma retrieveInput_tells (h : c.Inv) {len : ℕ}
    (hok : c.step (.retrieveInput len) = .ok (c', es)) : Tells c (.retrieveInput len) c' es := by
  obtain ⟨b, hret, hok⟩ := bind_eq_ok hok
  have hlen : len ≤ c.inputBuffer.readableBytes := by
    by_contra hlen
    rw [Buffer.retrieve, check_false hlen] at hret
    cases hret
  obtain ⟨b', hret', -, hreadable⟩ := Buffer.retrieve_spec h.input_wf hlen
  rw [hret] at hret'
  cases hret'
  cases hok
  have hsame : ({ c with inputBuffer := b } : TcpConnection).pending = c.pending := rfl
  refine ⟨?_, rfl, ?_⟩
  · rw [dues_eq (by rw [hsame])]
    exact (if_neg fun hwrote => hwrote.1 rfl).symm
  · change c.inputBuffer.readable.take len ++ b.readable = c.inputBuffer.readable ++ []
    rw [hreadable, List.take_append_drop, List.append_nil]

/-- A step that leaves the input alone. -/
lemma Tells.of_send (hinput : c'.inputBuffer = c.inputBuffer) (hdel : i.delivers c = [])
    (hcon : i.consumes c = []) (hnotices : noticesBy es = dues c c' (handedBy es))
    (hmessages : messagesBy es = 0) : Tells c i c' es where
  notices := hnotices
  messages := by rw [hmessages, if_pos hdel]
  input := by rw [hcon, hdel, hinput, List.nil_append, List.append_nil]

/-- **What a step tells.** -/
theorem step_tells (h : c.Inv) (hok : c.step i = .ok (c', es)) : Tells c i c' es := by
  have hsum := step_summary h hok
  have hquiet (hq : Quiet c c' es) (hacc : i.accepts c = []) (hdel : i.delivers c = [])
      (hcon : i.consumes c = []) := hq.tells hsum hacc hdel hcon
  cases i with
  | connectionEstablished => exact hquiet (connectionEstablished_quiet hok) rfl rfl rfl
  | connectionDestroy => exact hquiet (connectionDestroy_quiet hok) rfl rfl rfl
  | channelRemove => exact hquiet (channelRemove_quiet hok) rfl rfl rfl
  | send inLoop data w =>
    obtain ⟨hnotices, hmessages, hinput⟩ := send_tells h hok
    exact .of_send hinput rfl rfl hnotices hmessages
  | sendInLoop data w =>
    obtain ⟨hnotices, hmessages⟩ := sendInLoop_tells h hok
    exact .of_send (sendInLoop_frame h hok).1 rfl rfl hnotices hmessages
  | shutdown inLoop => exact hquiet (shutdown_quiet hok) rfl rfl rfl
  | shutdownInLoop => exact hquiet (shutdownInLoop_quiet hok) rfl rfl rfl
  | forceClose inLoop => exact hquiet (forceClose_quiet hok) rfl rfl rfl
  | forceCloseInLoop => exact hquiet (forceCloseInLoop_quiet hok) rfl rfl rfl
  | startRead inLoop =>
    exact hquiet (runInLoop_quiet rfl startReadInLoop_quiet hok) rfl rfl rfl
  | startReadInLoop => exact hquiet (startReadInLoop_quiet hok) rfl rfl rfl
  | stopRead inLoop => exact hquiet (runInLoop_quiet rfl stopReadInLoop_quiet hok) rfl rfl rfl
  | stopReadInLoop => exact hquiet (stopReadInLoop_quiet hok) rfl rfl rfl
  | handleRead r => exact handleRead_tells h hsum hok
  | handleWrite w =>
    obtain ⟨hnotices, hmessages⟩ := handleWrite_tells h hok
    exact .of_send (handleWrite_frame hok) rfl rfl hnotices hmessages
  | handleError =>
    cases hok
    exact hquiet (.refl c) rfl rfl rfl
  | setWriteCompleteCallback =>
    cases hok
    exact hquiet ⟨fun _ he => absurd he List.not_mem_nil, rfl⟩ rfl rfl rfl
  | setHighWaterCallback mark =>
    cases hok
    exact hquiet ⟨fun _ he => absurd he List.not_mem_nil, rfl⟩ rfl rfl rfl
  | retrieveInput len => exact retrieveInput_tells h hok

end TcpConnection

/-! ## Every run -/

/-- A connection with the history of both directions: `messages` counts the message callbacks, and
`notices` are those queued, in order. -/
structure Duplex where
  wire : Wire
  received : Bytes
  consumed : Bytes
  messages : ℕ
  notices : List Functor
  deriving DecidableEq, Repr

namespace Duplex

open TcpConnection

def start : Duplex := ⟨Wire.start, [], [], 0, []⟩

def step (s : Duplex) (i : Input) : Except Fault Duplex := do
  let (c, es) ← s.wire.conn.step i
  .ok {
    wire := s.wire.record i c es
    received := s.received ++ i.delivers s.wire.conn
    consumed := s.consumed ++ i.consumes s.wire.conn
    messages := s.messages + messagesBy es
    notices := s.notices ++ noticesBy es }

def machine : Machine Duplex Input Fault := ⟨step⟩

/-- Both streams are conserved. -/
structure Conserved (s : Duplex) : Prop where
  output : s.wire.handed ++ s.wire.conn.pending = s.wire.accepted.flatten
  input : s.received = s.consumed ++ s.wire.conn.inputBuffer.readable

/-- What a step tells is what the streams show: it hands over and it takes in, and the notices and
the message callback are those due for this.  When a write-complete notice is due, all that was ever
accepted is with the kernel. -/
def Told (s t : Duplex) : Prop :=
  ∃ handed delivered, t.wire.handed = s.wire.handed ++ handed ∧
    t.received = s.received ++ delivered ∧
    t.notices = s.notices ++ dues s.wire.conn t.wire.conn handed ∧
    t.messages = s.messages + (if delivered = [] then 0 else 1) ∧
    (.writeComplete ∈ dues s.wire.conn t.wire.conn handed →
      t.wire.handed = t.wire.accepted.flatten)

/-- The streams are conserved, each step tells what they show, and the process ends only by the
assertions of the functions that are called. -/
def Exact : RunSpec Duplex Fault where
  good := Conserved
  move := Told
  stop e := ∃ (c : TcpConnection) (i : Input), Failure c i e

structure Inv (s : Duplex) : Prop where
  wire : s.wire.Inv
  input : s.received = s.consumed ++ s.wire.conn.inputBuffer.readable

lemma start_inv : start.Inv where
  wire := Wire.start_inv
  input := by
    rw [start, Wire.start, ctor, Buffer.readable_ofInitialSize]
    rfl

/-- Nothing is pending when a write-complete notice is due. -/
lemma pending_of_due {c c' : TcpConnection} {handed : Bytes}
    (h : .writeComplete ∈ dues c c' handed) : c'.pending = [] := by
  unfold dues at h
  rcases List.mem_append.mp h with h | h
  · split at h
    next hset => exact hset.2.1
    · cases h
  · split at h
    · cases List.mem_singleton.mp h
    · cases h

/-- **The notices are exact**, and what arrives is conserved, in every run of a connection. -/
theorem notices_exact (is : List Input) : machine.Meets Exact start is := by
  refine machine.meets_of_sound (S := Exact) (P := fun _ _ => True) (I := Inv)
    (fun s h => ⟨h.wire.conserved, h.input⟩) ?_ start_inv
    (machine.along_of_forall (fun _ _ => trivial) _ _)
  intro s i h _
  change Exact.Sound Inv s (s.step i)
  cases hstep : s.wire.conn.step i with
  | error e =>
    rw [step, hstep]
    exact ⟨_, _, step_failure h.wire.conn hstep⟩
  | ok r =>
    obtain ⟨c, es⟩ := r
    rw [step, hstep]
    have htells := step_tells h.wire.conn hstep
    have hwire := h.wire.record (step_summary h.wire.conn hstep)
    refine ⟨⟨hwire, ?_⟩, handedBy es, i.delivers s.wire.conn, rfl, rfl, ?_, ?_, fun hdue => ?_⟩
    · change s.received ++ _ = s.consumed ++ _ ++ c.inputBuffer.readable
      rw [h.input, List.append_assoc, List.append_assoc, htells.input]
    · exact congrArg (s.notices ++ ·) htells.notices
    · exact congrArg (s.messages + ·) htells.messages
    · have hnil := pending_of_due hdue
      have hconserved := hwire.conserved
      rw [hnil, List.append_nil] at hconserved
      exact hconserved

end Duplex

end Firey
