import Firey.Net.Stream

/-!
# Starting and stopping to read

`reading_` and the bit `EPOLLIN` of `events_` record the same fact.  `connectionEstablished` sets
the bit alone, and the guard of `stopReadInLoop` asks `Channelff::isReading()`, which compares the
whole mask, so that a connection that has never been told to read and has output pending is not
told to stop either.  In every other state both functions do what they say
(`reads_as_asked_iff`).
-/

set_option autoImplicit false

namespace Firey

namespace TcpConnection

variable {c : TcpConnection}

/-- `TcpConnectionff::isReading()`. -/
def isReading (c : TcpConnection) : Bool := c.reading

/-- The call leaves `EPOLLIN` as `on` says and `EPOLLOUT` as it was, and `isReading()` agrees. -/
def Leaves (c : TcpConnection) (on : Bool) (x : Outcome) : Prop :=
  ∃ r, x = .ok r ∧ r.1.wantsRead = on ∧ r.1.wantsWrite = c.wantsWrite ∧
    r.1.isReading = r.1.wantsRead

instance (c : TcpConnection) (on : Bool) (x : Outcome) : Decidable (c.Leaves on x) :=
  inferInstanceAs (Decidable (∃ r, x = .ok r ∧ r.1.wantsRead = on ∧
    r.1.wantsWrite = c.wantsWrite ∧ r.1.isReading = r.1.wantsRead))

def ReadsAsAsked (c : TcpConnection) : Prop :=
  c.Leaves true c.startReadInLoop ∧ c.Leaves false c.stopReadInLoop

instance (c : TcpConnection) : Decidable c.ReadsAsAsked := inferInstanceAs (Decidable (_ ∧ _))

/-- The connection reads and has output pending, and `reading_` does not know of the reading. -/
def ReadsUnmarked (c : TcpConnection) : Prop :=
  c.reading = false ∧ c.connChannel.events = kReadEvent ||| kWriteEvent

instance (c : TcpConnection) : Decidable c.ReadsUnmarked := inferInstanceAs (Decidable (_ ∧ _))

lemma wantsRead_of_isReading (h : c.connChannel.isReading = true) : c.wantsRead = true := by
  unfold Channel.isReading at h
  unfold wantsRead
  rw [eq_of_beq h]
  decide

/-- `startReadInLoop` is right in every state. -/
lemma startReadInLoop_leaves (h : c.Inv) : c.Leaves true c.startReadInLoop := by
  unfold startReadInLoop
  by_cases hguard : c.reading = false ∨ c.connChannel.isReading = false
  · obtain ⟨ch, hen, -, hev⟩ :=
      Channel.setEvents_spec h.channel_ok h.channel_ok.interest.or_read
    rw [if_pos hguard, Channel.enableReading, hen, ok_bind]
    have hread : ch.events.has kReadEvent = true := by
      rw [hev]
      exact h.channel_ok.interest.has_read_or_read
    refine ⟨_, rfl, hread, ?_, hread.symm⟩
    unfold wantsWrite
    rw [hev]
    exact h.channel_ok.interest.has_write_or_read
  · rw [if_neg hguard]
    rw [not_or, Bool.not_eq_false, Bool.not_eq_false] at hguard
    have hread := wantsRead_of_isReading hguard.2
    exact ⟨_, rfl, hread, rfl, hguard.1.trans hread.symm⟩

/-- `stopReadInLoop` turns the reading off where its guard lets it. -/
lemma stopReadInLoop_leaves (h : c.Inv)
    (hguard : c.reading = true ∨ c.connChannel.isReading = true) :
    c.Leaves false c.stopReadInLoop := by
  obtain ⟨ch, hdis, -, hev⟩ :=
    Channel.setEvents_spec h.channel_ok h.channel_ok.interest.andNot_read
  rw [stopReadInLoop, if_pos hguard, Channel.disableReading, hdis, ok_bind]
  have hread : ch.events.has kReadEvent = false := by
    rw [hev]
    exact h.channel_ok.interest.has_read_andNot_read
  refine ⟨_, rfl, hread, ?_, hread.symm⟩
  unfold wantsWrite
  rw [hev]
  exact h.channel_ok.interest.has_write_andNot_read

/-- Where it does not, it does nothing. -/
lemma stopReadInLoop_idle (hguard : ¬ (c.reading = true ∨ c.connChannel.isReading = true)) :
    c.stopReadInLoop = .ok (c, []) := if_neg hguard

theorem readsAsAsked_iff (h : c.Inv) : c.ReadsAsAsked ↔ ¬ c.ReadsUnmarked := by
  constructor
  · rintro ⟨-, r, hstop, hread, -⟩ ⟨hreading, hev⟩
    have hguard : ¬ (c.reading = true ∨ c.connChannel.isReading = true) := by
      unfold Channel.isReading
      rw [hreading, hev]
      decide
    rw [stopReadInLoop_idle hguard, Except.ok.injEq] at hstop
    unfold wantsRead at hread
    rw [← hstop, hev] at hread
    exact absurd hread (by decide)
  · intro hmarked
    refine ⟨startReadInLoop_leaves h, ?_⟩
    by_cases hguard : c.reading = true ∨ c.connChannel.isReading = true
    · exact stopReadInLoop_leaves h hguard
    · -- then there is nothing to stop: the mask is empty, or it is `EPOLLOUT` alone
      rw [stopReadInLoop_idle hguard]
      rw [not_or, Bool.not_eq_true, Bool.not_eq_true] at hguard
      have hread : c.wantsRead = false := by
        unfold wantsRead
        rcases h.channel_ok.interest with hev | hev | hev | hev
        · rw [hev]
          decide
        · exact absurd hguard.2 (by rw [Channel.isReading, hev]; decide)
        · rw [hev]
          decide
        · exact absurd ⟨hguard.1, hev⟩ hmarked
      exact ⟨_, rfl, hread, rfl, hguard.1.trans hread.symm⟩

end TcpConnection

namespace Wire

open TcpConnection

/-- **Starting and stopping to read**, in every reachable state of a connection: both functions
do what they say unless the connection reads without `reading_` and has output pending. -/
theorem reads_as_asked_iff {is : List Input} {s : Wire} (hrun : machine.run start is = .ok s) :
    s.conn.ReadsAsAsked ↔ ¬ s.conn.ReadsUnmarked :=
  readsAsAsked_iff (inv_of_run hrun).conn

/-- A connection whose second message was written in part, after `startRead()`. -/
theorem reads_as_asked_iff_marked : ∃ s,
    machine.run start (partialSend ++ [.startRead true]) = .ok s ∧ s.conn.isOpen = true ∧
      s.conn.wantsWrite = true ∧ s.conn.ReadsAsAsked := by
  have hrun : ∃ s, machine.run start (partialSend ++ [.startRead true]) = .ok s ∧
      s.conn.isOpen = true ∧ s.conn.wantsWrite = true ∧ ¬ s.conn.ReadsUnmarked := by
    decide +kernel
  obtain ⟨s, hs, ho, hw, hmarked⟩ := hrun
  exact ⟨s, hs, ho, hw, (reads_as_asked_iff hs).mpr hmarked⟩

/-- Without it, `stopReadInLoop` is ignored: the channel goes on asking for `EPOLLIN`, and
`isReading()` has been denying it all along. -/
theorem stopReadInLoop_ignored : ∃ s, machine.run start partialSend = .ok s ∧
    s.conn.isOpen = true ∧ ¬ s.conn.ReadsAsAsked ∧
      ∃ r, s.conn.stopReadInLoop = .ok r ∧ r.1.wantsRead = true ∧ r.1.isReading = false := by
  decide +kernel

end Wire

end Firey
