import Firey.Fault

/-!
# `Channelff` and its entry in `Pollerff`

A channel is modelled together with what is kept about its descriptor elsewhere: whether
`Pollerff::channels_` maps the descriptor to it (`mapped`), and the mask the kernel's epoll
set holds for the descriptor (`registered`).  Both are keyed by the descriptor and every
function of `Pollerff` reads and writes the entry of `channel->fd()` alone, so channels with
distinct descriptors do not touch each other's entries.

`epollCtl` succeeds exactly on a legal request.  `Channel.Ok` says that the three records of
one fact, `index`, `mapped` and `registered`, agree; `setEvents_spec` is the one lemma by which
every change of interest keeps it.
-/

set_option autoImplicit false

namespace Firey

/-! ## Interest masks -/

/-- The event bits of `events_` and `revents_`. -/
abbrev Mask := BitVec 32

def EPOLLIN : Mask := 0x001#32
def EPOLLPRI : Mask := 0x002#32
def EPOLLOUT : Mask := 0x004#32
def EPOLLERR : Mask := 0x008#32
def EPOLLHUP : Mask := 0x010#32
def EPOLLRDHUP : Mask := 0x2000#32

def kNoneEvent : Mask := 0#32
def kReadEvent : Mask := EPOLLIN
def kWriteEvent : Mask := EPOLLOUT

/-- `mask & bits` is not zero. -/
def Mask.has (m bits : Mask) : Bool := m &&& bits != 0#32

/-- The masks a channel can come to hold: no other bit is ever set. -/
def Mask.IsInterest (m : Mask) : Prop :=
  m = kNoneEvent ∨ m = kReadEvent ∨ m = kWriteEvent ∨ m = kReadEvent ||| kWriteEvent

instance (m : Mask) : Decidable m.IsInterest :=
  inferInstanceAs (Decidable (_ ∨ _ ∨ _ ∨ _))

namespace Mask.IsInterest

variable {m : Mask}

lemma or_read (h : m.IsInterest) : (m ||| kReadEvent).IsInterest := by
  rcases h with rfl | rfl | rfl | rfl <;> decide

lemma or_write (h : m.IsInterest) : (m ||| kWriteEvent).IsInterest := by
  rcases h with rfl | rfl | rfl | rfl <;> decide

lemma andNot_read (h : m.IsInterest) : (m &&& ~~~kReadEvent).IsInterest := by
  rcases h with rfl | rfl | rfl | rfl <;> decide

lemma andNot_write (h : m.IsInterest) : (m &&& ~~~kWriteEvent).IsInterest := by
  rcases h with rfl | rfl | rfl | rfl <;> decide

/-- Changing the read interest leaves the write interest alone, and conversely. -/
lemma has_write_or_read (h : m.IsInterest) :
    (m ||| kReadEvent).has kWriteEvent = m.has kWriteEvent := by
  rcases h with rfl | rfl | rfl | rfl <;> decide

lemma has_write_andNot_read (h : m.IsInterest) :
    (m &&& ~~~kReadEvent).has kWriteEvent = m.has kWriteEvent := by
  rcases h with rfl | rfl | rfl | rfl <;> decide

lemma has_read_or_read (h : m.IsInterest) : (m ||| kReadEvent).has kReadEvent = true := by
  rcases h with rfl | rfl | rfl | rfl <;> decide

lemma has_read_or_write (h : m.IsInterest) :
    (m ||| kWriteEvent).has kReadEvent = m.has kReadEvent := by
  rcases h with rfl | rfl | rfl | rfl <;> decide

lemma has_read_andNot_read (h : m.IsInterest) :
    (m &&& ~~~kReadEvent).has kReadEvent = false := by
  rcases h with rfl | rfl | rfl | rfl <;> decide

lemma has_write_or_write (h : m.IsInterest) : (m ||| kWriteEvent).has kWriteEvent = true := by
  rcases h with rfl | rfl | rfl | rfl <;> decide

lemma has_write_andNot_write (h : m.IsInterest) :
    (m &&& ~~~kWriteEvent).has kWriteEvent = false := by
  rcases h with rfl | rfl | rfl | rfl <;> decide

/-- Equality with `kWriteEvent` is not membership of the write bit: it also asks that the
read bit is off. -/
lemma eq_write_iff (h : m.IsInterest) :
    m = kWriteEvent ↔ m.has kWriteEvent = true ∧ m.has kReadEvent = false := by
  rcases h with rfl | rfl | rfl | rfl <;> decide

end Mask.IsInterest

/-! ## The channel -/

/-- `index_`: the three constants of `Pollerff`. -/
inductive PollIndex
  | kNew
  | kAdded
  | kDeleted
  deriving DecidableEq, Repr

/-- `Channelff`, with the entries kept for its descriptor. -/
structure Channel where
  events : Mask
  index : PollIndex
  addToLoop : Bool
  mapped : Bool
  registered : Option Mask
  deriving DecidableEq, Repr

/-- The request of an `epoll_ctl`. -/
inductive EpollOp
  | ADD
  | MOD
  | DEL
  deriving DecidableEq, Repr

/-- `epoll_ctl` on a descriptor's entry in the epoll set; `none` when the call fails, which
it does exactly when the request is not legal. -/
def epollCtl (op : EpollOp) (events : Mask) (entry : Option Mask) : Option (Option Mask) :=
  match op, entry with
  | .ADD, none => some (some events)
  | .MOD, some _ => some (some events)
  | .DEL, some _ => some none
  | _, _ => none

namespace Channel

/-- The constructor. -/
def ctor : Channel where
  events := kNoneEvent
  index := .kNew
  addToLoop := false
  mapped := false
  registered := none

def isNoneEvent (c : Channel) : Bool := c.events == kNoneEvent

def isReading (c : Channel) : Bool := c.events == kReadEvent

def isWriting (c : Channel) : Bool := c.events == kWriteEvent

/-! ### `Pollerff` -/

/-- `Pollerff::update`: a failed request is fatal unless it was a removal. -/
def pollerUpdate (op : EpollOp) (c : Channel) : Except Fault Channel :=
  match epollCtl op c.events c.registered with
  | some entry => .ok { c with registered := entry }
  | none => if op = .DEL then .ok c else .error .sysFatal

/-- `Pollerff::updateChannel`. -/
def updateChannel (c : Channel) : Except Fault Channel :=
  match c.index with
  | .kNew => do
      check .updateChannel (c.mapped = false)
      pollerUpdate .ADD { c with mapped := true, index := .kAdded }
  | .kDeleted => do
      check .updateChannel (c.mapped = true)
      pollerUpdate .ADD { c with index := .kAdded }
  | .kAdded => do
      check .updateChannel (c.mapped = true)
      if c.isNoneEvent then
        let c' ← pollerUpdate .DEL c
        .ok { c' with index := .kDeleted }
      else
        pollerUpdate .MOD c

/-- `Pollerff::removeChannel`. -/
def removeChannel (c : Channel) : Except Fault Channel := do
  check .removeChannel (c.mapped = true ∧ c.isNoneEvent = true ∧ c.index ≠ .kNew)
  let c' ←
    if c.index = .kAdded then pollerUpdate .DEL { c with mapped := false }
    else .ok { c with mapped := false }
  .ok { c' with index := .kNew }

/-! ### `Channelff` -/

def update (c : Channel) : Except Fault Channel :=
  updateChannel { c with addToLoop := true }

/-- The interest operations assign `events_` and call `update()`. -/
def setEvents (c : Channel) (events : Mask) : Except Fault Channel :=
  update { c with events := events }

def enableReading (c : Channel) : Except Fault Channel := c.setEvents (c.events ||| kReadEvent)

def enableWriting (c : Channel) : Except Fault Channel := c.setEvents (c.events ||| kWriteEvent)

def disableReading (c : Channel) : Except Fault Channel :=
  c.setEvents (c.events &&& ~~~kReadEvent)

def disableWriting (c : Channel) : Except Fault Channel :=
  c.setEvents (c.events &&& ~~~kWriteEvent)

def disableAll (c : Channel) : Except Fault Channel := c.setEvents kNoneEvent

def remove (c : Channel) : Except Fault Channel := do
  check .channelRemove (c.isNoneEvent = true)
  removeChannel { c with addToLoop := false }

/-! ## The bookkeeping invariant -/

/-- `index_`, `channels_` and the epoll set agree, and only the two interest bits are used. -/
structure Ok (c : Channel) : Prop where
  interest : c.events.IsInterest
  new : c.index = .kNew → c.mapped = false ∧ c.registered = none
  added : c.index = .kAdded → c.mapped = true ∧ c.registered = some c.events
  deleted : c.index = .kDeleted → c.mapped = true ∧ c.registered = none

lemma ctor_ok : ctor.Ok where
  interest := Or.inl rfl
  new := fun _ => ⟨rfl, rfl⟩
  added := fun h => nomatch h
  deleted := fun h => nomatch h

/-- **Every change of interest succeeds** and keeps the bookkeeping. -/
theorem setEvents_spec {c : Channel} (h : c.Ok) {m : Mask} (hm : m.IsInterest) :
    ∃ c', c.setEvents m = .ok c' ∧ c'.Ok ∧ c'.events = m := by
  cases hidx : c.index with
  | kNew =>
    obtain ⟨hmap, hreg⟩ := h.new hidx
    refine ⟨{ c with
      events := m, index := .kAdded, addToLoop := true, mapped := true, registered := some m },
      ?_, ⟨hm, fun h => (nomatch h), fun _ => ⟨rfl, rfl⟩, fun h => (nomatch h)⟩, rfl⟩
    simp [setEvents, update, updateChannel, hidx, hmap, hreg, check, pollerUpdate, epollCtl]
  | kDeleted =>
    obtain ⟨hmap, hreg⟩ := h.deleted hidx
    refine ⟨{ c with
      events := m, index := .kAdded, addToLoop := true, registered := some m },
      ?_, ⟨hm, fun h => (nomatch h), fun _ => ⟨hmap, rfl⟩, fun h => (nomatch h)⟩, rfl⟩
    simp [setEvents, update, updateChannel, hidx, hmap, hreg, check, pollerUpdate, epollCtl]
  | kAdded =>
    obtain ⟨hmap, hreg⟩ := h.added hidx
    by_cases hnone : m = kNoneEvent
    · refine ⟨{ c with
        events := m, index := .kDeleted, addToLoop := true, registered := none },
        ?_, ⟨hm, fun h => (nomatch h), fun h => (nomatch h), fun _ => ⟨hmap, rfl⟩⟩, rfl⟩
      simp [setEvents, update, updateChannel, hidx, hmap, hreg, check, pollerUpdate, epollCtl,
        isNoneEvent, hnone]
    · refine ⟨{ c with events := m, addToLoop := true, registered := some m },
        ?_, ⟨hm, ?_, fun _ => ⟨hmap, rfl⟩, ?_⟩, rfl⟩
      · simp [setEvents, update, updateChannel, hidx, hmap, hreg, check, pollerUpdate, epollCtl,
          isNoneEvent, hnone]
      · intro hcon
        rw [hidx] at hcon
        cases hcon
      · intro hcon
        rw [hidx] at hcon
        cases hcon

/-- `remove` asks for a channel without interest that the poller knows, and leaves it as new. -/
lemma remove_ok {c c' : Channel} (h : c.Ok) (hrem : c.remove = .ok c') :
    c'.Ok ∧ c'.events = c.events ∧ c'.events = kNoneEvent := by
  rw [remove] at hrem
  obtain ⟨_, hnone, hrem⟩ := bind_eq_ok hrem
  have hev : c.events = kNoneEvent := by
    simpa [isNoneEvent] using check_eq_ok hnone
  rw [removeChannel] at hrem
  obtain ⟨_, hcheck, hrem⟩ := bind_eq_ok hrem
  obtain ⟨-, -, hidx⟩ := check_eq_ok hcheck
  cases hi : c.index with
  | kNew => exact absurd hi hidx
  | kAdded =>
    obtain ⟨-, hreg⟩ := h.added hi
    simp only [hi, if_true, pollerUpdate, epollCtl, hreg, ok_bind] at hrem
    cases hrem
    exact ⟨⟨h.interest, fun _ => ⟨rfl, rfl⟩, fun h => (nomatch h), fun h => (nomatch h)⟩, rfl, hev⟩
  | kDeleted =>
    obtain ⟨-, hreg⟩ := h.deleted hi
    simp only [hi, reduceCtorEq, if_false, ok_bind] at hrem
    cases hrem
    exact ⟨⟨h.interest, fun _ => ⟨rfl, hreg⟩, fun h => (nomatch h), fun h => (nomatch h)⟩, rfl,
      hev⟩

/-- A removal the kernel refuses is not fatal. -/
lemma pollerUpdate_del (c : Channel) : ∃ c', pollerUpdate .DEL c = .ok c' := by
  unfold pollerUpdate
  split
  · exact ⟨_, rfl⟩
  · exact ⟨c, rfl⟩

lemma removeChannel_error {c : Channel} {e : Fault} (hrem : c.removeChannel = .error e) :
    e = .assertion .removeChannel := by
  rw [removeChannel] at hrem
  by_cases hcheck : c.mapped = true ∧ c.isNoneEvent = true ∧ c.index ≠ .kNew
  · obtain ⟨d, hd⟩ := pollerUpdate_del { c with mapped := false }
    rw [check_true hcheck, ok_bind, hd] at hrem
    split at hrem <;> cases hrem
  · rw [check_false hcheck] at hrem
    cases hrem
    rfl

lemma remove_error {c : Channel} {e : Fault} (hrem : c.remove = .error e) :
    e = .assertion .channelRemove ∨ e = .assertion .removeChannel := by
  rw [remove] at hrem
  by_cases hnone : c.isNoneEvent = true
  · rw [check_true hnone, ok_bind] at hrem
    exact Or.inr (removeChannel_error hrem)
  · rw [check_false hnone] at hrem
    cases hrem
    exact Or.inl rfl

/-- `isWriting()` compares the whole mask: it misses the write interest of a channel that is
also reading. -/
lemma isWriting_iff {c : Channel} (h : c.Ok) :
    c.isWriting = true ↔
      c.events.has kWriteEvent = true ∧ c.events.has kReadEvent = false := by
  rw [isWriting, beq_iff_eq]
  exact h.interest.eq_write_iff

end Channel

end Firey
