import Mathlib.Logic.Function.Basic
import Firey.Framework.Machine
import Firey.Net.Channel

/-!
# `Pollerff` with all the channels of a loop

`Firey.Net.Channel` keeps what the poller and the kernel know about a descriptor in the channel
itself.  Here the records are shared, as in the source: the map `channels_` and the kernel's
epoll set, both keyed by descriptor, next to any number of `Channelff` objects.  Objects are
named by pointers `ι`, and every request made of `epoll_ctl` is noted down with whether it was
legal.

`Filed` says where an object stands in the three records, `setEvents_filed` and `remove_filed`
are what one call does to it, and `Touches` is the frame: a call on one object leaves the
entries of every other descriptor alone.  `setEvents_view` is the connection with the model of
a single channel.
-/

set_option autoImplicit false

namespace Firey

/-- A file descriptor. -/
abbrev Fd := ℤ

/-- A `Channelff` object. -/
structure ChannelObject where
  fd : Fd
  events : Mask
  index : PollIndex
  addToLoop : Bool
  deriving DecidableEq, Repr

/-- A request of `epoll_ctl`. -/
structure EpollRequest where
  op : EpollOp
  fd : Fd
  legal : Bool
  deriving DecidableEq, Repr

/-- `channels` is `channels_`, `epollSet` what the kernel has registered. -/
structure Poller (ι : Type) where
  object : ι → ChannelObject
  channels : Fd → Option ι
  epollSet : Fd → Option Mask
  requests : List EpollRequest

/-- What is called on a channel. -/
inductive PollerInput (ι : Type)
  | enableReading (p : ι)
  | enableWriting (p : ι)
  | disableReading (p : ι)
  | disableWriting (p : ι)
  | disableAll (p : ι)
  | remove (p : ι)
  deriving DecidableEq, Repr

namespace Poller

variable {ι : Type} [DecidableEq ι]

/-- A poller without entries, and the objects that were constructed for it. -/
def start (fd : ι → Fd) : Poller ι where
  object := fun p => { fd := fd p, events := kNoneEvent, index := .kNew, addToLoop := false }
  channels := fun _ => none
  epollSet := fun _ => none
  requests := []

/-! ## `Pollerff` -/

def setObject (s : Poller ι) (p : ι) (c : ChannelObject) : Poller ι :=
  { s with object := Function.update s.object p c }

/-- `Channelff::setIndex`. -/
def setIndex (s : Poller ι) (p : ι) (idx : PollIndex) : Poller ι :=
  s.setObject p { s.object p with index := idx }

/-- `Channelff::isNoneEvent`. -/
def isNoneEvent (s : Poller ι) (p : ι) : Bool := (s.object p).events == kNoneEvent

/-- `Pollerff::update`: a failed request is fatal unless it was a removal. -/
def update (s : Poller ι) (op : EpollOp) (p : ι) : Except Fault (Poller ι) :=
  let fd := (s.object p).fd
  match epollCtl op (s.object p).events (s.epollSet fd) with
  | some entry =>
      .ok { s with
        epollSet := Function.update s.epollSet fd entry
        requests := s.requests ++ [{ op := op, fd := fd, legal := true }] }
  | none =>
      if op = .DEL then
        .ok { s with requests := s.requests ++ [{ op := op, fd := fd, legal := false }] }
      else .error .sysFatal

/-- `Pollerff::updateChannel`. -/
def updateChannel (s : Poller ι) (p : ι) : Except Fault (Poller ι) :=
  let fd := (s.object p).fd
  match (s.object p).index with
  | .kNew => do
      check .updateChannel (s.channels fd = none)
      let s' := { s with channels := Function.update s.channels fd (some p) }
      (s'.setIndex p .kAdded).update .ADD p
  | .kDeleted => do
      check .updateChannel (s.channels fd = some p)
      (s.setIndex p .kAdded).update .ADD p
  | .kAdded => do
      check .updateChannel (s.channels fd = some p)
      if s.isNoneEvent p then
        let s' ← s.update .DEL p
        .ok (s'.setIndex p .kDeleted)
      else
        s.update .MOD p

/-- `Pollerff::removeChannel`. -/
def removeChannel (s : Poller ι) (p : ι) : Except Fault (Poller ι) := do
  let fd := (s.object p).fd
  let idx := (s.object p).index
  check .removeChannel (s.channels fd = some p)
  check .removeChannel (s.isNoneEvent p = true)
  check .removeChannel (idx = .kAdded ∨ idx = .kDeleted)
  let s' := { s with channels := Function.update s.channels fd none }
  let s' ← if idx = .kAdded then s'.update .DEL p else .ok s'
  .ok (s'.setIndex p .kNew)

/-! ## `Channelff` -/

/-- `Channelff::update`. -/
def channelUpdate (s : Poller ι) (p : ι) : Except Fault (Poller ι) :=
  (s.setObject p { s.object p with addToLoop := true }).updateChannel p

/-- The interest operations assign `events_` and call `update()`. -/
def setEvents (s : Poller ι) (p : ι) (events : Mask) : Except Fault (Poller ι) :=
  (s.setObject p { s.object p with events := events }).channelUpdate p

def enableReading (s : Poller ι) (p : ι) : Except Fault (Poller ι) :=
  s.setEvents p ((s.object p).events ||| kReadEvent)

def enableWriting (s : Poller ι) (p : ι) : Except Fault (Poller ι) :=
  s.setEvents p ((s.object p).events ||| kWriteEvent)

def disableReading (s : Poller ι) (p : ι) : Except Fault (Poller ι) :=
  s.setEvents p ((s.object p).events &&& ~~~kReadEvent)

def disableWriting (s : Poller ι) (p : ι) : Except Fault (Poller ι) :=
  s.setEvents p ((s.object p).events &&& ~~~kWriteEvent)

def disableAll (s : Poller ι) (p : ι) : Except Fault (Poller ι) := s.setEvents p kNoneEvent

def remove (s : Poller ι) (p : ι) : Except Fault (Poller ι) := do
  check .channelRemove (s.isNoneEvent p = true)
  (s.setObject p { s.object p with addToLoop := false }).removeChannel p

def step (s : Poller ι) : PollerInput ι → Except Fault (Poller ι)
  | .enableReading p => s.enableReading p
  | .enableWriting p => s.enableWriting p
  | .disableReading p => s.disableReading p
  | .disableWriting p => s.disableWriting p
  | .disableAll p => s.disableAll p
  | .remove p => s.remove p

def machine : Machine (Poller ι) (PollerInput ι) Fault := ⟨step⟩

/-! ## Where an object is filed -/

/-- Where an object stands in `channels_` and in the epoll set, by its `index_`. -/
def Filed (s : Poller ι) (p : ι) : Prop :=
  match (s.object p).index with
  | .kNew =>
      s.channels (s.object p).fd = none ∧ s.epollSet (s.object p).fd = none ∧
        (s.object p).addToLoop = false
  | .kAdded =>
      s.channels (s.object p).fd = some p ∧
        s.epollSet (s.object p).fd = some (s.object p).events ∧ (s.object p).addToLoop = true
  | .kDeleted =>
      s.channels (s.object p).fd = some p ∧ s.epollSet (s.object p).fd = none ∧
        (s.object p).addToLoop = true

/-- What a call on `p` may change: the object, and the entries of its descriptor. -/
structure Touches (s t : Poller ι) (p : ι) : Prop where
  fd : (t.object p).fd = (s.object p).fd
  object : ∀ q, q ≠ p → t.object q = s.object q
  channels : ∀ f, f ≠ (s.object p).fd → t.channels f = s.channels f
  epollSet : ∀ f, f ≠ (s.object p).fd → t.epollSet f = s.epollSet f

/-- The objects have distinct descriptors. -/
def Distinct (s : Poller ι) : Prop := ∀ p q, (s.object p).fd = (s.object q).fd → p = q

namespace Touches

omit [DecidableEq ι]

variable {s t : Poller ι} {p : ι}

lemma fd_eq (h : Touches s t p) (q : ι) : (t.object q).fd = (s.object q).fd := by
  by_cases hq : q = p
  · rw [hq, h.fd]
  · rw [h.object q hq]

lemma distinct (h : Touches s t p) (hs : s.Distinct) : t.Distinct := by
  intro q r hqr
  rw [h.fd_eq, h.fd_eq] at hqr
  exact hs q r hqr

lemma filed (h : Touches s t p) (hs : s.Distinct) {q : ι} (hq : q ≠ p) (hfiled : s.Filed q) :
    t.Filed q := by
  have hne : (s.object q).fd ≠ (s.object p).fd := fun heq => hq (hs q p heq)
  unfold Filed
  rw [h.object q hq, h.channels _ hne, h.epollSet _ hne]
  exact hfiled

end Touches

/-! ## What a call does -/

/-- A call on `p` came to an end: it stayed with the records of `p`, these still agree, and
the requests it made were legal. -/
structure Handled (s t : Poller ι) (p : ι) : Prop where
  touches : Touches s t p
  filed : t.Filed p
  legal : ∀ r ∈ t.requests, r ∈ s.requests ∨ r.legal = true

/-- Write all the records of one object, after the requests `ops`. -/
def record (s : Poller ι) (p : ι) (c : ChannelObject) (entry : Option ι) (mask : Option Mask)
    (ops : List EpollOp) : Poller ι where
  object := Function.update s.object p c
  channels := Function.update s.channels c.fd entry
  epollSet := Function.update s.epollSet c.fd mask
  requests := s.requests ++ ops.map fun op => { op := op, fd := c.fd, legal := true }

lemma record_handled {s : Poller ι} {p : ι} {c : ChannelObject} {entry : Option ι}
    {mask : Option Mask} {ops : List EpollOp} (hfd : c.fd = (s.object p).fd)
    (hnew : c.index = .kNew → entry = none ∧ mask = none ∧ c.addToLoop = false)
    (hadded : c.index = .kAdded →
      entry = some p ∧ mask = some c.events ∧ c.addToLoop = true)
    (hdeleted : c.index = .kDeleted → entry = some p ∧ mask = none ∧ c.addToLoop = true) :
    Handled s (s.record p c entry mask ops) p := by
  refine ⟨⟨?_, ?_, ?_, ?_⟩, ?_, ?_⟩
  · simp [record, hfd]
  · intro q hq
    exact Function.update_of_ne hq _ _
  · intro f hf
    exact Function.update_of_ne (hfd ▸ hf) _ _
  · intro f hf
    exact Function.update_of_ne (hfd ▸ hf) _ _
  · unfold Filed
    simp only [record, Function.update_self]
    cases hidx : c.index with
    | kNew => exact hnew hidx
    | kAdded => exact hadded hidx
    | kDeleted => exact hdeleted hidx
  · intro r hr
    simp only [record, List.mem_append, List.mem_map] at hr
    rcases hr with hr | ⟨op, -, rfl⟩
    · exact Or.inl hr
    · exact Or.inr rfl

/-- The records of one object, as the model of a single channel keeps them. -/
def view (s : Poller ι) (p : ι) : Channel where
  events := (s.object p).events
  index := (s.object p).index
  addToLoop := (s.object p).addToLoop
  mapped := s.channels (s.object p).fd == some p
  registered := s.epollSet (s.object p).fd

lemma record_view {s : Poller ι} {p : ι} {c : ChannelObject} {entry : Option ι}
    {mask : Option Mask} {ops : List EpollOp} :
    (s.record p c entry mask ops).view p =
      { events := c.events, index := c.index, addToLoop := c.addToLoop,
        mapped := entry == some p, registered := mask } := by
  simp [view, record]

/-- **Every change of interest succeeds**, whatever the state of the object, and does to its
records what the model of a single channel says. -/
theorem setEvents_filed {s : Poller ι} {p : ι} (h : s.Filed p) (m : Mask) :
    ∃ t, s.setEvents p m = .ok t ∧ Handled s t p ∧
      (s.view p).setEvents m = .ok (t.view p) := by
  unfold Filed at h
  let c : ChannelObject := { s.object p with events := m, addToLoop := true }
  cases hidx : (s.object p).index with
  | kNew | kDeleted =>
    -- `updateChannel` adds both; only the first is not in the map
    simp only [hidx] at h
    obtain ⟨hmap, hreg, hloop⟩ := h
    refine ⟨s.record p { c with index := .kAdded } (some p) (some m) [.ADD], ?_, ?_, ?_⟩
    · simp [setEvents, channelUpdate, updateChannel, update, setIndex, setObject, record, c,
        hidx, hmap, hreg, check, epollCtl]
    · exact record_handled rfl (fun h => by cases h) (fun _ => ⟨rfl, rfl, rfl⟩)
        (fun h => by cases h)
    · rw [record_view]
      simp [view, c, Channel.setEvents, Channel.update, Channel.updateChannel,
        Channel.pollerUpdate, hidx, hmap, hreg, check, epollCtl]
  | kAdded =>
    simp only [hidx] at h
    obtain ⟨hmap, hreg, hloop⟩ := h
    by_cases hnone : m = kNoneEvent
    · refine ⟨s.record p { c with index := .kDeleted } (some p) none [.DEL], ?_, ?_, ?_⟩
      · simp [setEvents, channelUpdate, updateChannel, update, setIndex, setObject, record, c,
          isNoneEvent, hidx, hmap, hreg, hnone, check, epollCtl]
      · exact record_handled rfl (fun h => by cases h) (fun h => by cases h)
          (fun _ => ⟨rfl, rfl, rfl⟩)
      · rw [record_view]
        simp [view, c, Channel.setEvents, Channel.update, Channel.updateChannel,
          Channel.pollerUpdate, Channel.isNoneEvent, hidx, hmap, hreg, hnone, check, epollCtl]
    · refine ⟨s.record p { c with index := .kAdded } (some p) (some m) [.MOD], ?_, ?_, ?_⟩
      · simp [setEvents, channelUpdate, updateChannel, update, setObject, record, c,
          isNoneEvent, hidx, hmap, hreg, hnone, check, epollCtl]
      · exact record_handled rfl (fun h => by cases h) (fun _ => ⟨rfl, rfl, rfl⟩)
          (fun h => by cases h)
      · rw [record_view]
        simp [view, c, Channel.setEvents, Channel.update, Channel.updateChannel,
          Channel.pollerUpdate, Channel.isNoneEvent, hidx, hmap, hreg, hnone, check, epollCtl]

/-- An object is removed only without interest, and while the poller has it. -/
def Removable (s : Poller ι) (p : ι) : Prop :=
  s.isNoneEvent p = true ∧ s.channels (s.object p).fd = some p

/-- **A removal succeeds** on every object it may be called on. -/
theorem remove_filed {s : Poller ι} {p : ι} (h : s.Filed p) (hrem : s.Removable p) :
    ∃ t, s.remove p = .ok t ∧ Handled s t p ∧ (s.view p).remove = .ok (t.view p) := by
  unfold Filed at h
  obtain ⟨hnone, hhas⟩ := hrem
  have hev : (s.object p).events = kNoneEvent := by simpa [isNoneEvent] using hnone
  let c : ChannelObject := { s.object p with index := .kNew, addToLoop := false }
  cases hidx : (s.object p).index with
  | kNew =>
    simp only [hidx, hhas] at h
    exact absurd h.1 (by simp)
  | kAdded =>
    simp only [hidx] at h
    obtain ⟨hmap, hreg, hloop⟩ := h
    refine ⟨s.record p c none none [.DEL], ?_, ?_, ?_⟩
    · simp [remove, removeChannel, update, setIndex, setObject, record, c, isNoneEvent, hidx,
        hmap, hreg, hev, check, epollCtl]
    · exact record_handled rfl (fun _ => ⟨rfl, rfl, rfl⟩) (fun h => by cases h)
        (fun h => by cases h)
    · rw [record_view]
      simp [view, c, Channel.remove, Channel.removeChannel, Channel.pollerUpdate,
        Channel.isNoneEvent, hidx, hmap, hreg, hev, check, epollCtl]
  | kDeleted =>
    simp only [hidx] at h
    obtain ⟨hmap, hreg, hloop⟩ := h
    refine ⟨s.record p c none none [], ?_, ?_, ?_⟩
    · simp [remove, removeChannel, setIndex, setObject, record, c, isNoneEvent, hidx,
        hmap, hreg, hev, check]
    · exact record_handled rfl (fun _ => ⟨rfl, rfl, rfl⟩) (fun h => by cases h)
        (fun h => by cases h)
    · rw [record_view]
      simp [view, c, Channel.remove, Channel.removeChannel, Channel.isNoneEvent,
        hidx, hmap, hreg, hev, check]

/-! ## Runs -/

/-- Every object is filed, under a descriptor of its own, and no request was illegal. -/
structure Inv (s : Poller ι) : Prop where
  distinct : s.Distinct
  filed : ∀ p, s.Filed p
  legal : ∀ r ∈ s.requests, r.legal = true

omit [DecidableEq ι] in
lemma start_inv {fd : ι → Fd} (hfd : Function.Injective fd) : (start fd).Inv where
  distinct := fun _ _ h => hfd h
  filed := fun _ => ⟨rfl, rfl, rfl⟩
  legal := fun _ h => nomatch h

lemma Handled.inv {s t : Poller ι} {p : ι} (h : Handled s t p) (hs : s.Inv) : t.Inv where
  distinct := h.touches.distinct hs.distinct
  filed := by
    intro q
    by_cases hq : q = p
    · exact hq ▸ h.filed
    · exact h.touches.filed hs.distinct hq (hs.filed q)
  legal := by
    intro r hr
    rcases h.legal r hr with hold | hnew
    · exact hs.legal r hold
    · exact hnew

/-- The calls that may be made: `remove` asks for an object without interest that the poller
has. -/
def Callable (s : Poller ι) : PollerInput ι → Prop
  | .remove p => s.Removable p
  | _ => True

instance (s : Poller ι) (p : ι) : Decidable (s.Removable p) :=
  inferInstanceAs (Decidable (_ ∧ _))

instance (s : Poller ι) (i : PollerInput ι) : Decidable (s.Callable i) :=
  match i with
  | .remove p => inferInstanceAs (Decidable (s.Removable p))
  | .enableReading _ => .isTrue trivial
  | .enableWriting _ => .isTrue trivial
  | .disableReading _ => .isTrue trivial
  | .disableWriting _ => .isTrue trivial
  | .disableAll _ => .isTrue trivial

/-- One call. -/
lemma step_inv {s : Poller ι} (hs : s.Inv) {i : PollerInput ι} (hi : s.Callable i) :
    ∃ t, s.step i = .ok t ∧ t.Inv := by
  have hset : ∀ p m, ∃ t, s.setEvents p m = .ok t ∧ t.Inv := by
    intro p m
    obtain ⟨t, ht, hh, -⟩ := setEvents_filed (hs.filed p) m
    exact ⟨t, ht, hh.inv hs⟩
  cases i with
  | enableReading p => exact hset p _
  | enableWriting p => exact hset p _
  | disableReading p => exact hset p _
  | disableWriting p => exact hset p _
  | disableAll p => exact hset p _
  | remove p =>
    obtain ⟨t, ht, hh, -⟩ := remove_filed (hs.filed p) hi
    exact ⟨t, ht, hh.inv hs⟩

/-- The three records of the process agree with each other and with the kernel's. -/
structure Agrees (s : Poller ι) (p : ι) : Prop where
  new_iff : (s.object p).index = .kNew ↔ s.channels (s.object p).fd = none
  added_to_loop : (s.object p).addToLoop = false ↔ s.channels (s.object p).fd = none
  added_iff : (s.object p).index = .kAdded ↔ (s.epollSet (s.object p).fd).isSome = true
  deleted_iff : (s.object p).index = .kDeleted ↔
    s.channels (s.object p).fd ≠ none ∧ s.epollSet (s.object p).fd = none
  mask : ∀ m, s.epollSet (s.object p).fd = some m → m = (s.object p).events

omit [DecidableEq ι] in
lemma Filed.agrees {s : Poller ι} {p : ι} (h : s.Filed p) : s.Agrees p := by
  unfold Filed at h
  cases hidx : (s.object p).index with
  | kNew =>
    simp only [hidx] at h
    obtain ⟨hmap, hreg, hloop⟩ := h
    constructor <;> simp [hidx, hmap, hreg, hloop]
  | kAdded =>
    simp only [hidx] at h
    obtain ⟨hmap, hreg, hloop⟩ := h
    constructor <;> simp [hidx, hmap, hreg, hloop]
  | kDeleted =>
    simp only [hidx] at h
    obtain ⟨hmap, hreg, hloop⟩ := h
    constructor <;> simp [hidx, hmap, hreg, hloop]

/-- The bookkeeping asked for: the records agree, no request was illegal, and nothing fails. -/
def Bookkeeping : RunSpec (Poller ι) Fault where
  good := fun s => (∀ p, s.Agrees p) ∧ ∀ r ∈ s.requests, r.legal = true
  move := fun _ _ => True
  stop := fun _ => False

/-- **The bookkeeping of the poller agrees with the kernel** over every sequence of calls on
any objects with distinct descriptors. -/
theorem run_bookkeeping {fd : ι → Fd} (hfd : Function.Injective fd) (is : List (PollerInput ι))
    (hcall : machine.Along Callable (start fd) is) :
    machine.Meets Bookkeeping (start fd) is := by
  refine Machine.meets_of_sound machine (I := Inv) ?_ ?_ (start_inv hfd) hcall
  · intro s hs
    exact ⟨fun p => (hs.filed p).agrees, hs.legal⟩
  · intro s i hs hi
    change Bookkeeping.Sound _ s (s.step i)
    obtain ⟨t, ht, hinv⟩ := step_inv hs hi
    rw [ht]
    exact ⟨hinv, trivial⟩

/-- Two channels: one loses its interest twice before it is asked to write again, the other
is removed. -/
theorem run_bookkeeping_two :
    machine.Meets Bookkeeping (start fun b : Bool => if b then 3 else 4)
      [.enableReading true, .enableWriting false, .disableAll true, .disableAll true,
        .enableWriting true, .disableWriting false, .remove false, .enableReading false] :=
  run_bookkeeping (by rintro (_ | _) (_ | _) h <;> simp_all) _ (by decide +kernel)

end Poller

end Firey
