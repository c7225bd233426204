import Firey.Net.Output
import Firey.Net.Poller

/-!
# A channel without interest should not be registered

`Pollerff::updateChannel` takes a descriptor out of the epoll set when the last interest of its
channel goes.  It looks at the mask on one of its branches only: a channel that is new, or was
taken out before, is added whatever it asks for.  A disable that finds no interest therefore
registers the descriptor with the mask 0, and `epoll_wait` reports `EPOLLERR` and `EPOLLHUP` for
it, which need not be asked for.

Every other call keeps the registration exact (`run_registered_iff`).  `handleClose` calls
`disableAll`, so a connection that had stopped reading comes back from it registered
(`handleClose_registered_iff`).
-/

set_option autoImplicit false

namespace Firey

/-! ## One channel -/

lemma or_ne_kNoneEvent {m bit : Mask} (h : bit ≠ kNoneEvent) : m ||| bit ≠ kNoneEvent := by
  intro hor
  exact h (BitVec.or_eq_zero_iff.mp hor).2

namespace Channel

/-- A request of the kernel changes its own entry only. -/
lemma pollerUpdate_frame {op : EpollOp} {c c' : Channel} (h : pollerUpdate op c = .ok c') :
    c'.events = c.events ∧ c'.index = c.index := by
  unfold pollerUpdate at h
  split at h
  · cases h
    exact ⟨rfl, rfl⟩
  · split at h
    · cases h
      exact ⟨rfl, rfl⟩
    · cases h

/-- What `updateChannel` leaves in the epoll set: everything but a registered channel that has
lost its interest. -/
lemma setEvents_index {c c' : Channel} {m : Mask} (h : c.setEvents m = .ok c') :
    c'.events = m ∧ (c'.index = .kAdded ↔ c.index ≠ .kAdded ∨ m ≠ kNoneEvent) := by
  unfold setEvents update updateChannel at h
  cases hidx : c.index with
  | kNew =>
    simp only [hidx] at h
    obtain ⟨_, -, h⟩ := bind_eq_ok h
    obtain ⟨hev, hind⟩ := pollerUpdate_frame h
    exact ⟨hev, by simp [hind]⟩
  | kDeleted =>
    simp only [hidx] at h
    obtain ⟨_, -, h⟩ := bind_eq_ok h
    obtain ⟨hev, hind⟩ := pollerUpdate_frame h
    exact ⟨hev, by simp [hind]⟩
  | kAdded =>
    simp only [hidx] at h
    obtain ⟨_, -, h⟩ := bind_eq_ok h
    by_cases hnone : m = kNoneEvent
    · rw [if_pos (by simp [isNoneEvent, hnone])] at h
      obtain ⟨d, hd, h⟩ := bind_eq_ok h
      obtain ⟨hev, -⟩ := pollerUpdate_frame hd
      cases h
      exact ⟨hev, by simp [hnone]⟩
    · rw [if_neg (by simp [isNoneEvent, hnone])] at h
      obtain ⟨hev, hind⟩ := pollerUpdate_frame h
      exact ⟨hev, by simp [hind, hnone]⟩

lemma remove_index {c c' : Channel} (h : c.remove = .ok c') :
    c'.events = kNoneEvent ∧ c'.index = .kNew := by
  unfold remove removeChannel at h
  obtain ⟨_, hnone, h⟩ := bind_eq_ok h
  have hev : c.events = kNoneEvent := by simpa [isNoneEvent] using check_eq_ok hnone
  obtain ⟨_, -, h⟩ := bind_eq_ok h
  dsimp only at h
  split at h
  · obtain ⟨d, hd, h⟩ := bind_eq_ok h
    cases h
    exact ⟨(pollerUpdate_frame hd).1.trans hev, rfl⟩
  · rw [ok_bind] at h
    cases h
    exact ⟨hev, rfl⟩

lemma Ok.registered_iff {c : Channel} (h : c.Ok) :
    c.registered.isSome = true ↔ c.index = .kAdded := by
  cases hidx : c.index with
  | kNew => simp [(h.new hidx).2]
  | kAdded => simp [(h.added hidx).2]
  | kDeleted => simp [(h.deleted hidx).2]

end Channel

namespace TcpConnection

/-- **A connection that is closed leaves the epoll set** exactly when its descriptor was
registered: one that had stopped reading comes back registered, with no interest. -/
theorem handleClose_registered_iff {c : TcpConnection} (h : c.Inv) (hopen : c.isOpen = true) :
    ∃ r, c.handleClose = .ok r ∧ r.1.connChannel.events = kNoneEvent ∧
      (r.1.connChannel.registered = none ↔ c.connChannel.registered.isSome = true) ∧
      (c.connChannel.registered = none → r.1.connChannel.registered = some kNoneEvent) := by
  obtain ⟨ch, hdis, hok, hev⟩ := Channel.setEvents_spec h.channel_ok (Or.inl rfl)
  have hidx := (Channel.setEvents_index hdis).2
  have hiff : ch.registered = none ↔ c.connChannel.registered.isSome = true := by
    rw [h.channel_ok.registered_iff, ← Option.not_isSome_iff_eq_none, hok.registered_iff, hidx]
    simp
  refine ⟨({ c with state := .kDisconnected, connChannel := ch },
    [.callback .down, .closeCallback]), ?_, hev, hiff, ?_⟩
  · rw [handleClose, check_true hopen, ok_bind, Channel.disableAll, hdis, ok_bind]
  · intro hnone
    have hadded : ch.index = .kAdded := by
      rw [← hok.registered_iff, ← Option.ne_none_iff_isSome, ne_eq, hiff, hnone]
      decide
    exact (hok.added hadded).2.trans (congrArg some hev)

end TcpConnection

/-! ## All the channels of a loop -/

namespace Poller

variable {ι : Type}

/-- What `epoll_wait` reports for a channel when its file is in the condition `ready`. -/
def reports (s : Poller ι) (p : ι) (ready : Mask) : Mask :=
  match s.epollSet (s.object p).fd with
  | some mask => ready &&& (mask ||| EPOLLERR ||| EPOLLHUP)
  | none => 0

/-- The descriptor is registered exactly when the channel asks for something, and a channel
that asks for nothing is told nothing. -/
structure Exact (s : Poller ι) (p : ι) : Prop where
  registered : (s.epollSet (s.object p).fd).isSome = true ↔ (s.object p).events ≠ kNoneEvent
  silent : (s.object p).events = kNoneEvent → ∀ ready, s.reports p ready = 0

/-- What is asked of a run.  It may end in `remove`, which asserts that it is called on a
channel without interest the poller has. -/
def Registration : RunSpec (Poller ι) Fault where
  good := fun s => ∀ p, s.Exact p
  move := fun _ _ => True
  stop := fun e => e = .assertion .channelRemove ∨ e = .assertion .removeChannel

/-- A disable finds an interest. -/
def DisablesInterest (s : Poller ι) : PollerInput ι → Prop
  | .disableReading p => (s.object p).events ≠ kNoneEvent
  | .disableWriting p => (s.object p).events ≠ kNoneEvent
  | .disableAll p => (s.object p).events ≠ kNoneEvent
  | _ => True

instance (s : Poller ι) (i : PollerInput ι) : Decidable (s.DisablesInterest i) :=
  match i with
  | .disableReading p => inferInstanceAs (Decidable ((s.object p).events ≠ kNoneEvent))
  | .disableWriting p => inferInstanceAs (Decidable ((s.object p).events ≠ kNoneEvent))
  | .disableAll p => inferInstanceAs (Decidable ((s.object p).events ≠ kNoneEvent))
  | .enableReading _ => .isTrue trivial
  | .enableWriting _ => .isTrue trivial
  | .remove _ => .isTrue trivial

lemma exact_of_registered {s : Poller ι} {p : ι}
    (h : (s.epollSet (s.object p).fd).isSome = true ↔ (s.object p).events ≠ kNoneEvent) :
    s.Exact p := by
  refine ⟨h, ?_⟩
  intro hev ready
  have hnone : s.epollSet (s.object p).fd = none := by
    rwa [← Option.not_isSome_iff_eq_none, h, not_not]
  rw [reports, hnone]

variable [DecidableEq ι]

/-- What a change of interest makes of an exact registration: it stays exact unless there was
no interest before and is none now. -/
lemma setEvents_exact {s : Poller ι} (hs : s.Inv) {p : ι} (hp : s.Exact p) (m : Mask) :
    ∃ t, s.setEvents p m = .ok t ∧ Handled s t p ∧
      (t.Exact p ↔ ¬ ((s.object p).events = kNoneEvent ∧ m = kNoneEvent)) := by
  obtain ⟨t, ht, hh, hview⟩ := setEvents_filed (hs.filed p) m
  refine ⟨t, ht, hh, ?_⟩
  obtain ⟨hev, hidx⟩ := Channel.setEvents_index hview
  have hev' : (t.object p).events = m := hev
  have hbefore : (s.object p).index = .kAdded ↔ (s.object p).events ≠ kNoneEvent := by
    rw [(hs.filed p).agrees.added_iff, hp.registered]
  have hafter : (t.epollSet (t.object p).fd).isSome = true ↔
      (s.object p).events = kNoneEvent ∨ m ≠ kNoneEvent := by
    rw [← hh.filed.agrees.added_iff]
    exact hidx.trans (or_congr_left (not_iff_comm.mpr hbefore.symm))
  constructor
  · rintro hexact ⟨hold, hnew⟩
    have hreg := hexact.registered.mp (hafter.mpr (Or.inl hold))
    exact hreg (hev'.trans hnew)
  · intro hsome
    refine exact_of_registered ?_
    rw [hafter, hev']
    constructor
    · rintro (hold | hnew)
      · exact fun hm => hsome ⟨hold, hm⟩
      · exact hnew
    · exact Or.inr

omit [DecidableEq ι] in
/-- A call on one object leaves the registration of the others as it was. -/
lemma Handled.exact_of_ne {s t : Poller ι} {p q : ι} (h : Handled s t p) (hs : s.Distinct)
    (hq : q ≠ p) (hexact : s.Exact q) : t.Exact q := by
  have hne : (s.object q).fd ≠ (s.object p).fd := fun heq => hq (hs q p heq)
  refine exact_of_registered ?_
  rw [h.touches.object q hq, h.touches.epollSet _ hne]
  exact hexact.registered

/-- One change of interest, from a state in which every registration is exact. -/
lemma setEvents_step {s : Poller ι} (hs : s.Inv) (hexact : ∀ q, s.Exact q) (p : ι) (m : Mask) :
    ∃ t, s.setEvents p m = .ok t ∧ t.Inv ∧
      ((∀ q, t.Exact q) ↔ ¬ ((s.object p).events = kNoneEvent ∧ m = kNoneEvent)) := by
  obtain ⟨t, ht, hh, hiff⟩ := setEvents_exact hs (hexact p) m
  refine ⟨t, ht, hh.inv hs, ?_⟩
  rw [← hiff]
  constructor
  · exact fun hall => hall p
  · intro hp q
    by_cases hq : q = p
    · exact hq ▸ hp
    · exact hh.exact_of_ne hs.distinct hq (hexact q)

/-- A removal that goes through leaves the channel new, and no other entry changes. -/
lemma remove_step {s t : Poller ι} (hs : s.Inv) (hexact : ∀ q, s.Exact q) {p : ι}
    (hstep : s.remove p = .ok t) : t.Inv ∧ ∀ q, t.Exact q := by
  have hrem : s.Removable p := by
    unfold remove removeChannel at hstep
    obtain ⟨_, hnone, hstep⟩ := bind_eq_ok hstep
    obtain ⟨_, hhas, -⟩ := bind_eq_ok hstep
    exact ⟨check_eq_ok hnone, by simpa [setObject] using check_eq_ok hhas⟩
  obtain ⟨u, hu, hh, hview⟩ := remove_filed (hs.filed p) hrem
  cases hu.symm.trans hstep
  refine ⟨hh.inv hs, ?_⟩
  intro q
  by_cases hq : q = p
  · rw [hq]
    obtain ⟨hev, hidx⟩ := Channel.remove_index hview
    simp only [view] at hev hidx
    refine exact_of_registered ?_
    rw [← hh.filed.agrees.added_iff, hidx, hev]
    decide
  · exact hh.exact_of_ne hs.distinct hq (hexact q)

lemma remove_error {s : Poller ι} (hs : s.Inv) {p : ι} {e : Fault} (h : s.remove p = .error e) :
    e = .assertion .channelRemove ∨ e = .assertion .removeChannel := by
  by_cases hnone : s.isNoneEvent p = true
  · by_cases hhas : s.channels (s.object p).fd = some p
    · obtain ⟨t, ht, -⟩ := remove_filed (hs.filed p) ⟨hnone, hhas⟩
      cases ht.symm.trans h
    · rw [remove, check_true hnone, ok_bind, removeChannel, check_false (by simpa [setObject])] at h
      cases h
      exact Or.inr rfl
  · rw [remove, check_false hnone] at h
    cases h
    exact Or.inl rfl

/-- One call, from a state in which every registration is exact: it goes through unless it is a
removal, and the registrations stay exact when a disable finds an interest, and only then. -/
lemma step_exact {s : Poller ι} (hs : s.Inv) (hexact : ∀ q, s.Exact q) (i : PollerInput ι) :
    (∃ t, s.step i = .ok t ∧ t.Inv ∧ ((∀ q, t.Exact q) ↔ s.DisablesInterest i)) ∨
      ∃ e, s.step i = .error e ∧ (Registration (ι := ι)).stop e ∧ s.DisablesInterest i := by
  -- an enable leaves an interest, so it never registers a channel without one
  have henable : ∀ (p : ι) (bit : Mask), bit ≠ kNoneEvent →
      ∃ t, s.setEvents p ((s.object p).events ||| bit) = .ok t ∧ t.Inv ∧
        ((∀ q, t.Exact q) ↔ True) := by
    intro p bit hbit
    obtain ⟨t, ht, hinv, hiff⟩ := setEvents_step hs hexact p ((s.object p).events ||| bit)
    exact ⟨t, ht, hinv, hiff.trans (iff_true_intro fun h => or_ne_kNoneEvent hbit h.2)⟩
  -- a disable of nothing asks for nothing
  have hdisable : ∀ (p : ι) (m : Mask), ((s.object p).events = kNoneEvent → m = kNoneEvent) →
      ∃ t, s.setEvents p m = .ok t ∧ t.Inv ∧
        ((∀ q, t.Exact q) ↔ (s.object p).events ≠ kNoneEvent) := by
    intro p m hm
    obtain ⟨t, ht, hinv, hiff⟩ := setEvents_step hs hexact p m
    exact ⟨t, ht, hinv, hiff.trans (not_congr (and_iff_left_of_imp hm))⟩
  cases i with
  | enableReading p => exact Or.inl (henable p kReadEvent (by decide))
  | enableWriting p => exact Or.inl (henable p kWriteEvent (by decide))
  | disableReading p => exact Or.inl (hdisable p _ (fun h => by rw [h]; decide))
  | disableWriting p => exact Or.inl (hdisable p _ (fun h => by rw [h]; decide))
  | disableAll p => exact Or.inl (hdisable p kNoneEvent (fun _ => rfl))
  | remove p =>
    cases hstep : s.remove p with
    | error e => exact Or.inr ⟨e, hstep, remove_error hs hstep, trivial⟩
    | ok t =>
      obtain ⟨hinv, hall⟩ := remove_step hs hexact hstep
      exact Or.inl ⟨t, hstep, hinv, iff_of_true hall trivial⟩

/-- **No interest means not registered**, over every sequence of calls on any channels with
distinct descriptors, exactly when every disable finds an interest. -/
theorem run_registered_iff {fd : ι → Fd} (hfd : Function.Injective fd)
    (is : List (PollerInput ι)) :
    machine.Meets Registration (start fd) is ↔ machine.Along DisablesInterest (start fd) is := by
  refine Machine.meets_iff_of_sound machine (I := fun s => s.Inv ∧ ∀ q, s.Exact q)
    (fun s hs => hs.2) ?_ ?_ ⟨start_inv hfd, fun q => exact_of_registered (by simp [start])⟩
  · intro s i hs hi
    change Registration.Sound _ s (s.step i)
    rcases step_exact hs.1 hs.2 i with ⟨t, ht, hinv, hiff⟩ | ⟨e, he, hstop, -⟩
    · rw [ht]
      exact ⟨⟨hinv, hiff.mpr hi⟩, trivial⟩
    · rw [he]
      exact hstop
  · intro s i hs hi
    change Registration.Seen s (s.step i)
    rcases step_exact hs.1 hs.2 i with ⟨t, ht, -, hiff⟩ | ⟨e, -, -, hdis⟩
    · rw [ht]
      exact fun hgood => hi (hiff.mp hgood.2)
    · exact absurd hdis hi

/-- A connection that reads and writes, and is closed. -/
theorem run_registered_closed : machine.Meets Registration (start fun _ : Unit => 5)
    [.enableReading (), .enableWriting (), .disableAll (), .remove ()] :=
  (run_registered_iff (fun _ _ _ => rfl) _).mpr (by decide +kernel)

/-- A connection that stops reading and is closed: the descriptor stays in the epoll set, and
the hang-up of the peer is still reported. -/
theorem run_registered_stopRead :
    (∃ s, machine.run (start fun _ : Unit => (5 : Fd))
        [.enableReading (), .disableReading (), .disableAll ()] = .ok s ∧
      (s.object ()).events = kNoneEvent ∧ s.epollSet 5 = some kNoneEvent ∧
        s.reports () EPOLLHUP = EPOLLHUP) ∧
      ¬ machine.Meets Registration (start fun _ : Unit => (5 : Fd))
        [.enableReading (), .disableReading (), .disableAll ()] := by
  have hrun : ∃ s, machine.run (start fun _ : Unit => (5 : Fd))
      [.enableReading (), .disableReading (), .disableAll ()] = .ok s ∧
        (s.object ()).events = kNoneEvent ∧ s.epollSet 5 = some kNoneEvent ∧
          s.reports () EPOLLHUP = EPOLLHUP := by
    decide +kernel
  refine ⟨hrun, fun hmeets => ?_⟩
  obtain ⟨s, hs, hev, -, hhup⟩ := hrun
  have hsilent := (Machine.Meets.good_of_run machine hmeets hs ()).silent hev EPOLLHUP
  rw [hhup] at hsilent
  exact absurd hsilent (by decide)

end Poller

end Firey
