import Firey.Net.Poller

/-!
# `Pollerff::poll`, and what `EventLoopff::loop` does with it

`poll` takes what `epoll_wait` reports back to the channels by the pointers that `update` has given
to the kernel, and `loop` calls `handleEvent` of one channel after the other.  Channels are made and
destroyed meanwhile, by the callbacks and by the functors behind them, and a descriptor that was
closed comes back with another channel.

`fillActiveChannels` asserts that `channels_` still has the channel under its descriptor, and what
it writes down is only a pointer.  `Inv` says why both are in order: the kernel has the descriptors
of living channels only, with their own pointers, and whoever is in `activeChannels_` lives until
its turn comes, if nobody destroys a channel before its turn (`Orderly`).

The kernel answers as documented, each descriptor once, and with events that were asked for or that
need not be; `epoll_wait` may fail, which is like no event.
-/

set_option autoImplicit false

namespace Firey

/-- How the loop can end the process. -/
inductive PollFault
  /-- A fault of a channel or of the poller. -/
  | fault (e : Fault)
  /-- `Pollerff::fillActiveChannels`: `it!=channels_.end()` and `it->second==channel`. -/
  | fillActiveChannels
  deriving DecidableEq, Repr

/-- An element of `eventsList_`, by the descriptor that the kernel has `data.ptr` for. -/
structure EpollEvent where
  fd : Fd
  events : Mask
  deriving DecidableEq, Repr

/-- `ready` is `activeChannels_` from the channel on whose turn it is; `data` is the `data.ptr` of
the entries of the kernel.  `reported` and `handled` are history, and so is `most`, the greatest
number of events of one `poll`. -/
structure PollLoop (ι : Type) where
  poller : Poller ι
  /-- The channels that were made and not destroyed. -/
  live : List ι
  revents : ι → Mask
  data : Fd → Option ι
  /-- `eventsList_.size()`. -/
  eventsList : ℕ
  ready : List ι
  reported : List (ι × Mask)
  handled : List (ι × Mask)
  most : ℕ

inductive PollLoopInput (ι : Type)
  /-- `new Channelff(loop, fd)`. -/
  | create (p : ι) (fd : Fd)
  /-- `~Channelff()`. -/
  | destroy (p : ι)
  | call (i : PollerInput ι)
  /-- The next round of `loop`, up to the first `handleEvent`. -/
  | poll (events : List EpollEvent)
  /-- `handleEvent` of the next channel. -/
  | handleEvent
  deriving DecidableEq, Repr

/-- The channel that is called. -/
def PollerInput.channel {ι : Type} : PollerInput ι → ι
  | enableReading p => p
  | enableWriting p => p
  | disableReading p => p
  | disableWriting p => p
  | disableAll p => p
  | remove p => p

namespace PollLoop

variable {ι : Type} [DecidableEq ι]

def kinitEventListSize : ℕ := 16

/-- The descriptor of a channel. -/
def fd (s : PollLoop ι) (p : ι) : Fd := (s.poller.object p).fd

/-- A poller without channels. -/
def start : PollLoop ι where
  poller := Poller.start fun _ => 0
  live := []
  revents := fun _ => kNoneEvent
  data := fun _ => none
  eventsList := kinitEventListSize
  ready := []
  reported := []
  handled := []
  most := 0

/-! ## Making and destroying channels -/

/-- An address can be given out that no living channel has, and a descriptor that none has open. -/
def Free (s : PollLoop ι) (p : ι) (fd : Fd) : Prop := p ∉ s.live ∧ ∀ q ∈ s.live, s.fd q ≠ fd

instance (s : PollLoop ι) (p : ι) (fd : Fd) : Decidable (s.Free p fd) :=
  inferInstanceAs (Decidable (_ ∧ _))

/-- `Channelff::Channelff`. -/
def create (s : PollLoop ι) (p : ι) (fd : Fd) : PollLoop ι :=
  { s with
    poller := s.poller.setObject p
      { fd := fd, events := kNoneEvent, index := .kNew, addToLoop := false }
    live := p :: s.live
    revents := Function.update s.revents p kNoneEvent }

/-- `Channelff::~Channelff`. -/
def destroy (s : PollLoop ι) (p : ι) : Except PollFault (PollLoop ι) :=
  if p ∈ s.live then
    if (s.poller.object p).addToLoop = false then
      .ok { s with live := s.live.filter fun q => q ≠ p }
    else .error (.fault (.assertion .channelDestructor))
  else .error (.fault .dangling)

/-- A member function of a channel: whatever is asked of the kernel is about the descriptor of this
channel, and names it in `data.ptr`. -/
def call (s : PollLoop ι) (i : PollerInput ι) : Except PollFault (PollLoop ι) :=
  if i.channel ∈ s.live then
    match s.poller.step i with
    | .ok t =>
        .ok { s with
          poller := t
          data := Function.update s.data (s.fd i.channel)
            ((t.epollSet (s.fd i.channel)).map fun _ => i.channel) }
    | .error e => .error (.fault e)
  else .error (.fault .dangling)

/-! ## `poll` -/

/-- The body of the loop in `fillActiveChannels`. -/
def fillActiveChannel (s : PollLoop ι) (e : EpollEvent) : Except PollFault (PollLoop ι) :=
  match s.data e.fd with
  | none => .error (.fault .nullPointer)
  | some p =>
      if p ∈ s.live then
        if s.poller.channels (s.fd p) = some p then
          .ok { s with revents := Function.update s.revents p e.events, ready := s.ready ++ [p] }
        else .error .fillActiveChannels
      else .error (.fault .dangling)

def fillActiveChannels (s : PollLoop ι) : List EpollEvent → Except PollFault (PollLoop ι)
  | [] => .ok s
  | e :: events => do
      let s ← s.fillActiveChannel e
      s.fillActiveChannels events

/-- What the kernel may report of an entry: what was asked for, and errors and hang-ups. -/
def Reportable (entry : Option Mask) (events : Mask) : Prop :=
  match entry with
  | some interest => events ≠ 0 ∧ events &&& ~~~(interest ||| EPOLLERR ||| EPOLLHUP) = 0
  | none => False

instance (entry : Option Mask) (events : Mask) : Decidable (Reportable entry events) :=
  match entry with
  | some _ => inferInstanceAs (Decidable (_ ∧ _))
  | none => .isFalse not_false

/-- What `epoll_wait` may answer. -/
def Answers (s : PollLoop ι) (events : List EpollEvent) : Prop :=
  events.length ≤ s.eventsList ∧ (events.map EpollEvent.fd).Nodup ∧
    ∀ e ∈ events, Reportable (s.poller.epollSet e.fd) e.events

instance (s : PollLoop ι) (events : List EpollEvent) : Decidable (s.Answers events) :=
  inferInstanceAs (Decidable (_ ∧ _ ∧ _))

/-- The channels that are reported. -/
def reports (s : PollLoop ι) (events : List EpollEvent) : List (ι × Mask) :=
  events.filterMap fun e => (s.data e.fd).map fun p => (p, e.events)

/-- `activeChannels_.clear()` and `poll`. -/
def poll (s : PollLoop ι) (events : List EpollEvent) : Except PollFault (PollLoop ι) := do
  let t ← { s with ready := [] }.fillActiveChannels events
  .ok { t with
    eventsList :=
      if 0 < events.length ∧ events.length = s.eventsList then 2 * s.eventsList
      else s.eventsList
    reported := s.reported ++ s.reports events
    most := max s.most events.length }

/-! ## Steps -/

/-- `handleEvent` of a channel, with the `revents_` that it finds. -/
def handleEvent (s : PollLoop ι) : Except PollFault (PollLoop ι) :=
  match s.ready with
  | [] => .ok s
  | p :: ready =>
      if p ∈ s.live then
        .ok { s with ready := ready, handled := s.handled ++ [(p, s.revents p)] }
      else .error (.fault .dangling)

def step (s : PollLoop ι) : PollLoopInput ι → Except PollFault (PollLoop ι)
  | .create p fd => if s.Free p fd then .ok (s.create p fd) else .ok s
  | .destroy p => s.destroy p
  | .call i => s.call i
  | .poll events => if s.ready = [] ∧ s.Answers events then s.poll events else .ok s
  | .handleEvent => s.handleEvent

def machine : Machine (PollLoop ι) (PollLoopInput ι) PollFault := ⟨step⟩

/-! ## What holds between the calls -/

omit [DecidableEq ι] in
/-- A call on another object leaves one alone that has another descriptor. -/
lemma filed_of_touches {s t : Poller ι} {p q : ι} (h : Poller.Touches s t p) (hq : q ≠ p)
    (hfd : (s.object q).fd ≠ (s.object p).fd) (hfiled : s.Filed q) : t.Filed q := by
  unfold Poller.Filed
  rw [h.object q hq, h.channels _ hfd, h.epollSet _ hfd]
  exact hfiled

lemma step_handled {s : Poller ι} {i : PollerInput ι} (h : s.Filed i.channel)
    (hi : s.Callable i) : ∃ t, s.step i = .ok t ∧ Poller.Handled s t i.channel := by
  have hset : ∀ m, ∃ t, s.setEvents i.channel m = .ok t ∧ Poller.Handled s t i.channel := by
    intro m
    obtain ⟨t, ht, hhandled, -⟩ := Poller.setEvents_filed h m
    exact ⟨t, ht, hhandled⟩
  cases i with
  | enableReading p => exact hset _
  | enableWriting p => exact hset _
  | disableReading p => exact hset _
  | disableWriting p => exact hset _
  | disableAll p => exact hset _
  | remove p =>
    obtain ⟨t, ht, hhandled, -⟩ := Poller.remove_filed h hi
    exact ⟨t, ht, hhandled⟩

/-- The records are about living channels: each is filed under a descriptor of its own, and the
kernel has their pointers. -/
structure Held (s : PollLoop ι) : Prop where
  distinct : ∀ p ∈ s.live, ∀ q ∈ s.live, s.fd p = s.fd q → p = q
  filed : ∀ p ∈ s.live, s.poller.Filed p
  owned : ∀ f, (∀ p ∈ s.live, s.fd p ≠ f) →
    s.poller.channels f = none ∧ s.poller.epollSet f = none
  named : ∀ f, (s.poller.epollSet f).isSome = true → ∃ p ∈ s.live, s.fd p = f ∧ s.data f = some p

/-- Who is in `activeChannels_` lives, and what was reported is handled or comes still, in order
and with the events that were reported.  The list of events is as long as it was made, or twice as
long as was needed at most, and always longer than the longest answer. -/
structure Inv (s : PollLoop ι) : Prop extends s.Held where
  nodup : s.ready.Nodup
  living : ∀ p ∈ s.ready, p ∈ s.live
  reported : s.reported = s.handled ++ s.ready.map fun p => (p, s.revents p)
  doubled : ∃ k, s.eventsList = 2 ^ k * kinitEventListSize
  bounded : s.eventsList ≤ max kinitEventListSize (2 * s.most)
  roomy : s.most < s.eventsList

/-- The calls that keep this: on living channels only, `remove` where it is allowed; and a channel
is destroyed after it was removed, and not before its turn. -/
def Orderly (s : PollLoop ι) : PollLoopInput ι → Prop
  | .call i => i.channel ∈ s.live ∧ s.poller.Callable i
  | .destroy p => p ∈ s.live ∧ (s.poller.object p).addToLoop = false ∧ p ∉ s.ready
  | _ => True

instance (s : PollLoop ι) (i : PollLoopInput ι) : Decidable (s.Orderly i) :=
  match i with
  | .call _ => inferInstanceAs (Decidable (_ ∧ _))
  | .destroy _ => inferInstanceAs (Decidable (_ ∧ _ ∧ _))
  | .create _ _ => .isTrue trivial
  | .poll _ => .isTrue trivial
  | .handleEvent => .isTrue trivial

variable {s : PollLoop ι}

omit [DecidableEq ι] in
lemma start_inv : (start : PollLoop ι).Inv where
  distinct := by simp [start]
  filed := by simp [start]
  owned := fun _ _ => ⟨rfl, rfl⟩
  named := by simp [start, Poller.start]
  nodup := List.nodup_nil
  living := by simp [start]
  reported := rfl
  doubled := ⟨0, rfl⟩
  bounded := Nat.le_max_left _ _
  roomy := Nat.zero_lt_succ _

namespace Held

omit [DecidableEq ι]

/-- **An entry of the kernel** is that of a living channel, which `channels_` has. -/
lemma entry (h : s.Held) {f : Fd} {m : Mask} (hm : s.poller.epollSet f = some m) :
    ∃ p ∈ s.live, s.fd p = f ∧ s.data f = some p ∧ s.poller.channels f = some p ∧
      (s.poller.object p).events = m := by
  obtain ⟨p, hp, rfl, hdata⟩ := h.named f (by rw [hm]; rfl)
  have hfiled := h.filed p hp
  unfold Poller.Filed at hfiled
  change s.poller.epollSet (s.poller.object p).fd = some m at hm
  split at hfiled
  · rw [hm] at hfiled
    exact absurd hfiled.2.1 (by simp)
  · refine ⟨p, hp, rfl, hdata, hfiled.1, ?_⟩
    exact Option.some.inj (hfiled.2.1.symm.trans hm)
  · rw [hm] at hfiled
    exact absurd hfiled.2.1 (by simp)

/-- A channel that is not in the loop has no records. -/
lemma removed (h : s.Held) {p : ι} (hp : p ∈ s.live)
    (hloop : (s.poller.object p).addToLoop = false) :
    s.poller.channels (s.fd p) = none ∧ s.poller.epollSet (s.fd p) = none := by
  have hfiled := h.filed p hp
  unfold Poller.Filed at hfiled
  split at hfiled
  · exact ⟨hfiled.1, hfiled.2.1⟩
  · exact absurd hfiled.2.2 (by simp [hloop])
  · exact absurd hfiled.2.2 (by simp [hloop])

end Held
/-! ## One lemma a step -/

lemma create_inv (h : s.Inv) {p : ι} {f : Fd} (hfree : s.Free p f) : (s.create p f).Inv := by
  obtain ⟨hp, hf⟩ := hfree
  have hother : ∀ q ∈ s.live, (s.create p f).poller.object q = s.poller.object q := by
    intro q hq
    refine Function.update_of_ne (fun heq => hp ?_) _ _
    rwa [← heq]
  have hfd : ∀ q ∈ s.live, (s.create p f).fd q = s.fd q := by
    intro q hq
    rw [fd, hother q hq, fd]
  have hnew : (s.create p f).fd p = f := by
    simp [fd, create, Poller.setObject]
  refine ⟨⟨?_, ?_, ?_, ?_⟩, h.nodup, ?_, ?_, h.doubled, h.bounded, h.roomy⟩
  · intro q hq r hr heq
    rcases List.mem_cons.mp hq with hqp | hq' <;> rcases List.mem_cons.mp hr with hrp | hr'
    · exact hqp.trans hrp.symm
    · rw [hqp, hnew, hfd r hr'] at heq
      exact absurd heq.symm (hf r hr')
    · rw [hrp, hnew, hfd q hq'] at heq
      exact absurd heq (hf q hq')
    · rw [hfd q hq', hfd r hr'] at heq
      exact h.distinct q hq' r hr' heq
  · intro q hq
    rcases List.mem_cons.mp hq with rfl | hq
    · obtain ⟨hchannels, hset⟩ := h.owned f hf
      unfold Poller.Filed
      have hobject : (s.create q f).poller.object q =
          { fd := f, events := kNoneEvent, index := .kNew, addToLoop := false } := by
        simp [create, Poller.setObject]
      rw [hobject]
      exact ⟨hchannels, hset, rfl⟩
    · have hfiled := h.filed q hq
      unfold Poller.Filed at hfiled ⊢
      rw [hother q hq]
      exact hfiled
  · intro g hg
    refine h.owned g fun q hq => ?_
    rw [← hfd q hq]
    exact hg q (List.mem_cons_of_mem _ hq)
  · intro g hg
    obtain ⟨q, hq, hqg, hdata⟩ := h.named g hg
    exact ⟨q, List.mem_cons_of_mem _ hq, (hfd q hq).trans hqg, hdata⟩
  · exact fun q hq => List.mem_cons_of_mem _ (h.living q hq)
  · refine h.reported.trans (congrArg (s.handled ++ ·) (List.map_congr_left fun q hq => ?_))
    have hne : q ≠ p := fun heq => hp (heq ▸ h.living q hq)
    simp only [create, Function.update_of_ne hne]

lemma destroy_inv (h : s.Inv) {p : ι} (hi : s.Orderly (.destroy p)) :
    ∃ t, s.destroy p = .ok t ∧ t.Inv := by
  obtain ⟨hp, hloop, hready⟩ := hi
  obtain ⟨hchannels, hset⟩ := h.removed hp hloop
  have hmem : ∀ q, q ∈ s.live.filter (fun q => q ≠ p) ↔ q ∈ s.live ∧ q ≠ p := by
    intro q
    simp
  refine ⟨{ s with live := s.live.filter fun q => q ≠ p }, ?_, ⟨?_, ?_, ?_, ?_⟩, h.nodup, ?_,
    h.reported, h.doubled, h.bounded, h.roomy⟩
  · rw [destroy, if_pos hp, if_pos hloop]
  · intro q hq r hr heq
    exact h.distinct q ((hmem q).mp hq).1 r ((hmem r).mp hr).1 heq
  · exact fun q hq => h.filed q ((hmem q).mp hq).1
  · intro f hf
    by_cases hpf : s.fd p = f
    · rw [← hpf]
      exact ⟨hchannels, hset⟩
    · refine h.owned f fun q hq => ?_
      by_cases hqp : q = p
      · rwa [hqp]
      · exact hf q ((hmem q).mpr ⟨hq, hqp⟩)
  · intro f hf
    obtain ⟨q, hq, rfl, hdata⟩ := h.named f hf
    refine ⟨q, (hmem q).mpr ⟨hq, ?_⟩, rfl, hdata⟩
    rintro rfl
    change (s.poller.epollSet (s.fd q)).isSome = true at hf
    rw [hset] at hf
    cases hf
  · exact fun q hq => (hmem q).mpr ⟨h.living q hq, fun heq => hready (heq ▸ hq)⟩

lemma call_inv (h : s.Inv) {i : PollerInput ι} (hi : s.Orderly (.call i)) :
    ∃ t, s.call i = .ok t ∧ t.Inv := by
  obtain ⟨hp, hcallable⟩ := hi
  obtain ⟨t, ht, hhandled⟩ := step_handled (h.filed _ hp) hcallable
  have hfd : ∀ q, (t.object q).fd = s.fd q := hhandled.touches.fd_eq
  refine ⟨{ s with
    poller := t
    data := Function.update s.data (s.fd i.channel)
      ((t.epollSet (s.fd i.channel)).map fun _ => i.channel) }, ?_, ⟨?_, ?_, ?_, ?_⟩, h.nodup,
    h.living, h.reported, h.doubled, h.bounded, h.roomy⟩
  · rw [call, if_pos hp, ht]
  · intro q hq r hr heq
    refine h.distinct q hq r hr ?_
    rw [← hfd q, ← hfd r]
    exact heq
  · intro q hq
    by_cases hqp : q = i.channel
    · rw [hqp]
      exact hhandled.filed
    · refine filed_of_touches hhandled.touches hqp (fun heq => hqp ?_) (h.filed q hq)
      exact h.distinct q hq _ hp heq
  · intro f hf
    have hne : f ≠ s.fd i.channel := fun heq => hf _ hp ((hfd _).trans heq.symm)
    have howned := h.owned f fun q hq => by
      rw [← hfd q]
      exact hf q hq
    exact ⟨(hhandled.touches.channels f hne).trans howned.1,
      (hhandled.touches.epollSet f hne).trans howned.2⟩
  · intro f hf
    by_cases hfp : f = s.fd i.channel
    · refine ⟨i.channel, hp, (hfd _).trans hfp.symm, ?_⟩
      dsimp only at hf ⊢
      rw [hfp] at hf ⊢
      obtain ⟨m, hm⟩ := Option.isSome_iff_exists.mp hf
      rw [Function.update_self, hm]
      rfl
    · have hset : t.epollSet f = s.poller.epollSet f := hhandled.touches.epollSet f hfp
      dsimp only at hf
      rw [hset] at hf
      obtain ⟨q, hq, hqf, hdata⟩ := h.named f hf
      exact ⟨q, hq, (hfd q).trans hqf, (Function.update_of_ne hfp _ _).trans hdata⟩

/-- What `fillActiveChannels` leaves: the channels `ps` behind those that were there, with the
events that were reported. -/
structure Fills (s t : PollLoop ι) (events : List EpollEvent) (ps : List ι) : Prop where
  eq : t = { s with revents := t.revents, ready := s.ready ++ ps }
  reports : s.reports events = ps.map fun p => (p, t.revents p)
  nodup : ps.Nodup
  living : ∀ p ∈ ps, p ∈ s.live ∧ s.fd p ∈ events.map EpollEvent.fd
  others : ∀ p, s.fd p ∉ events.map EpollEvent.fd → t.revents p = s.revents p

/-- **`fillActiveChannels`** finds the channel of every event that the kernel can report. -/
lemma fill_spec (h : s.Held) {events : List EpollEvent}
    (hentries : ∀ e ∈ events, ∃ m, s.poller.epollSet e.fd = some m)
    (hnodup : (events.map EpollEvent.fd).Nodup) :
    ∃ t ps, s.fillActiveChannels events = .ok t ∧ s.Fills t events ps := by
  induction events generalizing s with
  | nil => exact ⟨s, [], rfl, by rw [List.append_nil], rfl, List.nodup_nil, nofun, fun _ _ => rfl⟩
  | cons e events ih =>
    obtain ⟨m, hm⟩ := hentries e List.mem_cons_self
    obtain ⟨p, hp, hfd, hdata, hchannels, -⟩ := h.entry hm
    have hhead : s.fillActiveChannel e = .ok
        { s with revents := Function.update s.revents p e.events, ready := s.ready ++ [p] } := by
      rw [fillActiveChannel, hdata]
      dsimp only
      rw [if_pos hp, hfd, if_pos hchannels]
    rw [List.map_cons, List.nodup_cons] at hnodup
    obtain ⟨hfresh, hnodup⟩ := hnodup
    rw [← hfd] at hfresh
    obtain ⟨t, ps, hfill, hfills⟩ := ih
      (s := { s with revents := Function.update s.revents p e.events, ready := s.ready ++ [p] })
      ⟨h.distinct, h.filed, h.owned, h.named⟩
      (fun e' he' => hentries e' (List.mem_cons_of_mem _ he')) hnodup
    have hrevents : t.revents p = e.events :=
      (hfills.others p hfresh).trans (Function.update_self ..)
    refine ⟨t, p :: ps, ?_, ?_, ?_, ?_, ?_, ?_⟩
    · rw [fillActiveChannels, hhead, ok_bind, hfill]
    · rw [List.append_cons]
      exact hfills.eq
    · have hreports : s.reports (e :: events) = (p, e.events) :: s.reports events := by
        rw [reports, List.filterMap_cons, hdata]
        rfl
      rw [hreports, List.map_cons, hrevents]
      exact congrArg _ hfills.reports
    · exact List.nodup_cons.mpr ⟨fun hmem => hfresh (hfills.living p hmem).2, hfills.nodup⟩
    · intro q hq
      rcases List.mem_cons.mp hq with rfl | hq
      · exact ⟨hp, by rw [List.map_cons, hfd]; exact List.mem_cons_self⟩
      · exact ⟨(hfills.living q hq).1, List.mem_cons_of_mem _ (hfills.living q hq).2⟩
    · intro q hq
      rw [List.map_cons, List.mem_cons, not_or] at hq
      have hne : q ≠ p := fun heq => hq.1 (heq ▸ hfd)
      exact (hfills.others q hq.2).trans (Function.update_of_ne hne _ _)

lemma poll_inv (h : s.Inv) (hready : s.ready = []) {events : List EpollEvent}
    (hanswers : s.Answers events) : ∃ t, s.poll events = .ok t ∧ t.Inv := by
  obtain ⟨hlen, hnodup, hreportable⟩ := hanswers
  have hentries : ∀ e ∈ events, ∃ m, s.poller.epollSet e.fd = some m := by
    intro e he
    have hreport := hreportable e he
    unfold Reportable at hreport
    split at hreport
    next m hm => exact ⟨m, hm⟩
    · exact absurd hreport not_false
  have hsame : { s with ready := [] } = s := by
    rw [← hready]
  obtain ⟨t, ps, hfill, hfills⟩ := fill_spec h.toHeld hentries hnodup
  have heq := hfills.eq
  rw [hready, List.nil_append] at heq
  refine ⟨_, by rw [poll, hsame, hfill, ok_bind], ?_⟩
  rw [heq]
  refine ⟨⟨h.distinct, h.filed, h.owned, h.named⟩, hfills.nodup,
    fun p hp => (hfills.living p hp).1, ?_, ?_, ?_, ?_⟩
  · have hreported := h.reported
    rw [hready, List.map_nil, List.append_nil] at hreported
    dsimp only
    rw [hreported, hfills.reports]
  · obtain ⟨k, hk⟩ := h.doubled
    dsimp only
    split
    · exact ⟨k + 1, by rw [hk, Nat.pow_succ, Nat.mul_comm (2 ^ k) 2, Nat.mul_assoc]⟩
    · exact ⟨k, hk⟩
  · have hbounded := h.bounded
    dsimp only
    split <;> omega
  · have hroomy := h.roomy
    dsimp only
    split <;> omega

lemma handleEvent_inv (h : s.Inv) : ∃ t, s.handleEvent = .ok t ∧ t.Inv := by
  unfold handleEvent
  split
  · exact ⟨s, rfl, h⟩
  next p ready hready =>
    have hnodup := h.nodup
    have hliving := h.living
    have hreported := h.reported
    rw [hready] at hnodup hliving hreported
    rw [if_pos (hliving p List.mem_cons_self)]
    refine ⟨_, rfl, ⟨h.distinct, h.filed, h.owned, h.named⟩, (List.nodup_cons.mp hnodup).2,
      fun q hq => hliving q (List.mem_cons_of_mem _ hq), ?_, h.doubled, h.bounded, h.roomy⟩
    rw [hreported, List.map_cons, List.append_cons]

lemma step_inv (h : s.Inv) {i : PollLoopInput ι} (hi : s.Orderly i) :
    ∃ t, s.step i = .ok t ∧ t.Inv := by
  cases i with
  | create p f =>
    rw [step]
    split
    next hfree => exact ⟨_, rfl, create_inv h hfree⟩
    · exact ⟨s, rfl, h⟩
  | destroy p => exact destroy_inv h hi
  | call i => exact call_inv h hi
  | poll events =>
    rw [step]
    split
    next hpoll => exact poll_inv h hpoll.1 hpoll.2
    · exact ⟨s, rfl, h⟩
  | handleEvent => exact handleEvent_inv h

/-! ## Every run -/

/-- The loop does its duty: the kernel has living channels only, by their own pointers and with
their own events; a channel that is ready is alive, and its turn comes once; whatever was reported
is handled, or will be, in that order; and the list of events has doubled just as often as it takes
to have room for more events than were ever reported at once. -/
structure Dispatches (s : PollLoop ι) : Prop where
  entry : ∀ f m, s.poller.epollSet f = some m → ∃ p ∈ s.live, s.fd p = f ∧ s.data f = some p ∧
    s.poller.channels f = some p ∧ (s.poller.object p).events = m
  nodup : s.ready.Nodup
  living : ∀ p ∈ s.ready, p ∈ s.live
  reported : s.reported = s.handled ++ s.ready.map fun p => (p, s.revents p)
  doubled : ∃ k, s.eventsList = 2 ^ k * kinitEventListSize
  roomy : s.most < s.eventsList
  least : ∀ k, s.most < 2 ^ k * kinitEventListSize → s.eventsList ≤ 2 ^ k * kinitEventListSize

/-- Every state is that of a loop that does its duty, and the process does not end. -/
def Dispatching : RunSpec (PollLoop ι) PollFault where
  good := Dispatches
  move _ _ := True
  stop _ := False

/-- A channel that `channels_` does not have cannot be removed. -/
lemma removeChannel_fails {s : Poller ι} {p : ι} (h : s.channels (s.object p).fd ≠ some p) :
    s.removeChannel p = .error (.assertion .removeChannel) := by
  rw [Poller.removeChannel, check_false h, error_bind]

/-- A removal that is not allowed fails. -/
lemma remove_fails {s : Poller ι} {p : ι} (hnot : ¬ s.Removable p) :
    ∃ e, s.remove p = .error e := by
  unfold Poller.remove
  by_cases hnone : s.isNoneEvent p = true
  · have hchannels : s.channels (s.object p).fd ≠ some p := fun h => hnot ⟨hnone, h⟩
    refine ⟨.assertion .removeChannel, ?_⟩
    rw [check_true hnone, ok_bind]
    refine removeChannel_fails ?_
    simpa [Poller.setObject] using hchannels
  · exact ⟨_, by rw [check_false hnone, error_bind]⟩

lemma step_seen {i : PollLoopInput ι} (hi : ¬ s.Orderly i) :
    Dispatching.Seen s (s.step i) := by
  have herror : ∀ {e : PollFault} {x : Except PollFault (PollLoop ι)}, x = .error e →
      Dispatching.Seen s x := by
    rintro e x rfl
    exact not_false
  cases i with
  | create p f => exact absurd trivial hi
  | poll events => exact absurd trivial hi
  | handleEvent => exact absurd trivial hi
  | destroy p =>
    by_cases hp : p ∈ s.live
    · by_cases hloop : (s.poller.object p).addToLoop = false
      · -- its turn is still to come
        have hready : p ∈ s.ready := by
          by_contra hready
          exact hi ⟨hp, hloop, hready⟩
        have hdestroy : s.step (.destroy p) =
            .ok { s with live := s.live.filter fun q => q ≠ p } := by
          rw [step, destroy, if_pos hp, if_pos hloop]
        rw [hdestroy]
        rintro ⟨-, hgood⟩
        have hlive := hgood.living p hready
        simp at hlive
      · exact herror (show s.destroy p = _ by rw [destroy, if_pos hp, if_neg hloop])
    · exact herror (show s.destroy p = _ by rw [destroy, if_neg hp])
  | call i =>
    by_cases hp : i.channel ∈ s.live
    · have hnot : ¬ s.poller.Callable i := fun hcallable => hi ⟨hp, hcallable⟩
      cases i with
      | remove p =>
        obtain ⟨e, he⟩ := remove_fails hnot
        exact herror (show s.call (.remove p) = _ by
          rw [call, if_pos hp, Poller.step, he])
      | enableReading p => exact absurd trivial hnot
      | enableWriting p => exact absurd trivial hnot
      | disableReading p => exact absurd trivial hnot
      | disableWriting p => exact absurd trivial hnot
      | disableAll p => exact absurd trivial hnot
    · exact herror (show s.call i = _ by rw [call, if_neg hp])

/-- The first of two ready channels destroys the second. -/
example : machine.run (start : PollLoop ℕ)
    [.create 0 5, .call (.enableReading 0), .create 1 6, .call (.enableReading 1),
      .poll [⟨5, EPOLLIN⟩, ⟨6, EPOLLIN⟩], .handleEvent, .call (.disableAll 1), .call (.remove 1),
      .destroy 1, .handleEvent] = .error (.fault .dangling) := by
  decide +kernel

end PollLoop

end Firey
