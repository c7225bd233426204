import Firey.Net.TimerEffects
import Firey.Net.TimerInvariant
import Mathlib.Data.List.Chain

/-!
# How often the timers of a `TimerQueueff` run

`reset` restarts a repeating timer from the time of the batch it has run in, not from the time it
was due at.  A timer that comes late therefore does not catch up: from one run to the next there is
at least the interval, and the `i`-th run is not before `when + i * interval`.  Nothing is asked of
the clock, which can go back and forth between the batches.

`made` and `runs` are history: what `addTimer` was asked for, and the callbacks that have been run,
each with the time of its batch.
-/

set_option autoImplicit false

namespace Firey

/-- A timer as `addTimer` made it. -/
structure MadeTimer where
  sequence : ℕ
  when : Timestamp
  interval : ℤ
  isRepeat : Bool
  deriving DecidableEq, Repr

/-- A call of the callback of a timer, in the batch of the time `now`. -/
structure TimerRun where
  sequence : ℕ
  now : Timestamp
  deriving DecidableEq, Repr

structure PacedTimers where
  loop : TimerLoop
  made : List MadeTimer
  runs : List TimerRun

namespace MadeTimer

/-- When the timer is due that has run at the times `ts`. -/
def Due (m : MadeTimer) (ts : List Timestamp) (expireTime : Timestamp) : Prop :=
  match ts.getLast? with
  | none => expireTime = m.when
  | some t => m.isRepeat = true ∧ expireTime = t + m.interval

/-- The times are those at which the timer may run: the first is not before `when`, and from one to
the next there is the interval, if it repeats at all. -/
structure Paced (m : MadeTimer) (ts : List Timestamp) : Prop where
  first : ∀ t ∈ ts.head?, m.when ≤ t
  chain : ts.IsChain fun t u => m.isRepeat = true ∧ t + m.interval ≤ u

variable {m : MadeTimer} {ts : List Timestamp}

lemma due_of_last {t expireTime : Timestamp} (h : ts.getLast? = some t) :
    m.Due ts expireTime ↔ m.isRepeat = true ∧ expireTime = t + m.interval := by
  rw [Due, h]

lemma paced_nil (m : MadeTimer) : m.Paced [] := ⟨fun _ h => absurd h (by simp), .nil⟩

/-- **A timer that is due runs.** -/
lemma Paced.run (h : m.Paced ts) {expireTime now : Timestamp} (hdue : m.Due ts expireTime)
    (hnow : expireTime ≤ now) : m.Paced (ts ++ [now]) := by
  unfold Due at hdue
  refine ⟨fun t ht => ?_, List.isChain_append.mpr ⟨h.chain, .singleton now, ?_⟩⟩
  · cases ts with
    | nil =>
      cases ht
      exact le_of_eq_of_le hdue.symm hnow
    | cons u us => exact h.first t ht
  · intro t ht u hu
    rw [Option.mem_def.mp ht] at hdue
    cases hu
    exact ⟨hdue.1, hdue.2 ▸ hnow⟩

/-- The `i`-th run is not before its time, counted from the first. -/
lemma Paced.le (h : m.Paced ts) {i : ℕ} {t : Timestamp} (ht : ts[i]? = some t) :
    m.when + i * m.interval ≤ t ∧ (0 < i → m.isRepeat = true) := by
  induction i generalizing t with
  | zero =>
    have hfirst := h.first t (by rw [List.head?_eq_getElem?]; exact ht)
    refine ⟨?_, fun hi => absurd hi (Nat.lt_irrefl 0)⟩
    rwa [Int.ofNat_zero, Int.zero_mul, Int.add_zero]
  | succ i ih =>
    obtain ⟨hlt, hget⟩ := List.getElem?_eq_some_iff.mp ht
    have hprev := (ih (List.getElem?_eq_getElem (Nat.lt_of_succ_lt hlt))).1
    obtain ⟨hrepeat, hstep⟩ := List.isChain_iff_getElem.mp h.chain i hlt
    refine ⟨?_, fun _ => hrepeat⟩
    have hsum : m.when + ((i + 1 : ℕ) : ℤ) * m.interval =
        m.when + i * m.interval + m.interval := by
      push_cast
      rw [Int.add_mul, Int.one_mul, Int.add_assoc]
    rw [hsum, ← hget]
    exact (Int.add_le_add_right hprev _).trans hstep

end MadeTimer

namespace PacedTimers

def start (n : ℕ) : PacedTimers where
  loop := .start n
  made := []
  runs := []

/-- The timer that a step makes. -/
def making (s : TimerLoop) : TimerInput → List MadeTimer
  | .addTimer p when interval isRepeat =>
      if s.queue.heap p = none ∧ 0 < p ∧ p < UINTPTR_MAX then
        [⟨s.queue.timerCreated + 1, when, interval, isRepeat⟩]
      else []
  | _ => []

/-- The callback that a step calls. -/
def running (s : TimerLoop) : TimerInput → List TimerRun
  | .next =>
      match s.phase with
      | .calling now _ (n :: _) =>
          ((s.queue.heap n.ptr).map fun tm => ⟨tm.sequence, now⟩).toList
      | _ => []
  | _ => []

def step (s : PacedTimers) (i : TimerInput) : Except Fault PacedTimers := do
  let loop ← s.loop.step i
  .ok ⟨loop, s.made ++ making s.loop i, s.runs ++ running s.loop i⟩

def machine : Machine PacedTimers TimerInput Fault := ⟨step⟩

/-- The times at which a timer has run. -/
def times (s : PacedTimers) (k : ℕ) : List Timestamp :=
  (s.runs.filter fun r => r.sequence = k).map TimerRun.now

/-! ## The invariant -/

structure Inv (s : PacedTimers) : Prop where
  loop : s.loop.Inv
  bound : ∀ m ∈ s.made, m.sequence ≤ s.loop.queue.timerCreated
  made : (s.made.map MadeTimer.sequence).Nodup
  runs : ∀ r ∈ s.runs, ∃ m ∈ s.made, m.sequence = r.sequence
  paced : ∀ m ∈ s.made, m.Paced (s.times m.sequence)
  live : ∀ p tm, s.loop.queue.heap p = some tm → ∃ m ∈ s.made, m.sequence = tm.sequence ∧
    m.interval = tm.interval ∧ m.isRepeat = tm.isRepeat ∧
      -- Of the batch, this is only for the timers that have not run yet.
      ((p ∈ s.loop.phase.batch.map TimerNode.ptr → p ∈ s.loop.phase.toRun.map TimerNode.ptr) →
        m.Due (s.times m.sequence) tm.expireTime)
  batch : ∀ now expired toRun, s.loop.phase = .calling now expired toRun →
    toRun <:+ expired ∧ ∀ n ∈ expired, ∀ tm, s.loop.queue.heap n.ptr = some tm →
      tm.expireTime ≤ now ∧
        (n.ptr ∉ toRun.map TimerNode.ptr → (s.times tm.sequence).getLast? = some now)

lemma start_inv (n : ℕ) : (start n).Inv where
  loop := TimerLoop.start_inv n
  bound := fun m h => absurd h List.not_mem_nil
  made := List.nodup_nil
  runs := fun r h => absurd h List.not_mem_nil
  paced := fun m h => absurd h List.not_mem_nil
  live := fun p tm h => absurd h (by simp [start, TimerLoop.start, TimerQueue.start])
  batch := fun now expired toRun h => by cases h

variable {s : PacedTimers}

/-- A sequence number that no timer has had has no runs. -/
lemma Inv.times_fresh (h : s.Inv) {k : ℕ} (hk : s.loop.queue.timerCreated < k) :
    s.times k = [] := by
  rw [times, List.map_eq_nil_iff, List.filter_eq_nil_iff]
  intro r hr heq
  obtain ⟨m, hm, hseq⟩ := h.runs r hr
  have hle := h.bound m hm
  rw [decide_eq_true_eq] at heq
  omega

/-- The timer of the queue with its record. -/
lemma Inv.unique (h : s.Inv) {m m' : MadeTimer} (hm : m ∈ s.made) (hm' : m' ∈ s.made)
    (heq : m.sequence = m'.sequence) : m = m' :=
  List.inj_on_of_nodup_map h.made hm hm' heq

/-! ## One lemma a step -/

/-- No timer comes and none runs, but timers may go. -/
lemma Inv.shrink (h : s.Inv) {loop : TimerLoop} (hloop : loop.Inv)
    (hphase : loop.phase = s.loop.phase)
    (hcreated : s.loop.queue.timerCreated ≤ loop.queue.timerCreated)
    (hheap : ∀ p tm, loop.queue.heap p = some tm → s.loop.queue.heap p = some tm) :
    ({ s with loop := loop } : PacedTimers).Inv where
  loop := hloop
  bound := fun m hm => (h.bound m hm).trans hcreated
  made := h.made
  runs := h.runs
  paced := h.paced
  live := by
    intro p tm htm
    rw [hphase]
    exact h.live p tm (hheap p tm htm)
  batch := by
    intro now expired toRun hcalling
    obtain ⟨hsuffix, hexpired⟩ := h.batch now expired toRun (hphase ▸ hcalling)
    exact ⟨hsuffix, fun n hn tm htm => hexpired n hn tm (hheap _ tm htm)⟩

lemma Inv.cancel (h : s.Inv) {q : TimerQueue} {timerId : ActiveTimer}
    (hcancel : s.loop.queue.cancelInLoop timerId = .ok q)
    (hloop : ({ s.loop with queue := q } : TimerLoop).Inv) :
    ({ s with loop := { s.loop with queue := q } } : PacedTimers).Inv := by
  refine h.shrink hloop rfl ?_ fun p tm htm => ?_
  · rcases TimerQueue.cancelInLoop_ok hcancel with ⟨-, _, -, rfl⟩ | ⟨-, rfl⟩
    · exact le_refl _
    · exact le_refl _
  · rcases TimerQueue.cancelInLoop_ok hcancel with ⟨-, _, -, rfl⟩ | ⟨-, rfl⟩
    · dsimp only at htm
      rw [Function.update_apply] at htm
      split at htm
      · cases htm
      · exact htm
    · exact htm

/-- **A new timer** has not run. -/
lemma Inv.addTimer (h : s.Inv) {p : TimerPtr} (hfree : s.loop.queue.heap p = none)
    {when : Timestamp} {interval : ℤ} {isRepeat : Bool} {q : TimerQueue}
    {r : Option Timestamp} {timerId : ActiveTimer}
    (hadd : s.loop.queue.addTimer p when interval isRepeat = .ok (q, r, timerId))
    (hloop : ({ s.loop with queue := q } : TimerLoop).Inv) :
    (⟨{ s.loop with queue := q },
      s.made ++ [⟨s.loop.queue.timerCreated + 1, when, interval, isRepeat⟩], s.runs⟩ :
      PacedTimers).Inv := by
  obtain ⟨rfl, -, -⟩ := TimerQueue.addTimer_ok hadd
  have hfresh := h.times_fresh (Nat.lt_succ_self _)
  have hnew {q : TimerPtr} {tm : Timer} (hq : q ≠ p) (htm : Function.update s.loop.queue.heap p
      (some ⟨interval, isRepeat, when, s.loop.queue.timerCreated + 1⟩) q = some tm) :
      s.loop.queue.heap q = some tm := by
    rwa [Function.update_of_ne hq] at htm
  refine ⟨hloop, fun m hm => ?_, ?_, fun r hr => ?_, fun m hm => ?_, fun q tm htm => ?_, ?_⟩
  · rcases List.mem_append.mp hm with hm | hm
    · exact (h.bound m hm).trans (Nat.le_succ _)
    · rw [List.mem_singleton.mp hm]
      exact le_refl _
  · rw [List.map_append, List.map_singleton]
    refine List.nodup_append.mpr ⟨h.made, List.nodup_singleton _, ?_⟩
    rintro k hk k' hk' rfl
    obtain ⟨m, hm, rfl⟩ := List.mem_map.mp hk
    have hle := h.bound m hm
    have heq : m.sequence = s.loop.queue.timerCreated + 1 := List.mem_singleton.mp hk'
    omega
  · obtain ⟨m, hm, hseq⟩ := h.runs r hr
    exact ⟨m, List.mem_append_left _ hm, hseq⟩
  · rcases List.mem_append.mp hm with hm | hm
    · exact h.paced m hm
    · rw [List.mem_singleton.mp hm]
      exact hfresh.symm ▸ MadeTimer.paced_nil _
  · by_cases hq : q = p
    · rw [hq] at htm
      cases (Function.update_self ..).symm.trans htm
      refine ⟨_, List.mem_append_right _ (List.mem_singleton_self _), rfl, rfl, rfl, fun _ => ?_⟩
      change MadeTimer.Due _ (s.times _) _
      rw [hfresh]
      rfl
    · obtain ⟨m, hm, hrest⟩ := h.live q tm (hnew hq htm)
      exact ⟨m, List.mem_append_left _ hm, hrest⟩
  · intro now expired toRun hcalling
    obtain ⟨hsuffix, hexpired⟩ := h.batch now expired toRun hcalling
    refine ⟨hsuffix, fun n hn tm htm => hexpired n hn tm (hnew (fun hp => ?_) htm)⟩
    have hbatch : n.ptr ∈ s.loop.phase.batch.map TimerNode.ptr := by
      rw [show s.loop.phase = _ from hcalling]
      exact List.mem_map_of_mem hn
    obtain ⟨tm', htm'⟩ := h.loop.good.loose_live _ hbatch
    rw [hp, hfree] at htm'
    cases htm'

/-- **A batch begins** with the timers that are due. -/
lemma Inv.handleTimerfdRead (h : s.Inv) (hidle : s.loop.phase = .idle) {now : Timestamp}
    {q : TimerQueue} {expired : List TimerNode}
    (hget : s.loop.queue.getExpiredTimer now = .ok (q, expired))
    {loop : TimerLoop} (hheap : loop.queue.heap = q.heap)
    (hcreated : loop.queue.timerCreated = q.timerCreated)
    (hphase : loop.phase = .calling now expired expired) (hloop : loop.Inv) :
    ({ s with loop := loop } : PacedTimers).Inv := by
  obtain ⟨rfl, -, hq⟩ := TimerQueue.getExpiredTimer_ok hget
  rw [hq] at hheap hcreated
  refine ⟨hloop, fun m hm => hcreated ▸ h.bound m hm, h.made, h.runs, h.paced, fun p tm htm => ?_,
    fun now' expired toRun hcalling => ?_⟩
  · dsimp only at htm ⊢
    rw [hheap] at htm
    obtain ⟨m, hm, hseq, hint, hrep, hdue⟩ := h.live p tm htm
    refine ⟨m, hm, hseq, hint, hrep, fun _ => hdue fun hp => ?_⟩
    rw [hidle] at hp
    exact absurd hp List.not_mem_nil
  · rw [show loop.phase = _ from hcalling] at hphase
    cases hphase
    refine ⟨List.suffix_refl _, fun n hn tm htm => ⟨?_, fun hnot => ?_⟩⟩
    · dsimp only at htm
      rw [hheap] at htm
      obtain ⟨hmem, hdue⟩ := h.loop.good.mem_before.mp hn
      obtain ⟨tm', htm', hwhen⟩ := h.loop.good.live_of_mem hmem
      cases htm.symm.trans htm'
      exact hwhen ▸ hdue
    · exact absurd (List.mem_map_of_mem hn) hnot

/-- What has run since, for each timer. -/
lemma times_run (s : PacedTimers) (loop : TimerLoop) (made : List MadeTimer) (k j : ℕ)
    (now : Timestamp) : (⟨loop, made, s.runs ++ [⟨k, now⟩]⟩ : PacedTimers).times j =
      if k = j then s.times j ++ [now] else s.times j := by
  unfold times
  rw [List.filter_append, List.map_append, List.filter_singleton]
  by_cases heq : k = j
  · simp [heq]
  · simp [heq]

/-- **The next callback of the batch.** -/
lemma Inv.run (h : s.Inv) {now : Timestamp} {expired toRun : List TimerNode} {n : TimerNode}
    (hphase : s.loop.phase = .calling now expired (n :: toRun)) {tm : Timer}
    (htm : s.loop.queue.heap n.ptr = some tm)
    (hloop : ({ s.loop with phase := .calling now expired toRun } : TimerLoop).Inv) :
    (⟨{ s.loop with phase := .calling now expired toRun }, s.made,
      s.runs ++ [⟨tm.sequence, now⟩]⟩ : PacedTimers).Inv := by
  obtain ⟨hsuffix, hexpired⟩ := h.batch now expired _ hphase
  have hn : n ∈ expired := hsuffix.subset List.mem_cons_self
  obtain ⟨m, hm, hseq, hint, hrep, hdue⟩ := h.live _ _ htm
  have hnodup : ((n :: toRun).map TimerNode.ptr).Nodup := by
    have hloose := h.loop.good.loose_nodup
    rw [hphase] at hloose
    exact (hsuffix.map _).sublist.nodup hloose
  have hnot : n.ptr ∉ toRun.map TimerNode.ptr := (List.nodup_cons.mp hnodup).1
  -- A timer at another address is another timer.
  have hother {p : TimerPtr} {tm' : Timer} (hp : p ≠ n.ptr)
      (htm' : s.loop.queue.heap p = some tm') : tm.sequence ≠ tm'.sequence := fun heq =>
    hp (h.loop.good.sequence_inj _ _ _ _ htm' htm heq.symm)
  refine ⟨hloop, h.bound, h.made, fun r hr => ?_, fun m' hm' => ?_, fun p tm' htm' => ?_, ?_⟩
  · rcases List.mem_append.mp hr with hr | hr
    · exact h.runs r hr
    · rw [List.mem_singleton.mp hr]
      exact ⟨m, hm, hseq⟩
  · rw [times_run]
    split
    next heq =>
      have hsame := h.unique hm hm' (hseq.trans heq)
      rw [← hsame]
      refine (h.paced m hm).run (hdue fun _ => ?_) (hexpired n hn tm htm).1
      rw [hphase]
      exact List.mem_map_of_mem List.mem_cons_self
    · exact h.paced m' hm'
  · dsimp only at htm' ⊢
    obtain ⟨m', hm', hseq', hint', hrep', hdue'⟩ := h.live p tm' htm'
    refine ⟨m', hm', hseq', hint', hrep', fun hwaits => ?_⟩
    by_cases hp : p = n.ptr
    · rw [hp] at hwaits
      exact absurd (hwaits (List.mem_map_of_mem hn)) hnot
    · rw [times_run, if_neg (fun heq => hother hp htm' (heq.trans hseq'))]
      refine hdue' fun hbatch => ?_
      rw [hphase] at hbatch ⊢
      exact List.mem_cons_of_mem _ (hwaits hbatch)
  · intro now' expired' toRun' hcalling
    cases hcalling
    refine ⟨(List.suffix_cons n toRun).trans hsuffix, fun n' hn' tm' htm' => ?_⟩
    obtain ⟨hle, hlast⟩ := hexpired n' hn' tm' htm'
    refine ⟨hle, fun hran => ?_⟩
    rw [times_run]
    by_cases hp : n'.ptr = n.ptr
    · have htm'' : s.loop.queue.heap n.ptr = some tm' := hp ▸ htm'
      cases htm.symm.trans htm''
      rw [if_pos rfl, List.getLast?_concat]
    · rw [if_neg (hother hp htm')]
      refine hlast fun hmem => ?_
      rcases List.mem_cons.mp hmem with heq | hmem
      · exact hp heq
      · exact hran hmem

/-- **The end of a batch**: the timers that repeat are due an interval after it. -/
lemma Inv.reset (h : s.Inv) {now : Timestamp} {expired : List TimerNode}
    (hphase : s.loop.phase = .calling now expired []) {q : TimerQueue} {r : Option Timestamp}
    (hreset : TimerQueue.reset { s.loop.queue with callingExpiredTimers := false } expired now =
      .ok (q, r)) (hloop : (⟨q, .idle⟩ : TimerLoop).Inv) :
    ({ s with loop := ⟨q, .idle⟩ } : PacedTimers).Inv := by
  unfold TimerQueue.reset at hreset
  obtain ⟨q₁, hall, hreset⟩ := bind_eq_ok hreset
  cases hreset
  have hback := TimerQueue.resetAll_putBack hall
  obtain ⟨-, hexpired⟩ := h.batch now expired _ hphase
  have hnodup : (expired.map TimerNode.ptr).Nodup := by
    have hloose := h.loop.good.loose_nodup
    rwa [hphase] at hloose
  refine ⟨hloop, fun m hm => ?_, h.made, h.runs, h.paced, fun p tm htm => ?_, ?_⟩
  · dsimp only
    rw [hback.timerCreated]
    exact h.bound m hm
  · dsimp only at htm ⊢
    by_cases hp : p ∈ expired.map TimerNode.ptr
    · obtain ⟨tm', htm', -⟩ := hback.heap p tm htm
      obtain ⟨hputs, hgone⟩ := TimerQueue.resetAll_heap hall hnodup hp htm'
      by_cases hput : s.loop.queue.PutsBack p tm'
      · have hrestart := hputs hput
        rw [TimerQueue.restart_eq hput.1, htm] at hrestart
        cases hrestart
        obtain ⟨n, hn, rfl⟩ := List.mem_map.mp hp
        obtain ⟨m, hm, hseq, hint, hrep, -⟩ := h.live _ tm' htm'
        have hlast := (hexpired n hn tm' htm').2 List.not_mem_nil
        refine ⟨m, hm, hseq, hint, hrep, fun _ => ?_⟩
        rw [← hseq] at hlast
        refine (MadeTimer.due_of_last hlast).mpr ⟨hrep.trans hput.1, ?_⟩
        rw [hint]
      · rw [hgone hput] at htm
        cases htm
    · rw [hback.frame p hp] at htm
      obtain ⟨m, hm, hseq, hint, hrep, hdue⟩ := h.live p tm htm
      refine ⟨m, hm, hseq, hint, hrep, fun _ => hdue fun hbatch => ?_⟩
      rw [hphase] at hbatch
      exact absurd hbatch hp
  · intro now' expired' toRun' hcalling
    cases hcalling

/-- **Every step** succeeds and keeps the invariant. -/
lemma step_inv (h : s.Inv) (i : TimerInput) : ∃ t, s.step i = .ok t ∧ t.Inv := by
  obtain ⟨loop, hstep, hloop⟩ := TimerLoop.step_inv h.loop i
  refine ⟨_, by rw [step, hstep]; rfl, ?_⟩
  cases i with
  | addTimer p when interval isRepeat =>
    rw [TimerLoop.step] at hstep
    dsimp only [making, running]
    rw [List.append_nil]
    split at hstep
    next hp =>
      obtain ⟨⟨q, r, timerId⟩, hadd, hstep⟩ := bind_eq_ok hstep
      cases hstep
      rw [if_pos hp]
      exact h.addTimer hp.1 hadd hloop
    next hp =>
      cases hstep
      rw [if_neg hp, List.append_nil]
      exact h
  | cancel timerId =>
    dsimp only [making, running]
    rw [List.append_nil, List.append_nil]
    obtain ⟨q, hcancel, hstep⟩ := bind_eq_ok hstep
    cases hstep
    exact h.cancel hcancel hloop
  | createElsewhere =>
    dsimp only [making, running]
    rw [List.append_nil, List.append_nil]
    cases hstep
    exact h.shrink hloop rfl (Nat.le_succ _) fun _ _ htm => htm
  | handleTimerfdRead now =>
    dsimp only [making, running]
    rw [List.append_nil, List.append_nil]
    rw [TimerLoop.step, TimerLoop.handleTimerfdRead] at hstep
    cases hphase : s.loop.phase with
    | calling now' expired toRun =>
      rw [hphase] at hstep
      cases hstep
      exact h
    | idle =>
      rw [hphase] at hstep
      obtain ⟨⟨q, expired⟩, hget, hstep⟩ := bind_eq_ok hstep
      cases hstep
      exact h.handleTimerfdRead hphase hget rfl rfl rfl hloop
  | next =>
    dsimp only [making, running]
    rw [List.append_nil]
    rw [TimerLoop.step, TimerLoop.next] at hstep
    cases hphase : s.loop.phase with
    | idle =>
      rw [hphase] at hstep
      cases hstep
      rw [List.append_nil]
      exact h
    | calling now expired toRun =>
      rw [hphase] at hstep
      cases toRun with
      | nil =>
        obtain ⟨⟨q, r⟩, hreset, hstep⟩ := bind_eq_ok hstep
        cases hstep
        rw [List.append_nil]
        exact h.reset hphase hreset hloop
      | cons n toRun =>
        obtain ⟨tm, hderef, hstep⟩ := bind_eq_ok hstep
        cases hstep
        have htm := TimerQueue.deref_eq_ok hderef
        dsimp only
        rw [htm]
        exact h.run hphase htm hloop

/-! ## Every run -/

/-- Timers at their own pace.  A timer that does not repeat runs at most once; the first run is not
before its time, and from one to the next there is the interval; and a timer that is in the queue is
due an interval after its last run. -/
structure AtPace (s : PacedTimers) : Prop where
  made : (s.made.map MadeTimer.sequence).Nodup
  runs : ∀ r ∈ s.runs, ∃ m ∈ s.made, m.sequence = r.sequence
  paced : ∀ m ∈ s.made, m.Paced (s.times m.sequence)
  once : ∀ m ∈ s.made, m.isRepeat = false → (s.times m.sequence).length ≤ 1
  early : ∀ m ∈ s.made, ∀ (i : ℕ) (t : Timestamp), (s.times m.sequence)[i]? = some t →
    m.when + i * m.interval ≤ t
  due : ∀ n ∈ s.loop.queue.timers, ∃ tm, s.loop.queue.heap n.ptr = some tm ∧
    ∃ m ∈ s.made, m.sequence = tm.sequence ∧ m.Due (s.times m.sequence) n.when

lemma Inv.atPace (h : s.Inv) : s.AtPace where
  made := h.made
  runs := h.runs
  paced := h.paced
  once m hm hrep := by
    by_contra hlen
    have hlt : 1 < (s.times m.sequence).length := Nat.lt_of_not_le hlen
    have hrepeat := ((h.paced m hm).le (List.getElem?_eq_getElem hlt)).2 Nat.one_pos
    rw [hrep] at hrepeat
    cases hrepeat
  early m hm i t ht := ((h.paced m hm).le ht).1
  due n hn := by
    obtain ⟨hnot, tm, htm, hwhen⟩ := (h.loop.good.timers_iff n.when n.ptr).mp hn
    obtain ⟨m, hm, hseq, -, -, hdue⟩ := h.live _ tm htm
    exact ⟨tm, htm, m, hm, hseq, hwhen ▸ hdue fun hbatch => absurd hbatch hnot⟩

/-- **Timers run at their own pace**, in every run of the loop thread, whatever the clock says. -/
theorem timers_at_pace (n : ℕ) (is : List TimerInput) :
    ∃ s, machine.run (start n) is = .ok s ∧ s.AtPace := by
  obtain ⟨s, hrun, hinv⟩ := machine.run_total (fun _ i h => step_inv h i) (start_inv n) is
  exact ⟨s, hrun, hinv.atPace⟩

end PacedTimers

end Firey
