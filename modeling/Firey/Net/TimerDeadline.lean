import Mathlib.Order.MinMax
import Firey.Net.TimerThreads

/-!
# No timer is stranded

The timerfd is set in two places, where a timer is added before all others and at the end of a
batch, and it is spent when it is read at the start of one.  `Timely` is what every step keeps:
between batches the timerfd is good for each timer in the queue, and during a batch it is good
for each timer whose expiration time is zero, which the end of the batch does not set it for.
Every other timer gets its setting there.
-/

set_option autoImplicit false

namespace Firey

/-! ## The time that is set -/

/-- A setting the kernel accepts and that does not disarm. -/
structure Timespec.Valid (v : Timespec) : Prop where
  nonzero : v ≠ { tv_sec := 0, tv_nsec := 0 }
  nsec_nonneg : 0 ≤ v.tv_nsec
  nsec_lt : v.tv_nsec < 1000 * 1000 * 1000

/-- Microseconds, taken apart as the kernel wants them, put together again. -/
lemma timespec_spec (us : ℤ) (h : 100 ≤ us) :
    Timespec.Valid { tv_sec := us.tdiv kusPerSecond, tv_nsec := us.tmod kusPerSecond * 1000 } ∧
      0 ≤ us.tdiv kusPerSecond ∧
      us.tdiv kusPerSecond * kusPerSecond + (us.tmod kusPerSecond * 1000).tdiv 1000 = us := by
  rw [Int.tdiv_eq_ediv_of_nonneg (by omega), Int.tmod_eq_emod_of_nonneg (by omega),
    Int.mul_tdiv_cancel _ (by decide), show kusPerSecond = 1000000 from rfl]
  refine ⟨⟨fun heq => ?_, ?_, ?_⟩, ?_, ?_⟩
  · obtain ⟨hz, hz'⟩ := Timespec.mk.inj heq
    omega
  · dsimp only
    omega
  · dsimp only
    omega
  · omega
  · omega

/-- The time that is set is at least 100 microseconds, and all of it reaches the kernel. -/
lemma howMuchTimeFromNow_spec (when clock : Timestamp) :
    (howMuchTimeFromNow when clock).Valid ∧ 0 ≤ (howMuchTimeFromNow when clock).tv_sec ∧
      clock + (howMuchTimeFromNow when clock).tv_sec * kusPerSecond +
        (howMuchTimeFromNow when clock).tv_nsec.tdiv 1000 = max when (clock + 100) := by
  unfold howMuchTimeFromNow
  delta Timestamp at *
  dsimp only
  split
  · obtain ⟨hvalid, hsec, hsum⟩ := timespec_spec 100 le_rfl
    exact ⟨hvalid, hsec, by omega⟩
  · obtain ⟨hvalid, hsec, hsum⟩ := timespec_spec (when - clock) (by omega)
    exact ⟨hvalid, hsec, by omega⟩

/-- The deadline is the time asked for, or 100 microseconds from now if that is later. -/
lemma timerfdSettime_howMuch (when clock : Timestamp) (timerfd : Option Arming) :
    timerfdSettime clock (howMuchTimeFromNow when clock) timerfd =
      some { armedAt := clock, deadline := max when (clock + 100) } := by
  obtain ⟨hvalid, hsec, hdeadline⟩ := howMuchTimeFromNow_spec when clock
  unfold timerfdSettime
  rw [if_neg, if_neg, hdeadline]
  · rintro ⟨hz, hz'⟩
    exact hvalid.nonzero (Timespec.ext hz hz')
  · rintro (h | h | h)
    · omega
    · exact absurd hvalid.nsec_nonneg (by omega)
    · exact absurd hvalid.nsec_lt (by omega)

/-- No timer of the heap has a negative time. -/
def TimerQueue.NonnegTimes (q : TimerQueue) : Prop :=
  ∀ p tm, q.heap p = some tm → 0 ≤ tm.interval ∧ 0 ≤ tm.expireTime

lemma TimerQueue.NonnegTimes.update {q : TimerQueue} (h : q.NonnegTimes) {p : TimerPtr}
    {v : Option Timer} (hv : ∀ tm, v = some tm → 0 ≤ tm.interval ∧ 0 ≤ tm.expireTime)
    {q' : TimerQueue} (hheap : q'.heap = Function.update q.heap p v) : q'.NonnegTimes := by
  intro p' tm htm
  rw [hheap] at htm
  by_cases hp : p' = p
  · rw [hp, Function.update_self] at htm
    exact hv tm htm
  · rw [Function.update_of_ne hp] at htm
    exact h p' tm htm

namespace TimerThreads

/-- The timerfd is set, was not read since, and expires in time for the node. -/
def Covers (s : TimerThreads) (n : TimerNode) : Prop :=
  ∃ a, s.timerfd = some a ∧ a.deadline ≤ max n.when (a.armedAt + 100)

variable {s t : TimerThreads} {n m : TimerNode} {when : Timestamp}

lemma Covers.mono (h : s.Covers n) (hle : n.when ≤ m.when) : s.Covers m := by
  obtain ⟨a, ha, hd⟩ := h
  exact ⟨a, ha, hd.trans (max_le_max_right _ hle)⟩

lemma resetTimerfd_covers (s : TimerThreads) (hle : when ≤ n.when) :
    (s.resetTimerfd when).Covers n := by
  refine ⟨_, timerfdSettime_howMuch when s.clock s.timerfd, ?_⟩
  exact max_le_max_right _ hle

/-! ## The invariant -/

structure Timely (s : TimerThreads) : Prop where
  clock_pos : 0 < s.clock
  heap : s.queue.NonnegTimes
  nodes : ∀ n ∈ s.queue.timers, 0 ≤ n.when
  covered : ∀ n ∈ s.queue.timers, s.inCallback = false ∨ n.when = 0 → s.Covers n
  batch_pos : ∀ now expired toRun, s.phase = .calling now expired toRun → 0 < now
  written : ∀ v ∈ s.written, v.Valid

lemma start_timely (n : ℕ) {clock : Timestamp} (h : 0 < clock) : (start n clock).Timely where
  clock_pos := h
  heap := fun _ _ htm => nomatch htm
  nodes := fun _ hn => absurd hn OrderedSet.notMem_empty
  covered := fun _ hn => absurd hn OrderedSet.notMem_empty
  batch_pos := fun _ _ _ hphase => nomatch hphase
  written := fun _ hv => nomatch hv

namespace Timely

/-- Only the queue, the clock and the timerfd matter; a queue may lose timers. -/
lemma of_le (h : s.Timely) (hheap : t.queue.NonnegTimes)
    (htimers : ∀ n ∈ t.queue.timers, n ∈ s.queue.timers) (hclock : s.clock ≤ t.clock)
    (hphase : t.phase = s.phase) (hfd : t.timerfd = s.timerfd) (hwritten : t.written = s.written) :
    t.Timely where
  clock_pos := lt_of_lt_of_le h.clock_pos hclock
  heap := hheap
  nodes := fun n hn => h.nodes n (htimers n hn)
  covered := by
    intro n hn hcase
    unfold Covers
    rw [hfd]
    refine h.covered n (htimers n hn) ?_
    unfold inCallback at hcase ⊢
    rwa [hphase] at hcase
  batch_pos := by
    rw [hphase]
    exact h.batch_pos
  written := by
    rw [hwritten]
    exact h.written

/-- Whatever it is set for, the timerfd is written a valid time. -/
lemma written_arm (s : TimerThreads) (hs : ∀ v ∈ s.written, v.Valid) (r : Option Timestamp) :
    ∀ v ∈ (s.arm r).written, v.Valid := by
  cases r with
  | none => exact hs
  | some when =>
    intro v hv
    rcases List.mem_append.mp hv with hv | hv
    · exact hs v hv
    · rw [List.mem_singleton.mp hv]
      exact (howMuchTimeFromNow_spec when s.clock).1

/-- A timer is linked into the queue, and the timerfd set if the queue asks for it. -/
lemma link (h : s.Timely) {p : TimerPtr} {tm : Timer} {r : Option Timestamp} {q : TimerQueue}
    (hq : q.NonnegTimes) (htimers : q.timers = s.queue.timers) (htm : 0 ≤ tm.expireTime)
    (hr : s.queue.AsksFor tm.expireTime r) :
    ({ s with queue := q.link p tm }.arm r).Timely := by
  have hmem (n : TimerNode) (hn : n ∈ (q.link p tm).timers) :
      n = .mk tm.expireTime p ∨ n ∈ s.queue.timers := by
    rw [← htimers]
    exact OrderedSet.mem_insert.mp hn
  have hnodes (n : TimerNode) (hn : n ∈ (q.link p tm).timers) : 0 ≤ n.when := by
    rcases hmem n hn with rfl | hold
    · exact htm
    · exact h.nodes n hold
  rcases hr with ⟨rfl, hearliest⟩ | ⟨rfl, m, hm, hle⟩
  · refine ⟨h.clock_pos, hq, hnodes, fun n hn _ => ?_, h.batch_pos,
      written_arm { s with queue := q.link p tm } h.written _⟩
    refine resetTimerfd_covers { s with queue := q.link p tm } ?_
    rcases hmem n hn with rfl | hold
    · exact le_rfl
    · exact le_of_lt (hearliest n hold)
  · refine ⟨h.clock_pos, hq, hnodes, fun n hn hphase => ?_, h.batch_pos, h.written⟩
    rcases hmem n hn with rfl | hold
    · -- an expiration time of zero has another one before it
      have hzero : s.inCallback = false ∨ m.when = 0 := by
        rcases hphase with hphase | hz
        · exact Or.inl hphase
        · exact Or.inr (le_antisymm (hle.trans (le_of_eq hz)) (h.nodes m hm))
      exact (h.covered m hm hzero).mono hle
    · exact h.covered n hold hphase

lemma addTimer (h : s.Timely) {p : TimerPtr} {interval : ℤ} {isRepeat : Bool}
    (hwhen : 0 ≤ when) (hint : 0 ≤ interval)
    (hadd : s.addTimer p when interval isRepeat = .ok t) : t.Timely := by
  unfold TimerThreads.addTimer at hadd
  obtain ⟨⟨q, r, timerId⟩, hq, hadd⟩ := bind_eq_ok hadd
  obtain ⟨rfl, -, hr⟩ := TimerQueue.addTimer_ok hq
  cases hadd
  have hnew : (s.queue.newTimer p when interval isRepeat).NonnegTimes := by
    refine h.heap.update (fun tm htm => ?_) rfl
    cases htm
    exact ⟨hint, hwhen⟩
  have hret : Timely { s with returned := s.returned ++ [timerId] } :=
    h.of_le h.heap (fun _ hn => hn) le_rfl rfl rfl rfl
  exact hret.link hnew rfl hwhen hr

lemma addTimerInLoop (h : s.Timely) {p : TimerPtr} (hadd : s.addTimerInLoop p = .ok t) :
    t.Timely := by
  unfold TimerThreads.addTimerInLoop at hadd
  obtain ⟨⟨q, r⟩, hq, hadd⟩ := bind_eq_ok hadd
  obtain ⟨tm, htm, rfl, hr⟩ := TimerQueue.addTimerInLoop_ok hq
  cases hadd
  exact h.link h.heap rfl (h.heap p tm htm).2 hr

lemma cancelInLoop (h : s.Timely) {timerId : ActiveTimer}
    (hcancel : s.cancelInLoop timerId = .ok t) : t.Timely := by
  unfold TimerThreads.cancelInLoop at hcancel
  obtain ⟨q, hq, hcancel⟩ := bind_eq_ok hcancel
  cases hcancel
  rcases TimerQueue.cancelInLoop_ok hq with ⟨-, tm, -, rfl⟩ | ⟨-, rfl⟩
  · refine h.of_le (h.heap.update (p := timerId.ptr) (v := none) (fun _ htm => nomatch htm) rfl)
      (fun n hn => ?_) le_rfl rfl rfl rfl
    exact (OrderedSet.mem_erase.mp hn).2
  · exact h.of_le h.heap (fun _ hn => hn) le_rfl rfl rfl rfl

/-- The batch takes all timers that are due, so none that is left has the time zero. -/
lemma handleTimerfdRead (h : s.Timely) (hread : s.handleTimerfdRead = .ok t) : t.Timely := by
  unfold TimerThreads.handleTimerfdRead at hread
  obtain ⟨⟨q, expired⟩, hq, hread⟩ := bind_eq_ok hread
  cases hread
  obtain ⟨-, hrest, heq⟩ := TimerQueue.getExpiredTimer_ok hq
  refine ⟨h.clock_pos, ?_, fun n hn => h.nodes n (hrest n hn).1, fun n hn hcase => ?_,
    fun now expired toRun hphase => ?_, h.written⟩
  · rw [heq]
    exact h.heap
  · have hlate : s.clock < n.when := (hrest n hn).2
    rcases hcase with hcase | hz
    · cases hcase
    · exact absurd (h.clock_pos.trans hlate) (by rw [hz]; exact lt_irrefl _)
  · cases hphase
    exact h.clock_pos

/-- What was put back has a time after that of the batch. -/
lemma putBack (h : s.Timely) {q q' : TimerQueue} {now : Timestamp} {ps : List TimerPtr}
    (hback : q.PutBack q' now ps) (hheap : q.heap = s.queue.heap)
    (htimers : q.timers = s.queue.timers) (hnow : 0 < now) :
    q'.NonnegTimes ∧ ∀ n ∈ q'.timers, n ∈ s.queue.timers ∨ 0 < n.when := by
  refine ⟨fun p tm htm => ?_, fun n hn => ?_⟩
  · obtain ⟨tm', htm', -, hint, hexp, -⟩ := hback.heap p tm htm
    obtain ⟨hint', hexp'⟩ := h.heap p tm' (hheap ▸ htm')
    refine ⟨hint ▸ hint', ?_⟩
    rcases hexp with hexp | hexp
    · exact hexp ▸ hexp'
    · exact hexp ▸ Int.add_nonneg (le_of_lt hnow) hint'
  · rcases hback.timers n hn with hold | ⟨p, tm, htm, hwhen⟩
    · exact Or.inl (htimers ▸ hold)
    · exact Or.inr (hwhen ▸ Int.add_pos_of_pos_of_nonneg hnow (h.heap p tm (hheap ▸ htm)).1)

/-- The next callback of the batch starts. -/
lemma callBack (h : s.Timely) {now : Timestamp} {expired toRun : List TimerNode} {n : TimerNode}
    (hphase : s.phase = .calling now expired (n :: toRun)) (log : List TimerEvent) :
    Timely { s with phase := .calling now expired toRun, log := log } := by
  refine ⟨h.clock_pos, h.heap, h.nodes, fun n hn hcase => h.covered n hn ?_,
    fun now' expired' toRun' heq => ?_, h.written⟩
  · rcases hcase with hcase | hz
    · cases hcase
    · exact Or.inr hz
  · cases heq
    exact h.batch_pos _ _ _ hphase

lemma endBatch (h : s.Timely) {now : Timestamp} {expired : List TimerNode} {q : TimerQueue}
    {r : Option Timestamp} (hphase : s.phase = .calling now expired [])
    (hreset : { s.queue with callingExpiredTimers := false }.reset expired now = .ok (q, r)) :
    Timely ({ s with queue := q, phase := .idle }.arm r) := by
  obtain ⟨hback, hr⟩ := TimerQueue.reset_ok hreset
  have hnow := h.batch_pos _ _ _ hphase
  obtain ⟨hheap, htimers⟩ := h.putBack hback rfl rfl hnow
  have hnodes (n : TimerNode) (hn : n ∈ q.timers) : 0 ≤ n.when := by
    rcases htimers n hn with hold | hpos
    · exact h.nodes n hold
    · exact le_of_lt hpos
  rcases hr with ⟨n, -, rfl, hfirst⟩ | ⟨rfl, hzero⟩
  · refine ⟨h.clock_pos, hheap, hnodes, fun m hm _ => ?_, fun _ _ _ heq => (nomatch heq),
      written_arm { s with queue := q, phase := .idle } h.written _⟩
    exact resetTimerfd_covers { s with queue := q, phase := .idle } (hfirst m hm)
  · refine ⟨h.clock_pos, hheap, hnodes, fun m hm _ => ?_, fun _ _ _ heq => (nomatch heq),
      h.written⟩
    -- the earliest timer has the time zero, and was in the queue before
    obtain ⟨n, hn, hz, hle⟩ := hzero m hm
    have hold : n ∈ s.queue.timers := by
      rcases htimers n hn with hold | hpos
      · exact hold
      · exact absurd hz (ne_of_gt hpos)
    exact (h.covered n hold (Or.inr hz)).mono hle

/-- A functor is taken. -/
lemma take (h : s.Timely) : Timely { s with functors := s.functors.take .loopThread } :=
  h.of_le h.heap (fun _ hn => hn) le_rfl rfl rfl rfl

end Timely

/-! ## Every run -/

lemma step_timely (h : s.Timely) (i : ThreadInput) (hi : s.step i = .ok t) : t.Timely := by
  cases step_outcome hi with
  | nothing => exact h
  | tick d =>
    exact h.of_le h.heap (fun _ hn => hn) (Int.le_add_of_nonneg_right (Int.natCast_nonneg d))
      rfl rfl rfl
  | addTimer _ hadd => exact h.addTimer (Int.natCast_nonneg _) (Int.natCast_nonneg _) hadd
  | cancel _ hcancel => exact h.cancelInLoop hcancel
  | handleTimerfdRead _ hread => exact h.handleTimerfdRead hread
  | callBack hphase _ => exact h.callBack hphase _
  | endBatch hphase hreset => exact h.endBatch hphase hreset
  | swap _ => exact h.of_le h.heap (fun _ hn => hn) le_rfl rfl rfl rfl
  | runAdd _ _ hadd => exact h.take.addTimerInLoop hadd
  | runCancel _ _ hcancel => exact h.take.cancelInLoop hcancel
  | remoteNew _ =>
    refine h.of_le (h.heap.update (fun tm htm => ?_) rfl) (fun _ hn => hn) le_rfl rfl rfl rfl
    cases htm
    exact ⟨Int.natCast_nonneg _, Int.natCast_nonneg _⟩
  | remotePush _ => exact h.of_le h.heap (fun _ hn => hn) le_rfl rfl rfl rfl
  | remoteReturn _ => exact h.of_le h.heap (fun _ hn => hn) le_rfl rfl rfl rfl
  | remoteCancel _ => exact h.of_le h.heap (fun _ hn => hn) le_rfl rfl rfl rfl
  | createElsewhere => exact h.of_le h.heap (fun _ hn => hn) le_rfl rfl rfl rfl

/-- The timerfd was set and has not expired. -/
def Armed (s : TimerThreads) : Prop := ∃ a, s.timerfd = some a ∧ s.clock < a.deadline

/-- The timerfd has expired and was not read. -/
def Readable (s : TimerThreads) : Prop := ∃ a, s.timerfd = some a ∧ a.deadline ≤ s.clock

/-- Between batches, a queue that is not empty has a timerfd that goes off in time for its
earliest timer; and nothing written to the timerfd disarms it or is malformed. -/
structure NotStranded (s : TimerThreads) : Prop where
  set : ∀ n, s.inCallback = false → s.queue.timers.first? = some n → s.Armed ∨ s.Readable
  deadline : ∀ n a, s.inCallback = false → s.queue.timers.first? = some n →
    s.timerfd = some a → a.deadline ≤ max n.when (a.armedAt + 100)
  written : ∀ v ∈ s.written, v.Valid

lemma Timely.notStranded (h : s.Timely) : s.NotStranded where
  set := by
    intro n hphase hn
    obtain ⟨a, ha, -⟩ := h.covered n (OrderedSet.first?_eq_some hn).1 (Or.inl hphase)
    rcases lt_or_ge s.clock a.deadline with hlt | hge
    · exact Or.inl ⟨a, ha, hlt⟩
    · exact Or.inr ⟨a, ha, hge⟩
  deadline := by
    intro n a hphase hn ha
    obtain ⟨b, hb, hle⟩ := h.covered n (OrderedSet.first?_eq_some hn).1 (Or.inl hphase)
    cases ha.symm.trans hb
    exact hle
  written := h.written

/-- In every state a run passes, no timer is stranded. -/
def NeverStranded : RunSpec TimerThreads Fault where
  good := NotStranded
  move := fun _ _ => True
  stop := fun _ => True

/-- **No timer is stranded**, whatever is added and cancelled by the loop thread, by callbacks
and by other threads, at any times.  The clock is past the epoch, which is the invalid time. -/
theorem timers_never_stranded (n : ℕ) {clock : Timestamp} (hclock : 0 < clock)
    (is : List ThreadInput) : machine.Meets NeverStranded (start n clock) is := by
  refine Machine.meets_of_along machine (P := fun _ _ => True) (I := Timely) ?_ ?_ ?_
    (start_timely n hclock) (Machine.along_of_forall machine (fun _ _ => trivial) _ _)
  · intro s h
    exact h.notStranded
  · intro s i t h _ hi
    exact ⟨step_timely h i hi, trivial⟩
  · intro s i e _ _ _
    trivial

/-- A callback adds a timer for the time zero while the queue is not empty. -/
theorem timers_never_stranded_zero :
    machine.Meets NeverStranded (start 0 1000000)
      [.addTimer 8 1000500 0 false, .addTimer 16 9000000 0 false, .tick 600, .handleTimerfdRead,
        .next, .addTimer 24 0 0 false, .addTimer 32 0 1000 true, .next, .tick 200,
        .handleTimerfdRead, .next, .next, .next] :=
  timers_never_stranded 0 (by decide) _

end TimerThreads

end Firey
