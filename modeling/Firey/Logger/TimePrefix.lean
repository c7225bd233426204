import Firey.Logger.Logging

/-!
# The cached time of a log record

`formatTime` formats the time up to the second only when the second is not that of the last record
of the thread.  What it keeps belongs to the second it keeps (`TimeCache.Formatted`) as soon as it
has formatted one, and then the cached text is that of any record of the same second.  Before, it
has the second 0 and no text.
-/

set_option autoImplicit false

namespace Firey

/-- The text belongs to the second. -/
def TimeCache.Formatted (times : TimeCache) : Prop :=
  FourDigitYear times.t_lastSecond ∧ times.t_time = Logger.secondsText times.t_lastSecond

namespace Logger

/-- The time as it is formatted from scratch. -/
def freshPrefix (microSecondsSinceEpoch : ℕ) : Bytes :=
  secondsText (microSecondsSinceEpoch / Timestamp.kusPerSecond) ++
    microsecondsText (microSecondsSinceEpoch % Timestamp.kusPerSecond)

variable {seconds : ℕ}

lemma length_secondsText (h : FourDigitYear seconds) : (secondsText seconds).length = 17 :=
  length_dateTimeText h _ _ _

lemma length_microsecondsText {us : ℕ} (h : us < Timestamp.kusPerSecond) :
    (microsecondsText us).length = 8 := by
  have hpadded : zeroPadded 6 us = fixedText 6 us := zeroPadded_eq 5 h
  rw [microsecondsText, hpadded, List.length_append, List.length_append, length_fixedText]
  rfl

/-- **Whether it is cached or not**, the text is that of the second. -/
lemma refresh_spec {times : TimeCache} (h : FourDigitYear seconds)
    (htimes : times.Formatted ∨ seconds ≠ times.t_lastSecond) :
    refresh times seconds = .ok ⟨secondsText seconds, seconds⟩ := by
  have hlen := length_secondsText h
  unfold refresh
  split
  next hnew =>
    rw [check_true hlen, ok_bind, snprintf_of_lt (by omega)]
  next hsame =>
    rw [ne_eq, not_not] at hsame
    obtain ⟨-, htext⟩ := htimes.resolve_right (not_not.mpr hsame)
    rw [hsame, ← htext]

lemma insertHelper_spec {s : LogStream} (h : s.Fits) (str : Bytes)
    (hroom : s.cur_ + str.length ≤ kSmallBuffer) :
    ∃ t, insertHelper s str str.length = .ok t ∧ t.Fits ∧ t.text = s.text ++ str := by
  rw [insertHelper, check_true rfl, ok_bind, List.take_length]
  exact LogStream.append_whole h hroom

/-- A text of another length than is said fails the assertion. -/
lemma insertHelper_fails {s : LogStream} {str : Bytes} {len : ℕ} (h : str.length ≠ len) :
    insertHelper s str len = .error (.assertion .helper) := by
  rw [insertHelper, check_false h, error_bind]

/-- **`formatTime`** in a new stream, from a cache that is up to date or about to be. -/
lemma formatTime_spec {times : TimeCache} {now : ℕ}
    (h : FourDigitYear (now / Timestamp.kusPerSecond))
    (htimes : times.Formatted ∨ now / Timestamp.kusPerSecond ≠ times.t_lastSecond)
    (data_ : CharArray kSmallBuffer) :
    ∃ s, formatTime times (.ctor data_) now =
        .ok (⟨secondsText (now / Timestamp.kusPerSecond), now / Timestamp.kusPerSecond⟩, s) ∧
      s.Fits ∧ s.text = freshPrefix now := by
  have hseconds := length_secondsText h
  have hmicro : (microsecondsText (now % Timestamp.kusPerSecond)).length = 8 :=
    length_microsecondsText (Nat.mod_lt _ (by decide))
  have hctor : (LogStream.ctor data_).Fits := Nat.zero_le _
  have hempty : (LogStream.ctor data_).text = [] := window_self _ _
  obtain ⟨s, hs, hfits, htext⟩ := insertHelper_spec hctor
    (secondsText (now / Timestamp.kusPerSecond)) (by
      rw [hseconds]
      exact (by decide : 0 + 17 ≤ kSmallBuffer))
  rw [hempty, List.nil_append] at htext
  have hcur : s.cur_ = 17 := by
    rw [← LogStream.length_text hfits, htext, hseconds]
  obtain ⟨t, ht, hfits', htext'⟩ := insertHelper_spec hfits
    (microsecondsText (now % Timestamp.kusPerSecond)) (by
      rw [hmicro, hcur]
      decide)
  rw [hseconds] at hs
  rw [hmicro] at ht
  refine ⟨t, ?_, hfits', by rw [htext', htext]; rfl⟩
  rw [formatTime, refresh_spec h htimes, ok_bind, fmt, check_true (by omega), ok_bind]
  simp only [ok_bind, hmicro, check_true, hs, ht, snprintf_of_lt (show _ < 32 by rw [hmicro]; decide)]

end Logger

/-- The records of one thread, each with its time and what `formatTime` wrote. -/
structure TimeHistory where
  times : TimeCache
  records : List (ℕ × Bytes)

namespace TimeHistory

/-- The thread begins. -/
def start : TimeHistory := ⟨.initial, []⟩

/-- A record is made at the time `i.1`, with the storage `i.2` for its stream. -/
def step (h : TimeHistory) (i : ℕ × CharArray kSmallBuffer) : Except Fault TimeHistory := do
  let (times, s) ← Logger.formatTime h.times (.ctor i.2) i.1
  .ok ⟨times, h.records ++ [(i.1, s.text)]⟩

def machine : Machine TimeHistory (ℕ × CharArray kSmallBuffer) Fault := ⟨step⟩

/-- The records have the times they would have had without the cache, and no assertion fails. -/
def Fresh : RunSpec TimeHistory Fault where
  good h := ∀ r ∈ h.records, r.2 = Logger.freshPrefix r.1
  move _ _ := True
  stop _ := False

/-- A record whose second is not that of a cache without text. -/
lemma step_fresh {h : TimeHistory} (hgood : Fresh.good h) {i : ℕ × CharArray kSmallBuffer}
    (hi : FourDigitYear (i.1 / Timestamp.kusPerSecond))
    (htimes : h.times.Formatted ∨ i.1 / Timestamp.kusPerSecond ≠ h.times.t_lastSecond) :
    ∃ h', step h i = .ok h' ∧ h'.times.Formatted ∧ Fresh.good h' := by
  obtain ⟨s, hs, -, htext⟩ := Logger.formatTime_spec hi htimes i.2
  refine ⟨⟨⟨Logger.secondsText (i.1 / Timestamp.kusPerSecond), i.1 / Timestamp.kusPerSecond⟩,
    h.records ++ [(i.1, s.text)]⟩, by rw [step, hs, ok_bind], ⟨hi, rfl⟩, fun r hr => ?_⟩
  rcases List.mem_append.mp hr with hr | hr
  · exact hgood r hr
  · rw [List.mem_singleton.mp hr]
    exact htext

/-- From a cache with a text on, every record is right. -/
lemma meets_of_formatted {h : TimeHistory} (hgood : Fresh.good h) (htimes : h.times.Formatted)
    {is : List (ℕ × CharArray kSmallBuffer)}
    (his : ∀ i ∈ is, FourDigitYear (i.1 / Timestamp.kusPerSecond)) : machine.Meets Fresh h is := by
  refine machine.meets_of_sound (P := fun _ i => FourDigitYear (i.1 / Timestamp.kusPerSecond))
    (I := fun h => Fresh.good h ∧ h.times.Formatted) (fun _ h => h.1) ?_ ⟨hgood, htimes⟩
    (machine.along_of_mem (fun i hi _ => his i hi) h)
  rintro h i ⟨hgood, htimes⟩ hi
  change Fresh.Sound _ h (step h i)
  obtain ⟨h', hstep, htimes', hgood'⟩ := step_fresh hgood hi (Or.inl htimes)
  rw [hstep]
  exact ⟨⟨hgood', htimes'⟩, trivial⟩

/-- In the second 0 a thread finds a cache for this second, without a text. -/
lemma step_epoch {i : ℕ × CharArray kSmallBuffer} (hi : i.1 < Timestamp.kusPerSecond) :
    step start i = .error (.assertion .helper) := by
  have hsecond : i.1 / Timestamp.kusPerSecond = 0 := Nat.div_eq_of_lt hi
  have hmicro : (Logger.microsecondsText (i.1 % Timestamp.kusPerSecond)).length = 8 :=
    Logger.length_microsecondsText (Nat.mod_lt _ (by decide))
  have hrefresh : Logger.refresh TimeCache.initial 0 = .ok .initial :=
    if_neg fun h => h rfl
  have hhelper : Logger.insertHelper (.ctor i.2) TimeCache.initial.t_time 17 =
      .error (.assertion .helper) := Logger.insertHelper_fails (by decide)
  simp only [step, Logger.formatTime, start, hsecond, hrefresh, ok_bind, Logger.fmt, hmicro,
    check_true, hhelper, error_bind, show 8 < 32 by decide]

/-- **The cached time is the fresh one**, in each record of a thread, exactly when the first of them
is not made in the second 0. -/
theorem cached_fresh_iff {is : List (ℕ × CharArray kSmallBuffer)}
    (his : ∀ i ∈ is, FourDigitYear (i.1 / Timestamp.kusPerSecond)) :
    machine.Meets Fresh start is ↔ ∀ i ∈ is.head?, Timestamp.kusPerSecond ≤ i.1 := by
  cases is with
  | nil => exact iff_of_true (fun r hr => nomatch hr) nofun
  | cons i is =>
    have hgood : Fresh.good start := fun r hr => nomatch hr
    constructor
    · rintro ⟨-, hmeets⟩ j hj
      cases hj
      by_contra hlt
      rw [show machine.step start i = _ from step_epoch (Nat.lt_of_not_le hlt)] at hmeets
      exact hmeets
    · intro hfirst
      have hlate : i.1 / Timestamp.kusPerSecond ≠ 0 :=
        (Nat.div_pos (hfirst i rfl) (by decide)).ne'
      obtain ⟨h, hstep, htimes, hgood'⟩ :=
        step_fresh hgood (his i List.mem_cons_self) (Or.inr hlate)
      refine ⟨hgood, ?_⟩
      rw [show machine.step start i = _ from hstep]
      exact ⟨trivial, meets_of_formatted hgood' htimes fun j hj => his j (List.mem_cons_of_mem i hj)⟩

/-- The clock is set back, and the second 0 comes after another one. -/
theorem cached_fresh_iff_setBack :
    machine.Meets Fresh start [(1700000000999999, LogStream.empty.data_),
      (1700000000000001, LogStream.empty.data_), (7, LogStream.empty.data_)] := by
  refine (cached_fresh_iff fun i hi => fourDigitYear_of_le ?_).mpr ?_
  · simp only [List.mem_cons, List.not_mem_nil, or_false] at hi
    rcases hi with rfl | rfl | rfl <;> decide
  · rintro i ⟨⟩
    decide

/-- The first record of a thread is made at the epoch. -/
theorem epoch_fails :
    machine.run start [(0, LogStream.empty.data_)] = .error (.assertion .helper) ∧
      ¬ machine.Meets Fresh start [(0, LogStream.empty.data_)] := by
  have hrun : machine.run start [(0, LogStream.empty.data_)] = .error (.assertion .helper) :=
    machine.run_cons_error (step_epoch (by decide)) []
  exact ⟨hrun, fun hmeets => hmeets.stop_of_run machine hrun⟩

end TimeHistory

end Firey
