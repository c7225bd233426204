import Firey.Logger.TimePrefix

/-!
# The end of a log record

`finish` writes the source line and the newline behind the message, into the same bounded stream.
Text that does not fit is cut off, and a line number is left out where fewer than
`kMaxNumericSize` octets are left, so a long message loses the end of the record.
-/

set_option autoImplicit false

namespace Firey

namespace LogStream

variable {s : LogStream}

/-- Appended text, with all that is behind the array cut off. -/
lemma append_text (h : s.Fits) (buf : Bytes) :
    ∃ t, s.append buf = .ok t ∧ t.Fits ∧ t.text = (s.text ++ buf).take kSmallBuffer := by
  obtain ⟨t, ht, hfits, htext⟩ := append_spec h buf
  have hwhole : s.text.take kSmallBuffer = s.text :=
    List.take_of_length_le ((length_text h).trans_le h)
  exact ⟨t, ht, hfits, by rw [htext, List.take_append, length_text h, hwhole]⟩

lemma append_fits (h : s.Fits) {buf : Bytes} {t : LogStream} (ht : s.append buf = .ok t) :
    t.Fits := by
  obtain ⟨t', ht', hfits, -⟩ := append_spec h buf
  rw [ht] at ht'
  cases ht'
  exact hfits

/-- What `formatInteger` appends. -/
def integerText (s : LogStream) (v : ℤ) : Bytes :=
  if kMaxNumericSize ≤ s.avail ∧ v ≠ 0 then decimalText v else []

lemma insertInt_text (h : s.Fits) (v : BitVec 32) :
    ∃ t, s.insertInt v = .ok t ∧ t.Fits ∧ t.text = s.text ++ s.integerText v.toInt := by
  by_cases hroom : kMaxNumericSize ≤ s.avail
  · obtain ⟨t, ht, hfits, htext⟩ := formatInteger_spec hroom (natAbs_toInt_lt v (by decide))
    refine ⟨t, ht, hfits, ?_⟩
    rw [htext, integerText]
    by_cases hzero : v.toInt = 0
    · rw [if_pos hzero, if_neg fun h => h.2 hzero]
    · rw [if_neg hzero, if_pos ⟨hroom, hzero⟩]
  · refine ⟨s, if_neg hroom, h, ?_⟩
    rw [integerText, if_neg fun h => hroom h.1, List.append_nil]

end LogStream

namespace Logger

/-- What `finish` writes in front of the line number. -/
def front (l : Logger) : Bytes := octets " - ".toList ++ l.basename ++ octets ":".toList

/-- The suffix of a record: `" - <file>:<line>"` and a newline. -/
def suffix (l : Logger) : Bytes := l.front ++ decimalText l.line.toInt ++ octets "\n".toList

variable {l : Logger}

lemma take_append_take {xs ys : Bytes} {n : ℕ} : (xs.take n ++ ys).take n = (xs ++ ys).take n := by
  rw [List.take_append, List.take_append, List.take_take, Nat.min_self, List.length_take]
  rcases Nat.le_total n xs.length with hle | hle
  · rw [Nat.min_eq_left hle, Nat.sub_self, Nat.sub_eq_zero_of_le hle]
  · rw [Nat.min_eq_right hle]

/-- **What `finish` leaves in the stream**: the line number depends on how much is in front. -/
lemma finish_spec (h : l.stream.Fits) :
    ∃ (s : LogStream) (l' : Logger), s.text = (l.stream.text ++ l.front).take kSmallBuffer ∧
      s.Fits ∧ l.finish = .ok l' ∧
      l'.stream.text =
        (s.text ++ s.integerText l.line.toInt ++ octets "\n".toList).take kSmallBuffer := by
  obtain ⟨s, hs, hfits, htext⟩ := LogStream.append_text h (octets " - ".toList)
  obtain ⟨t, ht, hfits', htext'⟩ := LogStream.append_text hfits l.basename
  obtain ⟨u, hu, hfits'', htext''⟩ := LogStream.append_text hfits' (octets ":".toList)
  obtain ⟨v, hv, hfits''', htext'''⟩ := LogStream.insertInt_text hfits'' l.line
  obtain ⟨w, hw, -, htextw⟩ := LogStream.append_text hfits''' (octets "\n".toList)
  refine ⟨u, { l with stream := w }, ?_, hfits'', ?_, by rw [htextw, htext''']⟩
  · rw [htext'', htext', htext, take_append_take, List.append_assoc, take_append_take, front]
    simp only [List.append_assoc]
  · simp only [finish, LogStream.insertCString, hs, ht, hu, hv, hw, ok_bind]

/-- The output ends with the suffix that `finish` writes. -/
def Terminated (l : Logger) : Prop :=
  ∃ r, l.destructor = .ok r ∧ r.output = l.stream.text ++ l.suffix

/-- There is room for the suffix, with a number of the greatest length, and the number is written. -/
def Room (l : Logger) : Prop :=
  l.stream.cur_ + l.front.length + 32 ≤ kSmallBuffer ∧ l.line ≠ 0

/-- The number of an `int` has a digit, and no more than 11 characters. -/
lemma length_decimalText_int (v : BitVec 32) :
    0 < (decimalText v.toInt).length ∧ (decimalText v.toInt).length ≤ 11 := by
  obtain ⟨d, rest, hcanonical, -⟩ := decimalText_canonical v.toInt
  have hlen := length_decimalText_le (v := v.toInt) (k := 10) (by decide) (by
    have hlow := v.le_toInt
    have hhigh := v.toInt_lt
    omega)
  refine ⟨?_, by split at hlen <;> omega⟩
  rw [hcanonical, List.length_append, List.length_cons]
  omega

/-- The number is written where there is room for the suffix. -/
lemma written_iff_room (h : l.stream.Fits) {s : LogStream} (hfits : s.Fits)
    (hs : s.text = (l.stream.text ++ l.front).take kSmallBuffer) :
    LogStream.kMaxNumericSize ≤ s.avail ∧ l.line.toInt ≠ 0 ↔ l.Room := by
  have hcur := congrArg List.length hs
  rw [LogStream.length_text hfits, List.length_take, List.length_append,
    LogStream.length_text h] at hcur
  have hroom : LogStream.kMaxNumericSize ≤ s.avail ↔
      l.stream.cur_ + l.front.length + 32 ≤ kSmallBuffer := by
    unfold LogStream.kMaxNumericSize LogStream.avail kSmallBuffer at *
    omega
  have hzero : l.line.toInt = 0 ↔ l.line = 0 := by
    rw [← BitVec.toInt_inj]
    rfl
  rw [hroom, ne_eq, hzero]
  rfl

/-- **The suffix is whole** exactly where there is room for it. -/
lemma terminated_iff (h : l.stream.Fits) : l.Terminated ↔ l.Room := by
  obtain ⟨s, l', hs, hfits, hl', htext⟩ := l.finish_spec h
  have houtput : l.Terminated ↔ l'.stream.text = l.stream.text ++ l.suffix := by
    unfold Terminated
    rw [destructor, hl', ok_bind]
    exact ⟨fun ⟨r, hr, houtput⟩ => by rw [← houtput, ← Except.ok.inj hr], fun h => ⟨_, rfl, h⟩⟩
  have hnumber := length_decimalText_int l.line
  have hnewline : (octets "\n".toList).length = 1 := rfl
  have hwritten := written_iff_room h hfits hs
  rw [houtput, htext, LogStream.integerText]
  by_cases hfree : l.Room
  · refine iff_of_true ?_ hfree
    have hfront := hfree.1
    rw [List.take_of_length_le (by rw [List.length_append, LogStream.length_text h]; omega)] at hs
    rw [if_pos (hwritten.mpr hfree), hs, suffix, List.take_of_length_le]
    · simp only [List.append_assoc]
    · rw [List.length_append, List.length_append, List.length_append, LogStream.length_text h,
        hnewline]
      omega
  · -- without the number, the output is too short
    refine iff_of_false (fun heq => ?_) hfree
    have hshort := congrArg List.length heq
    have hcur := congrArg List.length hs
    rw [List.length_take, List.length_append, LogStream.length_text h] at hcur
    rw [if_neg fun hw => hfree (hwritten.mp hw), List.append_nil, List.length_take, suffix] at hshort
    simp only [List.length_append, LogStream.length_text h] at hshort
    omega

/-! ## Statements -/

lemma insertHelper_fits {s t : LogStream} (h : s.Fits) {str : Bytes} {len : ℕ}
    (ht : insertHelper s str len = .ok t) : t.Fits := by
  obtain ⟨-, -, ht⟩ := bind_eq_ok ht
  exact LogStream.append_fits h ht

lemma formatTime_fits {times times' : TimeCache} {s t : LogStream} {now : ℕ} (h : s.Fits)
    (ht : formatTime times s now = .ok (times', t)) : t.Fits := by
  obtain ⟨cache, -, ht⟩ := bind_eq_ok ht
  obtain ⟨us, -, ht⟩ := bind_eq_ok ht
  obtain ⟨-, -, ht⟩ := bind_eq_ok ht
  obtain ⟨s₁, h₁, ht⟩ := bind_eq_ok ht
  obtain ⟨s₂, h₂, ht⟩ := bind_eq_ok ht
  cases ht
  exact insertHelper_fits (insertHelper_fits h h₁) h₂

/-- What `errno` says is put in front of the message. -/
lemma impl_fits {ctx ctx' : LogContext} {level : LogLevel} {savedErrno : BitVec 32} {file : Bytes}
    {line : BitVec 32} {l : Logger}
    (hl : impl ctx level savedErrno file line = .ok (ctx', l)) : l.stream.Fits := by
  have hctor : (LogStream.ctor ctx.data_).Fits := Nat.zero_le _
  obtain ⟨⟨times, s₁⟩, h₁, hl⟩ := bind_eq_ok hl
  obtain ⟨s₂, h₂, hl⟩ := bind_eq_ok hl
  obtain ⟨s₃, h₃, hl⟩ := bind_eq_ok hl
  have hfits := insertHelper_fits (insertHelper_fits (formatTime_fits hctor h₁) h₂) h₃
  dsimp only at hl
  split at hl
  · obtain ⟨t₁, k₁, hl⟩ := bind_eq_ok hl
    obtain ⟨t₂, k₂, hl⟩ := bind_eq_ok hl
    obtain ⟨t₃, k₃, hl⟩ := bind_eq_ok hl
    obtain ⟨t₄, k₄, hl⟩ := bind_eq_ok hl
    cases hl
    have hfits₂ := LogStream.append_fits (LogStream.append_fits hfits k₁) k₂
    obtain ⟨t, ht, hfits₃, -⟩ := LogStream.insertInt_text hfits₂ savedErrno
    rw [ht] at k₃
    cases k₃
    exact LogStream.append_fits hfits₃ k₄
  · cases hl
    exact hfits

/-- **Every statement** begins with a stream that fits. -/
lemma construct_fits {ctx ctx' : LogContext} {call : LoggerCall} {l : Logger}
    (hl : call.construct ctx = .ok (ctx', l)) : l.stream.Fits := by
  cases call with
  | info file line => exact impl_fits hl
  | leveled file line level => exact impl_fits hl
  | withErrno file line toAbort => exact impl_fits hl
  | inFunction file line level func =>
    obtain ⟨⟨ctx₁, l₁⟩, h₁, hl⟩ := bind_eq_ok hl
    obtain ⟨s₂, h₂, hl⟩ := bind_eq_ok hl
    obtain ⟨s₃, h₃, hl⟩ := bind_eq_ok hl
    cases hl
    exact LogStream.append_fits (LogStream.append_fits (impl_fits h₁) h₂) h₃

/-- Where the time can be written and the thread has its number, the stream begins with the time,
the number and the level. -/
lemma info_spec {ctx : LogContext} (hnow : FourDigitYear (ctx.now / Timestamp.kusPerSecond))
    (htimes : ctx.times.Formatted ∨ ctx.now / Timestamp.kusPerSecond ≠ ctx.times.t_lastSecond)
    (htid : ctx.locals.cachedTid ≠ 0) (hstring : ctx.locals.tidString.length = 6)
    (hlength : ctx.locals.tidStringLength = 6) (file : Bytes) (line : BitVec 32) :
    ∃ ctx' s, (LoggerCall.info file line).construct ctx =
        .ok (ctx', ⟨s, .INFO, line, sourceFile file⟩) ∧
      s.Fits ∧ s.text = freshPrefix ctx.now ++ ctx.locals.tidString ++ LogLevel.INFO.name := by
  obtain ⟨s, hs, hfits, htext⟩ := formatTime_spec hnow htimes ctx.data_
  have hprefix : (freshPrefix ctx.now).length = 25 := by
    rw [freshPrefix, List.length_append, length_secondsText hnow,
      length_microsecondsText (Nat.mod_lt _ (by decide))]
  have hcur : s.cur_ = 25 := by
    rw [← LogStream.length_text hfits, htext, hprefix]
  obtain ⟨t, ht, hfits', htext'⟩ := insertHelper_spec hfits ctx.locals.tidString (by
    rw [hcur, hstring]
    decide)
  have hcur' : t.cur_ = 31 := by
    rw [← LogStream.length_text hfits', htext', htext, List.length_append, hprefix, hstring]
  obtain ⟨u, hu, hfits'', htext''⟩ := insertHelper_spec hfits' LogLevel.INFO.name (by
    rw [hcur']
    decide)
  have hlocals : ctx.locals.afterTid ctx.gettid = ctx.locals := if_neg htid
  rw [hstring] at ht
  have hname : LogLevel.INFO.name.length = 6 := rfl
  rw [hname] at hu
  refine ⟨{ ctx with
    times := ⟨secondsText (ctx.now / Timestamp.kusPerSecond), ctx.now / Timestamp.kusPerSecond⟩ }, u,
    ?_, hfits'', by rw [htext'', htext', htext]⟩
  simp only [LoggerCall.construct, impl, hs, ok_bind, hlocals, hlength, ht, hu, ne_eq,
    not_true_eq_false, if_false]

/-- A message that fills the stream leaves nothing of what `finish` writes. -/
lemma destructor_of_full (h : l.stream.cur_ = kSmallBuffer) :
    ∃ r, l.destructor = .ok r ∧ r.output = l.stream.text := by
  have hfits : l.stream.Fits := h.le
  obtain ⟨s, l', hs, hfits', hl', htext⟩ := finish_spec hfits
  have hlen : l.stream.text.length = kSmallBuffer := (LogStream.length_text hfits).trans h
  rw [List.take_left' hlen] at hs
  rw [hs, List.append_assoc, List.take_left' hlen] at htext
  exact ⟨_, by rw [destructor, hl', ok_bind], htext⟩

/-- **A record is terminated** exactly when its message leaves room for the suffix. -/
theorem terminated_iff_room (g12 : BitVec 64 → Bytes) (hg12 : ∀ v, (g12 v).length ≤ 31)
    {ctx ctx' : LogContext} {call : LoggerCall} (hl : call.construct ctx = .ok (ctx', l))
    (items : List LogItem) :
    ∃ s, (LogStream.machine g12).run l.stream items = .ok s ∧
      ({ l with stream := s }.Terminated ↔ { l with stream := s }.Room) := by
  obtain ⟨s, hrun, hfits⟩ := (LogStream.machine g12).run_total
    (fun s item h => LogStream.insertItem_fits h hg12 item) (construct_fits hl) items
  exact ⟨s, hrun, terminated_iff hfits⟩

/-- In the second 1, by the thread 100. -/
def sampleContext : LogContext where
  times := .initial
  locals := ⟨100, octets "main".toList, octets "  100 ".toList, 6⟩
  gettid := 100
  now := 1000000
  errno := 0
  strerror := []
  data_ := LogStream.empty.data_

lemma sample_spec (file : Bytes) (line : BitVec 32) :
    ∃ ctx' s, (LoggerCall.info file line).construct sampleContext =
        .ok (ctx', ⟨s, .INFO, line, sourceFile file⟩) ∧ s.Fits ∧ s.cur_ = 37 := by
  have hnow : FourDigitYear (sampleContext.now / Timestamp.kusPerSecond) :=
    fourDigitYear_of_le (by decide)
  obtain ⟨ctx', s, hl, hfits, htext⟩ := info_spec hnow (Or.inr (by decide)) (by decide)
    (by decide) rfl file line
  refine ⟨ctx', s, hl, hfits, ?_⟩
  rw [← LogStream.length_text hfits, htext, freshPrefix, List.length_append, List.length_append,
    List.length_append, length_secondsText hnow,
    length_microsecondsText (Nat.mod_lt _ (by decide))]
  rfl

/-- A short message. -/
theorem terminated_iff_room_short :
    ∃ ctx' l s, (LoggerCall.info (octets "net/main.cpp".toList) 12).construct sampleContext =
        .ok (ctx', l) ∧
      (LogStream.machine fun _ => octets "1.5".toList).run l.stream [.string (octets "up".toList)] =
        .ok s ∧ ({ l with stream := s }.Terminated ↔ { l with stream := s }.Room) := by
  obtain ⟨ctx', s, hl, -, -⟩ := sample_spec (octets "net/main.cpp".toList) 12
  obtain ⟨t, hrun, hiff⟩ := terminated_iff_room (fun _ => octets "1.5".toList)
    (fun _ => by decide) hl [.string (octets "up".toList)]
  exact ⟨ctx', _, t, hl, hrun, hiff⟩

/-- A message of 4000 characters: the record ends in the middle of it, without a newline. -/
theorem long_record_unterminated :
    ∃ ctx' l s r, (LoggerCall.info (octets "net/main.cpp".toList) 12).construct sampleContext =
        .ok (ctx', l) ∧
      (LogStream.machine fun _ => octets "1.5".toList).run l.stream
        [.string (List.replicate 4000 120)] = .ok s ∧
      { l with stream := s }.destructor = .ok r ∧ ¬ l.suffix <:+ r.output ∧
      r.output.getLast? = some 120 := by
  obtain ⟨ctx', s, hl, hfits, hcur⟩ := sample_spec (octets "net/main.cpp".toList) 12
  obtain ⟨t, ht, hfits', htext⟩ := LogStream.append_spec hfits (List.replicate 4000 120)
  have hfull : t.cur_ = kSmallBuffer := by
    rw [← LogStream.length_text hfits', htext, List.length_append, LogStream.length_text hfits,
      hcur, List.length_take, List.length_replicate]
    rfl
  obtain ⟨r, hr, houtput⟩ := destructor_of_full
    (l := ⟨t, .INFO, 12, sourceFile (octets "net/main.cpp".toList)⟩) hfull
  have hlast : r.output.getLast? = some 120 := by
    rw [houtput, htext, hcur, List.take_replicate, List.getLast?_append, List.getLast?_replicate,
      if_neg (by decide), Option.some_or]
  have hstep : (LogStream.machine fun _ => octets "1.5".toList).step s
      (.string (List.replicate 4000 120)) = .ok t := ht
  refine ⟨ctx', _, t, r, hl, ?_, hr, ?_, hlast⟩
  · rw [Machine.run_cons_ok _ hstep, Machine.run_nil]
  rintro ⟨front, hfront⟩
  rw [← hfront, suffix, ← List.append_assoc, List.getLast?_append] at hlast
  cases hlast

end Logger

end Firey
