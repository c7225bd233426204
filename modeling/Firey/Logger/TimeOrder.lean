import Firey.Logger.LogFile
import Firey.Logger.TimePrefix

/-!
# Whether rendered times sort like the times

The fields of a rendered time have fixed widths, so the texts sort as octets like the shown fields.
These are the date of the day in UTC and a clock that runs 8 hours ahead and wraps: from 16:00 UTC on
it begins again, but the date does not go on.  So two times of one day are in the wrong order when
the clock wraps in between, and no other ones are.
-/

set_option autoImplicit false

namespace Firey

/-! ## The shown fields -/

section Fields

variable {seconds s t : ℕ}

lemma clockFields_lt_iff {x y : ℕ} : clockFields x < clockFields y ↔ x < y := by
  have hhour : ∀ z, z / 3600 = z / 60 / 60 := fun z => (Nat.div_div_eq_div_mul z 60 60).symm
  have hless : x / 60 / 60 < y / 60 / 60 ∨ x / 60 / 60 = y / 60 / 60 ∧ x / 60 % 60 < y / 60 % 60 ↔
      x / 60 < y / 60 := by omega
  have hsame : x / 60 / 60 = y / 60 / 60 ∧ x / 60 % 60 = y / 60 % 60 ↔ x / 60 = y / 60 := by omega
  have hsplit : x < y ↔ x / 60 < y / 60 ∨ x / 60 = y / 60 ∧ x % 60 < y % 60 := by omega
  unfold clockFields
  rw [List.cons_lt_cons_iff, List.cons_lt_cons_iff, List.cons_lt_cons_iff, hhour, hhour, hsplit,
    ← hless, ← hsame]
  simp only [List.not_lt_nil, and_false, or_false]
  rw [and_or_left, ← or_assoc, ← and_assoc]

lemma clockFields_inj {x y : ℕ} : clockFields x = clockFields y ↔ x = y := by
  simp only [clockFields, List.cons.injEq, and_true]
  omega

/-- The day decides, and on one day the clock. -/
lemma shownFields_lt_iff : shownFields s < shownFields t ↔
    s / 86400 < t / 86400 ∨ s / 86400 = t / 86400 ∧ shownClock s < shownClock t := by
  unfold shownFields
  rw [append_lt_append_iff (Date.length_fields_eq _ _), Date.fields_lt_iff, Date.fields_eq_iff,
    clockFields_lt_iff]

/-- **Different seconds** are shown differently. -/
lemma shownFields_inj : shownFields s = shownFields t ↔ s = t := by
  unfold shownFields
  rw [append_eq_append_iff_of_length (Date.length_fields_eq _ _), Date.fields_eq_iff,
    clockFields_inj]
  unfold shownClock
  omega

/-- The fields of the local time that is 8 hours ahead. -/
def localFields (seconds : ℕ) : List ℕ :=
  (dateAfter 1970 ((seconds + 8 * 3600) / 86400)).fields ++
    clockFields ((seconds + 8 * 3600) % 86400)

/-- Before 16:00, in UTC. -/
def BeforeWrap (seconds : ℕ) : Prop := seconds % 86400 < 16 * 3600

/-- **The local time** is shown up to 16:00 UTC. -/
lemma shownFields_eq_localFields_iff :
    shownFields seconds = localFields seconds ↔ BeforeWrap seconds := by
  unfold shownFields localFields
  rw [append_eq_append_iff_of_length (Date.length_fields_eq _ _), Date.fields_eq_iff,
    clockFields_inj]
  unfold shownClock BeforeWrap
  omega

/-- The clock wraps between two times of a day. -/
def WrapsBetween (s t : ℕ) : Prop := s / 86400 = t / 86400 ∧ BeforeWrap s ∧ ¬ BeforeWrap t

/-- The fields are in the wrong order where the clock wraps in between. -/
lemma shownFields_gt_iff (h : s ≤ t) : shownFields t < shownFields s ↔ WrapsBetween s t := by
  rw [shownFields_lt_iff]
  unfold WrapsBetween BeforeWrap shownClock
  omega

end Fields

/-! ## The texts -/

/-- The functions that render a time. -/
inductive Rendering
  | formatTime
  | toFormatString (show_us : Bool)
  | getLogFileName
  deriving DecidableEq, Repr

/-- The text that a function renders for an instant: what `formatTime` writes into a new stream, in
a thread whose last record is of another second, what `toFormatString` returns, and `timebuf`. -/
def Rendering.text (us : ℕ) : Rendering → Bytes
  | formatTime =>
      let times : TimeCache := ⟨[], us / Timestamp.kusPerSecond + 1⟩
      match Logger.formatTime times (.ctor LogStream.empty.data_) us with
      | .ok (_, s) => s.text
      | .error _ => []
  | toFormatString show_us => Timestamp.toFormatString us show_us
  | getLogFileName => LogFile.timebuf (us / Timestamp.kusPerSecond)

/-- The constant parts of a rendered time: the separators, what is in front of the microseconds, if
they are shown, and both ends. -/
structure TimeShape where
  front : Bytes
  a : Bytes
  b : Bytes
  c : Bytes
  micro : Option Bytes
  back : Bytes

namespace TimeShape

/-- The microseconds. -/
def microText (f : TimeShape) (us : ℕ) : Bytes :=
  match f.micro with
  | some d => d ++ fixedText 6 (us % Timestamp.kusPerSecond)
  | none => []

def text (f : TimeShape) (us : ℕ) : Bytes :=
  f.front ++ (fieldsText (dateTimeFields f.a f.b f.c) (shownFields (us / Timestamp.kusPerSecond)) ++
    (f.microText us ++ f.back))

/-- The length of the text. -/
def length (f : TimeShape) : ℕ :=
  f.front.length + (14 + 2 * f.a.length + f.b.length + 2 * f.c.length) +
    (f.micro.elim 0 fun d => d.length + 6) + f.back.length

variable {f : TimeShape} {s t : ℕ}

lemma length_text (h : FourDigitYear (s / Timestamp.kusPerSecond)) :
    (f.text s).length = f.length := by
  have hmicro : (f.microText s).length = f.micro.elim 0 fun d => d.length + 6 := by
    unfold microText
    cases f.micro with
    | none => rfl
    | some d => rw [Option.elim_some, List.length_append, length_fixedText]
  rw [text, List.length_append, List.length_append, List.length_append, ← dateTimeText_eq h,
    length_dateTimeText h, hmicro, length]
  omega

/-- Without microseconds and anything around it, the text is that of the date and the time. -/
lemma text_bare (hfront : f.front = []) (hmicro : f.micro = none) (hback : f.back = []) :
    f.text s = fieldsText (dateTimeFields f.a f.b f.c)
      (shownFields (s / Timestamp.kusPerSecond)) := by
  rw [text, microText, hfront, hmicro, hback, List.nil_append, List.nil_append, List.append_nil]

lemma microText_lt_iff : f.microText s ++ f.back < f.microText t ++ f.back ↔
    f.micro.isSome ∧ s % Timestamp.kusPerSecond < t % Timestamp.kusPerSecond := by
  unfold microText
  cases f.micro with
  | none => exact iff_of_false (List.lt_irrefl _) fun h => nomatch h.1
  | some d =>
    have hmicro : ∀ us, us % Timestamp.kusPerSecond < 10 ^ 6 := fun us => Nat.mod_lt us (by decide)
    dsimp only
    rw [List.append_assoc, List.append_assoc, append_lt_append_iff rfl,
      append_lt_append_iff (by rw [length_fixedText, length_fixedText]),
      fixedText_lt_iff (hmicro s) (hmicro t)]
    simp [List.lt_irrefl]

/-- **The texts sort** like the shown fields, and then like the microseconds. -/
lemma text_lt_iff (hs : FourDigitYear (s / Timestamp.kusPerSecond))
    (ht : FourDigitYear (t / Timestamp.kusPerSecond)) :
    f.text s < f.text t ↔
      shownFields (s / Timestamp.kusPerSecond) < shownFields (t / Timestamp.kusPerSecond) ∨
      s / Timestamp.kusPerSecond = t / Timestamp.kusPerSecond ∧ f.micro.isSome ∧
        s % Timestamp.kusPerSecond < t % Timestamp.kusPerSecond := by
  have hfits := fitFields_shown hs f.a f.b f.c
  have hfitt := fitFields_shown ht f.a f.b f.c
  have hlen := (length_fieldsText hfits).trans (length_fieldsText hfitt).symm
  unfold text
  rw [append_lt_append_iff rfl, append_lt_append_iff hlen, fieldsText_lt_iff hfits hfitt,
    fieldsText_inj hfits hfitt, shownFields_inj, microText_lt_iff]
  simp [List.lt_irrefl]

/-- **Two times are in the wrong order** exactly when the shown clock wraps between them. -/
lemma text_gt_iff (h : s ≤ t) (hs : FourDigitYear (s / Timestamp.kusPerSecond))
    (ht : FourDigitYear (t / Timestamp.kusPerSecond)) :
    f.text t < f.text s ↔ WrapsBetween (s / Timestamp.kusPerSecond) (t / Timestamp.kusPerSecond) := by
  have hle : s / Timestamp.kusPerSecond ≤ t / Timestamp.kusPerSecond := Nat.div_le_div_right h
  have hmicro : ¬ (t / Timestamp.kusPerSecond = s / Timestamp.kusPerSecond ∧ f.micro.isSome ∧
      t % Timestamp.kusPerSecond < s % Timestamp.kusPerSecond) := by
    rintro ⟨hsecond, -, hlt⟩
    have hsplit := Nat.div_add_mod s Timestamp.kusPerSecond
    have hsplit' := Nat.div_add_mod t Timestamp.kusPerSecond
    rw [hsecond] at hsplit'
    omega
  rw [text_lt_iff ht hs, or_iff_left hmicro, shownFields_gt_iff hle]

end TimeShape

namespace Rendering

/-- The constant parts of what a function renders. -/
def shape : Rendering → TimeShape
  | formatTime =>
      ⟨[], [], octets " ".toList, octets ":".toList, some (octets ".".toList), octets " ".toList⟩
  | toFormatString show_us =>
      ⟨[], octets ".".toList, octets " ".toList, octets ":".toList,
        if show_us then some (octets ".".toList) else none, []⟩
  | getLogFileName =>
      ⟨octets ".".toList, [], octets "-".toList, [], none, octets ".".toList⟩

variable {us : ℕ}

/-- **All of them** render the shown fields. -/
lemma text_eq (h : FourDigitYear (us / Timestamp.kusPerSecond)) (r : Rendering) :
    r.text us = r.shape.text us := by
  have hmicro : zeroPadded 6 (us % Timestamp.kusPerSecond) =
      fixedText 6 (us % Timestamp.kusPerSecond) :=
    zeroPadded_eq 5 (Nat.mod_lt us (by decide))
  cases r with
  | formatTime =>
    have hother : us / Timestamp.kusPerSecond ≠
        (⟨[], us / Timestamp.kusPerSecond + 1⟩ : TimeCache).t_lastSecond :=
      (Nat.succ_ne_self _).symm
    obtain ⟨s, hs, -, htext⟩ := Logger.formatTime_spec h (Or.inr hother) LogStream.empty.data_
    simp only [text, hs, htext, Logger.freshPrefix, Logger.secondsText, dateTimeText_eq h,
      Logger.microsecondsText, hmicro, shape, TimeShape.text, TimeShape.microText,
      List.nil_append, List.append_assoc]
  | toFormatString show_us =>
    have hprinted : (toFormatString show_us).text us =
        snprintf 64 ((toFormatString show_us).shape.text us) := by
      cases show_us with
      | false =>
        rw [TimeShape.text_bare rfl rfl rfl, text, Timestamp.toFormatString, dateTimeText_eq h]
        exact if_neg Bool.false_ne_true
      | true =>
        simp only [text, Timestamp.toFormatString, dateTimeText_eq h, hmicro, shape,
          TimeShape.text, TimeShape.microText, List.nil_append, List.append_nil, List.append_assoc,
          if_true]
    rw [hprinted]
    exact snprintf_of_lt (by rw [TimeShape.length_text h]; cases show_us <;> decide)
  | getLogFileName =>
    simp only [text, LogFile.timebuf_eq h, shape, TimeShape.text, TimeShape.microText,
      List.nil_append]

/-- **Rendered times sort like the times** exactly when the clock does not wrap between them: when
they are not of one day with the one before 16:00 UTC and the other one not.  Until then the shown
date and clock are the local time, and from then on they are not. -/
theorem text_le_iff (r : Rendering) {s t : ℕ} (h : s ≤ t)
    (hs : FourDigitYear (s / Timestamp.kusPerSecond))
    (ht : FourDigitYear (t / Timestamp.kusPerSecond)) :
    (r.text s ≤ r.text t ↔
      ¬ WrapsBetween (s / Timestamp.kusPerSecond) (t / Timestamp.kusPerSecond)) ∧
    (shownFields (s / Timestamp.kusPerSecond) = localFields (s / Timestamp.kusPerSecond) ↔
      BeforeWrap (s / Timestamp.kusPerSecond)) := by
  refine ⟨?_, shownFields_eq_localFields_iff⟩
  rw [text_eq hs, text_eq ht, ← TimeShape.text_gt_iff h hs ht]
  rfl

/-- The last microsecond of a day and the first one of the next. -/
theorem text_le_iff_night :
    (formatTime.text 86399999999 ≤ formatTime.text 86400000000 ↔ ¬ WrapsBetween 86399 86400) ∧
      (shownFields 86399 = localFields 86399 ↔ BeforeWrap 86399) :=
  text_le_iff formatTime (s := 86399999999) (t := 86400000000) (by decide)
    (fourDigitYear_of_le (by decide)) (fourDigitYear_of_le (by decide))

lemma text_wrapped (r : Rendering) : ¬ r.text 57599000000 ≤ r.text 57600000000 := by
  have hs : FourDigitYear (57599000000 / Timestamp.kusPerSecond) := fourDigitYear_of_le (by decide)
  have ht : FourDigitYear (57600000000 / Timestamp.kusPerSecond) := fourDigitYear_of_le (by decide)
  have hwraps : WrapsBetween 57599 57600 :=
    ⟨rfl, by unfold BeforeWrap; decide, by unfold BeforeWrap; decide⟩
  rw [text_eq hs, text_eq ht]
  exact not_not.mpr ((TimeShape.text_gt_iff (by decide) hs ht).mpr hwraps)

/-- The last second before 16:00 UTC on the first day, and the first one after. -/
theorem text_order_reversed :
    (toFormatString false).text 57599000000 = octets "1970.01.01 23:59:59".toList ∧
      (toFormatString false).text 57600000000 = octets "1970.01.01 00:00:00".toList ∧
      ¬ (toFormatString false).text 57599000000 ≤ (toFormatString false).text 57600000000 ∧
      ¬ formatTime.text 57599000000 ≤ formatTime.text 57600000000 ∧
      ¬ getLogFileName.text 57599000000 ≤ getLogFileName.text 57600000000 := by
  have hdate : dateAfter 1970 0 = ⟨1970, 1, 1⟩ := dateAfter_zero 1970
  have hs : shownFields 57599 = [1970, 1, 1, 23, 59, 59] := by
    rw [shownFields, show 57599 / 86400 = 0 from rfl, hdate]
    rfl
  have ht : shownFields 57600 = [1970, 1, 1, 0, 0, 0] := by
    rw [shownFields, show 57600 / 86400 = 0 from rfl, hdate]
    rfl
  refine ⟨?_, ?_, text_wrapped _, text_wrapped _, text_wrapped _⟩
  · rw [text_eq (fourDigitYear_of_le (by decide)), TimeShape.text,
      show 57599000000 / Timestamp.kusPerSecond = 57599 from rfl, hs]
    decide
  · rw [text_eq (fourDigitYear_of_le (by decide)), TimeShape.text,
      show 57600000000 / Timestamp.kusPerSecond = 57600 from rfl, ht]
    decide

end Rendering

end Firey
