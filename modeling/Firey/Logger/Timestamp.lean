import Firey.Fault
import Firey.Framework.Calendar
import Firey.Framework.FixedWidth

/-!
# Times as text

Three functions write a time: `Timestampff::toFormatString`, `Loggerff::Impl::formatTime` and
`LogFileff::getLogFileName`.  All of them take the fields of `gmtime_r`, and put 8 hours to the
hour, modulo 24, with the date left as it is.  `dateTimeText` is what they have in common; they
differ in the separators.

Instants are counted from the epoch on.
-/

set_option autoImplicit false

namespace Firey

/-- `struct tm`, as far as it is read. -/
structure Tm where
  tm_year : ℕ
  tm_mon : ℕ
  tm_mday : ℕ
  tm_hour : ℕ
  tm_min : ℕ
  tm_sec : ℕ
  deriving DecidableEq, Repr

/-- `gmtime_r`, in the Gregorian calendar. -/
def gmtime (seconds : ℕ) : Tm :=
  let date := dateAfter 1970 (seconds / 86400)
  { tm_year := date.year - 1900
    tm_mon := date.month - 1
    tm_mday := date.day
    tm_hour := seconds % 86400 / 3600
    tm_min := seconds % 3600 / 60
    tm_sec := seconds % 60 }

/-- `"%4d%02d%02d %02d:%02d:%02d"`, with the separators as parameters: `a` in the date, `b` behind
it, and `c` in the time of day. -/
def dateTimeText (a b c : Bytes) (tm_time : Tm) : Bytes :=
  spacePadded 4 (tm_time.tm_year + 1900) ++ a ++ zeroPadded 2 (tm_time.tm_mon + 1) ++ a ++
    zeroPadded 2 tm_time.tm_mday ++ b ++ zeroPadded 2 ((tm_time.tm_hour + 8) % 24) ++ c ++
    zeroPadded 2 tm_time.tm_min ++ c ++ zeroPadded 2 tm_time.tm_sec

namespace Timestamp

def kusPerSecond : ℕ := 1000 * 1000

/-- `toFormatString(show_us)`. -/
def toFormatString (usSinceEpoch : ℕ) (show_us : Bool) : Bytes :=
  let tm_time := gmtime (usSinceEpoch / kusPerSecond)
  let text := dateTimeText (octets ".".toList) (octets " ".toList) (octets ":".toList) tm_time
  if show_us then
    snprintf 64 (text ++ octets ".".toList ++ zeroPadded 6 (usSinceEpoch % kusPerSecond))
  else snprintf 64 text

end Timestamp

/-! ## The fields that are shown -/

/-- Hours, minutes and seconds. -/
def clockFields (x : ℕ) : List ℕ := [x / 3600, x / 60 % 60, x % 60]

/-- The time of day that is shown, in seconds. -/
def shownClock (seconds : ℕ) : ℕ := (seconds % 86400 + 8 * 3600) % 86400

/-- The date and the time of day that are shown: the date is that of the day in UTC. -/
def shownFields (seconds : ℕ) : List ℕ :=
  (dateAfter 1970 (seconds / 86400)).fields ++ clockFields (shownClock seconds)

/-- Before the year 10000. -/
def FourDigitYear (seconds : ℕ) : Prop := (dateAfter 1970 (seconds / 86400)).year ≤ 9999

/-- The fields of a `dateTimeText`. -/
def dateTimeFields (a b c : Bytes) : List (Bytes × ℕ) :=
  [([], 4), (a, 2), (a, 2), (b, 2), (c, 2), (c, 2)]

variable {seconds : ℕ}

lemma fourDigitYear_of_le (h : seconds / 86400 / 365 ≤ 8029) : FourDigitYear seconds :=
  (Date.year_le 1970 (seconds / 86400)).trans (by omega)

lemma fitFields_shown (h : FourDigitYear seconds) (a b c : Bytes) :
    FitFields (dateTimeFields a b c) (shownFields seconds) := by
  have hyear : (dateAfter 1970 (seconds / 86400)).year < 10 ^ 4 := Nat.lt_succ_of_le h
  have hmonth := Date.month_le 1970 (seconds / 86400)
  have hday := Date.day_le 1970 (seconds / 86400)
  unfold FitFields dateTimeFields shownFields Date.fields clockFields shownClock
  refine .cons hyear (.cons ?_ (.cons ?_ (.cons ?_ (.cons ?_ (.cons ?_ .nil))))) <;>
    dsimp only <;> omega

/-- **The text is made of the shown fields**, each in its full width. -/
lemma dateTimeText_eq (h : FourDigitYear seconds) (a b c : Bytes) :
    dateTimeText a b c (gmtime seconds) =
      fieldsText (dateTimeFields a b c) (shownFields seconds) := by
  have hepoch := Date.epoch_le_year 1970 (seconds / 86400)
  have hfirst := Date.one_le_month 1970 (seconds / 86400)
  have hmonth := Date.month_le 1970 (seconds / 86400)
  have hday := Date.day_le 1970 (seconds / 86400)
  have hlow : 10 ^ 3 ≤ (dateAfter 1970 (seconds / 86400)).year := by omega
  have hhigh : (dateAfter 1970 (seconds / 86400)).year < 10 ^ (3 + 1) := Nat.lt_succ_of_le h
  have hyear : (dateAfter 1970 (seconds / 86400)).year - 1900 + 1900 =
      (dateAfter 1970 (seconds / 86400)).year := by omega
  have hmon : (dateAfter 1970 (seconds / 86400)).month - 1 + 1 =
      (dateAfter 1970 (seconds / 86400)).month := by omega
  have hhour : (seconds % 86400 / 3600 + 8) % 24 = shownClock seconds / 3600 := by
    unfold shownClock
    omega
  have hmin : seconds % 3600 / 60 = shownClock seconds / 60 % 60 := by
    unfold shownClock
    omega
  have hsec : seconds % 60 = shownClock seconds % 60 := by
    unfold shownClock
    omega
  have hclock : shownClock seconds < 86400 := Nat.mod_lt _ (by decide)
  unfold dateTimeText gmtime dateTimeFields shownFields Date.fields clockFields
  dsimp only
  rw [hyear, hmon, hhour, hmin, hsec, spacePadded_eq hlow hhigh, zeroPadded_eq 1 (by omega),
    zeroPadded_eq 1 (by omega), zeroPadded_eq 1 (by omega), zeroPadded_eq 1 (by omega),
    zeroPadded_eq 1 (by omega)]
  simp only [fieldsText, List.cons_append, List.nil_append, List.append_assoc, List.append_nil]

/-- The text has the length of its fields and separators. -/
lemma length_dateTimeText (h : FourDigitYear seconds) (a b c : Bytes) :
    (dateTimeText a b c (gmtime seconds)).length =
      14 + 2 * a.length + b.length + 2 * c.length := by
  rw [dateTimeText_eq h, length_fieldsText (fitFields_shown h a b c)]
  unfold dateTimeFields
  simp only [List.map_cons, List.map_nil, List.sum_cons, List.sum_nil, List.length_nil]
  omega

end Firey
