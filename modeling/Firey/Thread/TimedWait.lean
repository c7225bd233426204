import Firey.Fault
import Mathlib.Algebra.Order.Ring.Int
import Mathlib.Data.Nat.Log

/-!
# `Conditionff::waitForSeconds`

The deadline is the current time plus a number of seconds, which comes as a `double`.  Here it is a
whole number, as everywhere in the library; its product with `kNanoSecondsPerSecond` is a `double`
as well, and so is rounded from 2^53 on.  The sums are taken in 64 bits, where an overflow is an
error.
-/

set_option autoImplicit false

namespace Firey

structure AbsTime where
  tv_sec : ℤ
  tv_nsec : ℤ
  deriving DecidableEq, Repr

namespace AbsTime

/-- What `pthread_cond_timedwait` asks of its deadline. -/
def Valid (t : AbsTime) : Prop := 0 ≤ t.tv_nsec ∧ t.tv_nsec < 10 ^ 9

instance (t : AbsTime) : Decidable t.Valid := inferInstanceAs (Decidable (_ ∧ _))

def nanoseconds (t : AbsTime) : ℤ := t.tv_sec * 10 ^ 9 + t.tv_nsec

end AbsTime

/-! ## Arithmetic -/

/-- The `double` next to a whole number, the one with the even significand of two. -/
def roundDouble (n : ℕ) : ℕ :=
  if n < 2 ^ 53 then n
  else
    let ulp := 2 ^ (Nat.log 2 n - 52)
    let down := n / ulp
    if ulp < 2 * (n % ulp) ∨ 2 * (n % ulp) = ulp ∧ down % 2 = 1 then (down + 1) * ulp
    else down * ulp

def InInt64 (v : ℤ) : Prop := -2 ^ 63 ≤ v ∧ v < 2 ^ 63

instance (v : ℤ) : Decidable (InInt64 v) := inferInstanceAs (Decidable (_ ∧ _))

/-- A sum of type `int64_t`, or `static_cast<int64_t>` of a `double`. -/
def int64 (v : ℤ) : Except Fault ℤ := if InInt64 v then .ok v else .error .overflow

/-- What `pthread_cond_timedwait` returns. -/
inductive TimedWait
  | woken
  | ETIMEDOUT
  | EINVAL
  deriving DecidableEq, Repr

/-- `pthread_cond_timedwait`, which a notification may wake in time. -/
def timedWait (abstime : AbsTime) (notified : Bool) : TimedWait :=
  if abstime.Valid then if notified then .woken else .ETIMEDOUT else .EINVAL

namespace TimedWait

def kNanoSecondsPerSecond : ℕ := 1000 * 1000 * 1000

/-- `second * kNanoSecondsPerSecond`. -/
def product (second : ℕ) : ℕ := roundDouble (second * kNanoSecondsPerSecond)

/-- `abstime`, as it is passed to `pthread_cond_timedwait`. -/
def deadline (now : AbsTime) (second : ℕ) : Except Fault AbsTime := do
  let nanoseconds ← int64 (product second)
  let sum ← int64 (now.tv_nsec + nanoseconds)
  let tv_sec ← int64 (now.tv_sec + sum.tdiv kNanoSecondsPerSecond)
  -- the remainder already has the nanoseconds of the current time in it
  let tv_nsec ← int64 (now.tv_nsec + sum.tmod kNanoSecondsPerSecond)
  .ok ⟨tv_sec, tv_nsec⟩

/-- `waitForSeconds(second)`. -/
def waitForSeconds (now : AbsTime) (second : ℕ) (notified : Bool) : Except Fault Bool := do
  let abstime ← deadline now second
  .ok (timedWait abstime notified = .ETIMEDOUT)

/-! ## The deadline -/

/-- A computation goes on with a number that is in its type. -/
lemma int64_bind_eq_ok {β : Type} {v : ℤ} {f : ℤ → Except Fault β} {b : β} :
    (int64 v >>= f) = .ok b ↔ InInt64 v ∧ f v = .ok b := by
  unfold int64
  split
  next h => rw [ok_bind, and_iff_right h]
  next h => exact iff_of_false nofun fun hw => h hw.1

/-- A multiple of `2 ^ e` with 53 bits above is not rounded. -/
lemma roundDouble_of_dvd {n e : ℕ} (hdvd : 2 ^ e ∣ n) (hlt : n < 2 ^ (53 + e)) :
    roundDouble n = n := by
  unfold roundDouble
  split
  next => rfl
  next hlarge =>
    have hpos : n ≠ 0 := by
      rintro rfl
      exact hlarge (by decide)
    have hlog : Nat.log 2 n < 53 + e := Nat.log_lt_of_lt_pow hpos hlt
    have hulp : 2 ^ (Nat.log 2 n - 52) ∣ n := Nat.dvd_trans (Nat.pow_dvd_pow 2 (by omega)) hdvd
    dsimp only
    rw [Nat.mod_eq_zero_of_dvd hulp, if_neg, Nat.div_mul_cancel hulp]
    have hone := Nat.one_le_two_pow (n := Nat.log 2 n - 52)
    omega

/-- The product is exact for every number of seconds below 2^62 / 10^9, so for every `int`. -/
lemma product_exact {d : ℕ} (h : d * kNanoSecondsPerSecond < 2 ^ 62) :
    product d = d * kNanoSecondsPerSecond :=
  roundDouble_of_dvd (e := 9) (Nat.dvd_mul_left_of_dvd (by decide) d) h

/-- **What the deadline comes to**: the nanoseconds of the current time are counted twice. -/
lemma deadline_eq_ok {now t : AbsTime} (hnow : now.Valid) {d : ℕ} :
    deadline now d = .ok t ↔
      (InInt64 (product d) ∧ InInt64 (now.tv_nsec + product d) ∧ InInt64 t.tv_sec ∧
        InInt64 t.tv_nsec) ∧
      t = ⟨now.tv_sec + (now.tv_nsec + product d) / 10 ^ 9,
        now.tv_nsec + (now.tv_nsec + product d) % 10 ^ 9⟩ := by
  have hsum : 0 ≤ now.tv_nsec + product d := Int.add_nonneg hnow.1 (Int.natCast_nonneg _)
  have hquot : (now.tv_nsec + product d).tdiv kNanoSecondsPerSecond =
      (now.tv_nsec + product d) / 10 ^ 9 := Int.tdiv_eq_ediv_of_nonneg hsum
  have hrem : (now.tv_nsec + product d).tmod kNanoSecondsPerSecond =
      (now.tv_nsec + product d) % 10 ^ 9 := Int.tmod_eq_emod_of_nonneg hsum
  simp only [deadline, int64_bind_eq_ok, hquot, hrem, Except.ok.injEq]
  constructor
  · rintro ⟨hproduct, hadd, hsec, hnsec, rfl⟩
    exact ⟨⟨hproduct, hadd, hsec, hnsec⟩, rfl⟩
  · rintro ⟨⟨hproduct, hadd, hsec, hnsec⟩, rfl⟩
    exact ⟨hproduct, hadd, hsec, hnsec, rfl⟩

/-- For an `int`, such as `flushInterval_`, what is asked of the current time is that it has no
nanoseconds. -/
lemma product_makes_whole_iff {nsec : ℤ} {d : ℕ} (hd : d < 2 ^ 31) :
    nsec + product d = d * 10 ^ 9 ↔ nsec = 0 := by
  have hsmall : d * kNanoSecondsPerSecond < 2 ^ 62 := by
    unfold kNanoSecondsPerSecond
    omega
  have hproduct : (product d : ℤ) = d * 10 ^ 9 := by
    rw [product_exact hsmall]
    exact Int.natCast_mul _ _
  omega

/-- In the second half of each second the deadline is none, and the thread that waits comes back
at once. -/
theorem deadline_valid_iff {now t : AbsTime} (hnow : now.Valid) {d : ℕ} (hd : d < 2 ^ 31)
    (ht : deadline now d = .ok t) : t.Valid ↔ 2 * now.tv_nsec < 10 ^ 9 := by
  obtain ⟨-, rfl⟩ := (deadline_eq_ok hnow).mp ht
  have hproduct : (product d : ℤ) = d * 10 ^ 9 := by
    have hzero : 0 + (product d : ℤ) = d * 10 ^ 9 := (product_makes_whole_iff hd).mpr rfl
    rwa [Int.zero_add] at hzero
  obtain ⟨hlow, hhigh⟩ := hnow
  unfold AbsTime.Valid
  rw [hproduct]
  dsimp only
  omega

/-- The call gets a valid deadline, `d` seconds from now. -/
def Exact (now : AbsTime) (d : ℕ) : Prop :=
  ∃ t, deadline now d = .ok t ∧ t.Valid ∧ t.nanoseconds = now.nanoseconds + d * 10 ^ 9

/-- **The deadline is exact** exactly when the nanoseconds of the current time and the product make
the whole number of seconds again, and nothing overflows. -/
theorem deadline_exact_iff {now : AbsTime} (hnow : now.Valid) (d : ℕ) :
    Exact now d ↔ now.tv_nsec + product d = d * 10 ^ 9 ∧ InInt64 (d * 10 ^ 9) ∧
      InInt64 (now.tv_sec + d) := by
  obtain ⟨hlow, hhigh⟩ := hnow
  have hproduct := Int.natCast_nonneg (product d)
  have hsplit := Int.mul_ediv_add_emod (now.tv_nsec + product d) (10 ^ 9)
  constructor
  · rintro ⟨t, ht, -, hexact⟩
    obtain ⟨⟨-, hsum, hsec, -⟩, rfl⟩ := (deadline_eq_ok ⟨hlow, hhigh⟩).mp ht
    have hequal : now.tv_nsec + product d = d * 10 ^ 9 := by
      unfold AbsTime.nanoseconds at hexact
      dsimp only at hexact
      omega
    have hquot : (now.tv_nsec + product d) / 10 ^ 9 = d := by
      rw [hequal]
      exact Int.mul_ediv_cancel _ (by decide)
    dsimp only at hsec
    rw [hquot] at hsec
    exact ⟨hequal, hequal ▸ hsum, hsec⟩
  · rintro ⟨hequal, hsum, hsec⟩
    have hquot : (now.tv_nsec + product d) / 10 ^ 9 = d := by
      rw [hequal]
      exact Int.mul_ediv_cancel _ (by decide)
    have hrem : (now.tv_nsec + product d) % 10 ^ 9 = 0 := by
      rw [hequal]
      exact Int.mul_emod_left _ _
    unfold InInt64 at hsum
    refine ⟨⟨now.tv_sec + d, now.tv_nsec⟩, (deadline_eq_ok ⟨hlow, hhigh⟩).mpr ⟨⟨?_, ?_, hsec, ?_⟩,
      ?_⟩, ⟨hlow, hhigh⟩, ?_⟩
    · unfold InInt64
      omega
    · rw [hequal]
      exact hsum
    · unfold InInt64
      dsimp only
      omega
    · rw [hquot, hrem, Int.add_zero]
    · unfold AbsTime.nanoseconds
      dsimp only
      omega

/-- At a full second, the deadline is exact. -/
theorem deadline_exact_iff_full : Exact ⟨1700000000, 0⟩ 3 :=
  (deadline_exact_iff (by decide) 3).mpr (by decide)

/-- Six tenths of a second later the deadline has 1.2 * 10^9 nanoseconds, and the call does not
wait. -/
theorem deadline_invalid :
    deadline ⟨1700000000, 600000000⟩ 3 = .ok ⟨1700000003, 1200000000⟩ ∧
      ¬ Exact ⟨1700000000, 600000000⟩ 3 ∧
      timedWait ⟨1700000003, 1200000000⟩ false = .EINVAL := by
  have hdeadline : deadline ⟨1700000000, 600000000⟩ 3 = .ok ⟨1700000003, 1200000000⟩ := by decide
  refine ⟨hdeadline, ?_, by decide⟩
  rintro ⟨t, ht, hvalid, -⟩
  cases hdeadline.symm.trans ht
  exact absurd hvalid (by decide)

end TimedWait

end Firey
