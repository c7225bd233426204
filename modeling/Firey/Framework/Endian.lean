import Mathlib.Data.Nat.Digits.Lemmas
import Mathlib.Tactic.Lemma

/-!
# Words and their octets

An `n`-octet word is a `BitVec (8 * n)`.  In memory it is a list of `n` octets, least significant
first on one kind of host and most significant first on the other; `image` writes a word down and
`load` reads it back, and the two are inverse to each other (`load_image`, `image_load`).

`htobe` and `betoh` are the conversions of `endian.h`.  What they are for is said by `image_htobe`
and `betoh_load`: between them the order of the host disappears.
-/

set_option autoImplicit false

namespace Firey

/-- The order in which a host keeps the octets of a word. -/
inductive Endian
  | little
  | big
  deriving DecidableEq, Repr

/-! ## Numbers -/

/-- The lowest `n` octets of a number, least significant first. -/
def octetsLE : ℕ → ℕ → List UInt8
  | 0, _ => []
  | n + 1, x => UInt8.ofNat x :: octetsLE n (x / 256)

/-- The number a list of octets spells, least significant first. -/
def valueLE (bs : List UInt8) : ℕ := Nat.ofDigits 256 (bs.map UInt8.toNat)

@[simp] lemma length_octetsLE (n x : ℕ) : (octetsLE n x).length = n := by
  induction n generalizing x with
  | zero => rfl
  | succ n ih => rw [octetsLE, List.length_cons, ih]

/-- Reading back gives the number, reduced to the width. -/
lemma valueLE_octetsLE (n x : ℕ) : valueLE (octetsLE n x) = x % 256 ^ n := by
  induction n generalizing x with
  | zero => rw [octetsLE, valueLE, List.map_nil, Nat.ofDigits_nil, pow_zero, Nat.mod_one]
  | succ n ih =>
    have hbyte : (UInt8.ofNat x).toNat = x % 256 := by simp
    have htail : Nat.ofDigits 256 ((octetsLE n (x / 256)).map UInt8.toNat) =
        x / 256 % 256 ^ n := ih (x / 256)
    rw [octetsLE, valueLE, List.map_cons, Nat.ofDigits_cons, hbyte, htail, pow_succ',
      Nat.mod_mul]

lemma valueLE_lt (bs : List UInt8) : valueLE bs < 256 ^ bs.length := by
  have h := Nat.ofDigits_lt_base_pow_length (b := 256) (l := bs.map UInt8.toNat) (by decide)
    (by
      intro x hx
      obtain ⟨b, -, rfl⟩ := List.mem_map.mp hx
      exact b.toNat_lt)
  rwa [List.length_map] at h

/-- Two lists of one length that spell the same number are the same. -/
lemma valueLE_inj {bs cs : List UInt8} (hlen : bs.length = cs.length)
    (h : valueLE bs = valueLE cs) : bs = cs := by
  have hbyte : ∀ (l : List UInt8) (x : ℕ), x ∈ l.map UInt8.toNat → x < 256 := by
    intro l x hx
    obtain ⟨b, -, rfl⟩ := List.mem_map.mp hx
    exact b.toNat_lt
  have hmap : bs.map UInt8.toNat = cs.map UInt8.toNat :=
    Nat.ofDigits_inj_of_len_eq (by decide) (by simpa using hlen) (hbyte bs) (hbyte cs) h
  exact List.map_injective_iff.mpr (fun _ _ => UInt8.toNat_inj.mp) hmap

lemma octetsLE_valueLE (bs : List UInt8) : octetsLE bs.length (valueLE bs) = bs := by
  refine valueLE_inj (length_octetsLE _ _) ?_
  rw [valueLE_octetsLE, Nat.mod_eq_of_lt (valueLE_lt bs)]

/-! ## Words -/

namespace Endian

variable {n : ℕ}

/-- The octets of a word in the memory of a host. -/
def image (host : Endian) (x : BitVec (8 * n)) : List UInt8 :=
  match host with
  | little => octetsLE n x.toNat
  | big => (octetsLE n x.toNat).reverse

/-- The word that stands at a place of the memory of a host. -/
def load (host : Endian) (n : ℕ) (bs : List UInt8) : BitVec (8 * n) :=
  match host with
  | little => BitVec.ofNat (8 * n) (valueLE bs)
  | big => BitVec.ofNat (8 * n) (valueLE bs.reverse)

@[simp] lemma length_image (host : Endian) (x : BitVec (8 * n)) : (host.image x).length = n := by
  cases host <;> simp [image]

private lemma pow_eight_mul (n : ℕ) : 2 ^ (8 * n) = 256 ^ n := by
  rw [pow_mul]
  rfl

private lemma ofNat_valueLE (x : BitVec (8 * n)) :
    BitVec.ofNat (8 * n) (valueLE (octetsLE n x.toNat)) = x := by
  have hlt : x.toNat < 256 ^ n := pow_eight_mul n ▸ x.isLt
  rw [valueLE_octetsLE, Nat.mod_eq_of_lt hlt, BitVec.ofNat_toNat, BitVec.setWidth_eq]

private lemma octetsLE_toNat_ofNat {bs : List UInt8} (h : bs.length = n) :
    octetsLE n (BitVec.ofNat (8 * n) (valueLE bs)).toNat = bs := by
  have hlt : valueLE bs < 2 ^ (8 * n) := by
    rw [pow_eight_mul, ← h]
    exact valueLE_lt bs
  rw [BitVec.toNat_ofNat, Nat.mod_eq_of_lt hlt, ← h, octetsLE_valueLE]

/-- A word is read back as it was written. -/
@[simp] theorem load_image (host : Endian) (x : BitVec (8 * n)) :
    host.load n (host.image x) = x := by
  cases host with
  | little => exact ofNat_valueLE x
  | big => rw [image, load, List.reverse_reverse, ofNat_valueLE]

theorem image_load (host : Endian) {bs : List UInt8} (h : bs.length = n) :
    host.image (host.load n bs) = bs := by
  cases host with
  | little => exact octetsLE_toNat_ofNat h
  | big => rw [image, load, octetsLE_toNat_ofNat (by rwa [List.length_reverse]),
      List.reverse_reverse]

/-! ## Network order -/

/-- The word with its octets the other way round. -/
def swapOctets (x : BitVec (8 * n)) : BitVec (8 * n) := little.load n (big.image x)

/-- `htobe16`, `htobe32`, `htobe64`. -/
def htobe (host : Endian) (x : BitVec (8 * n)) : BitVec (8 * n) :=
  match host with
  | little => swapOctets x
  | big => x

/-- `be16toh`, `be32toh`, `be64toh`. -/
def betoh (host : Endian) (x : BitVec (8 * n)) : BitVec (8 * n) :=
  match host with
  | little => swapOctets x
  | big => x

/-- What `htobe` returns stands in memory most significant octet first. -/
theorem image_htobe (host : Endian) (x : BitVec (8 * n)) :
    host.image (host.htobe x) = big.image x := by
  cases host with
  | little => exact image_load little (length_image big x)
  | big => rfl

/-- `betoh` gives the number that the octets spell most significant first. -/
theorem betoh_load (host : Endian) {bs : List UInt8} (h : bs.length = n) :
    host.betoh (host.load n bs) = big.load n bs := by
  cases host with
  | little =>
    have hbig : big.image (little.load n bs) = bs.reverse :=
      congrArg List.reverse (image_load little h)
    rw [betoh, swapOctets, hbig]
    rfl
  | big => rfl

/-- The big-endian two's-complement encoding of an integer in `n` octets. -/
def twosComplement (n : ℕ) (v : ℤ) : List UInt8 :=
  (octetsLE n (v % 2 ^ (8 * n)).toNat).reverse

lemma image_big (x : BitVec (8 * n)) : big.image x = twosComplement n x.toInt := by
  have hmod : x.toInt % 2 ^ (8 * n) = x.toNat := by
    rw [BitVec.toInt_eq_toNat_bmod]
    have h : ((2 ^ (8 * n) : ℕ) : ℤ) = 2 ^ (8 * n) := by push_cast; rfl
    rw [← h, Int.bmod_emod, Int.emod_eq_of_lt (by omega) (by exact_mod_cast x.isLt)]
  rw [image, twosComplement, hmod, Int.toNat_natCast]

end Endian

end Firey
