import Mathlib.Data.List.Basic
import Mathlib.Tactic.Lemma

/-!
# Tables that give out the lowest free slot

A table has a fixed number of slots.  `alloc` fills the lowest free one and says which, and `free`
empties one.  In a full table the slot that is emptied is the one that is given out next, so the
table is what it was, but for this slot (`alloc_free`).

Nothing here names the library under study.
-/

set_option autoImplicit false

namespace Firey

structure Slots (α : Type*) where
  entries : List (Option α)
  deriving DecidableEq, Repr

namespace Slots

variable {α : Type*} {t u : Slots α} {a b : α} {n m : ℕ}

/-- No slot is free. -/
def Full (t : Slots α) : Prop := none ∉ t.entries

instance [DecidableEq α] (t : Slots α) : Decidable t.Full :=
  inferInstanceAs (Decidable (none ∉ t.entries))

/-- What is in a slot. -/
def occupant (t : Slots α) (n : ℕ) : Option α := t.entries[n]?.join

def alloc (t : Slots α) (a : α) : Option (ℕ × Slots α) :=
  (t.entries.findIdx? Option.isNone).map fun n => (n, ⟨t.entries.set n (some a)⟩)

def free (t : Slots α) (n : ℕ) : Slots α := ⟨t.entries.set n none⟩

lemma entries_of_occupant (h : t.occupant n = some a) : t.entries[n]? = some (some a) :=
  Option.join_eq_some_iff.mp h

lemma lt_of_occupant (h : t.occupant n = some a) : n < t.entries.length :=
  (List.getElem?_eq_some_iff.mp (entries_of_occupant h)).1

lemma alloc_of_full (h : t.Full) (a : α) : t.alloc a = none := by
  rw [alloc, List.findIdx?_eq_none_iff.mpr, Option.map_none]
  intro x hx
  cases x with
  | none => exact absurd hx h
  | some b => rfl

/-- **A table that is not full** has a slot to give. -/
lemma alloc_of_not_full (h : ¬ t.Full) (a : α) :
    ∃ n, t.entries[n]? = some none ∧ t.alloc a = some (n, ⟨t.entries.set n (some a)⟩) := by
  have hsome : (t.entries.findIdx? Option.isNone).isSome := by
    rw [List.findIdx?_isSome, List.any_eq_true]
    exact ⟨none, not_not.mp h, rfl⟩
  obtain ⟨n, hn⟩ := Option.isSome_iff_exists.mp hsome
  obtain ⟨hlt, hnone, -⟩ := List.findIdx?_eq_some_iff_getElem.mp hn
  refine ⟨n, ?_, by rw [alloc, hn, Option.map_some]⟩
  rw [List.getElem?_eq_getElem hlt, Option.isNone_iff_eq_none.mp hnone]

/-- What is in the other slots stays there. -/
lemma occupant_set_of_ne (h : m ≠ n) (x : Option α) :
    occupant ⟨t.entries.set n x⟩ m = t.occupant m := by
  rw [occupant, List.getElem?_set_ne h.symm]
  rfl

lemma occupant_alloc (h : t.alloc a = some (n, u)) (hm : t.occupant m = some b) :
    u.occupant m = some b := by
  by_cases hfull : t.Full
  · rw [alloc_of_full hfull] at h
    cases h
  · obtain ⟨k, hk, halloc⟩ := alloc_of_not_full hfull a
    cases halloc.symm.trans h
    rw [occupant_set_of_ne, hm]
    rintro rfl
    rw [entries_of_occupant hm] at hk
    cases hk

lemma occupant_free_of_ne (h : m ≠ n) : (t.free n).occupant m = t.occupant m :=
  occupant_set_of_ne h none

/-- A slot has what it is filled with. -/
lemma occupant_set_self (hn : n < t.entries.length) (a : α) :
    occupant ⟨t.entries.set n (some a)⟩ n = some a := by
  rw [occupant, List.getElem?_set_self hn]
  rfl

lemma free_set (t : Slots α) (n : ℕ) (x : Option α) :
    free ⟨t.entries.set n x⟩ n = t.free n := by
  rw [free, free, List.set_set]

lemma not_full_free (hn : t.occupant n = some b) : ¬ (t.free n).Full :=
  not_not.mpr (List.mem_set (lt_of_occupant hn) none)

/-- **A slot of a full table** that is emptied is given out next. -/
theorem alloc_free (hfull : t.Full) (hn : t.occupant n = some b) (a : α) :
    (t.free n).alloc a = some (n, ⟨t.entries.set n (some a)⟩) := by
  have hlt := lt_of_occupant hn
  have hfirst : (t.free n).entries.findIdx? Option.isNone = some n := by
    refine List.findIdx?_eq_some_iff_getElem.mpr ⟨?_, ?_, fun j hj hnone => ?_⟩
    · rwa [free, List.length_set]
    · simp only [free, List.getElem_set_self, Option.isNone_none]
    · have hne : n ≠ j := by omega
      simp only [free, List.getElem_set_ne hne] at hnone
      have hmem := List.getElem_mem (l := t.entries) (n := j) (by omega)
      exact hfull (Option.isNone_iff_eq_none.mp hnone ▸ hmem)
  rw [alloc, hfirst, Option.map_some, free, List.set_set]

/-- Refilled with what was in it, the slot makes the table what it was. -/
lemma set_occupant (hn : t.occupant n = some a) : (⟨t.entries.set n (some a)⟩ : Slots α) = t := by
  have hentry := entries_of_occupant hn
  obtain ⟨hlt, hget⟩ := List.getElem?_eq_some_iff.mp hentry
  rw [← hget, List.set_getElem_self]

end Slots

end Firey
