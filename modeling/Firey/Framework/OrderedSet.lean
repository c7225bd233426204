import Mathlib.Data.List.Sort

/-!
# Ordered sets

`std::set` as a strictly increasing list: the elements in the order in which an iterator meets
them, each of them once.  The order is part of the type, so every operation hands out a set that
can be iterated and split at a bound again.  What the operations do is said by membership;
`card_eq_of_keys` compares the sizes of two sets whose elements are told apart by the same keys.

Nothing here names the library under study.
-/

set_option autoImplicit false

namespace Firey

/-- A finite set with its elements in increasing order. -/
structure OrderedSet (α : Type*) [LinearOrder α] where
  elems : List α
  sorted : elems.Pairwise (· < ·)

namespace OrderedSet

variable {α : Type*} [LinearOrder α] {s : OrderedSet α} {a b : α}

instance : Membership α (OrderedSet α) := ⟨fun s a => a ∈ s.elems⟩

instance (a : α) (s : OrderedSet α) : Decidable (a ∈ s) :=
  inferInstanceAs (Decidable (a ∈ s.elems))

lemma mem_iff : a ∈ s ↔ a ∈ s.elems := Iff.rfl

lemma nodup (s : OrderedSet α) : s.elems.Nodup := s.sorted.imp ne_of_lt

/-- The empty set. -/
def empty : OrderedSet α := ⟨[], .nil⟩

@[simp] lemma notMem_empty : a ∉ (empty : OrderedSet α) := List.not_mem_nil

/-- `size()`. -/
def size (s : OrderedSet α) : ℕ := s.elems.length

/-- `*begin()`, if the set is not empty. -/
def first? (s : OrderedSet α) : Option α := s.elems.head?

/-- Nothing of the set is before its first element. -/
lemma first?_eq_some (h : s.first? = some a) : a ∈ s ∧ ∀ b ∈ s, a ≤ b := by
  obtain ⟨elems, sorted⟩ := s
  cases elems with
  | nil => cases h
  | cons c rest =>
    cases h
    refine ⟨List.mem_cons_self, fun b hb => ?_⟩
    rcases List.mem_cons.mp hb with rfl | hb
    · exact le_rfl
    · exact le_of_lt ((List.pairwise_cons.mp sorted).1 b hb)

lemma first?_eq_none : s.first? = none ↔ ∀ b, b ∉ s := by
  rw [first?, List.head?_eq_none_iff, List.eq_nil_iff_forall_not_mem]
  rfl

/-- The first element is enough to compare a bound with all of them. -/
lemma first?_all_lt_iff {β : Type*} [LinearOrder β] {f : α → β} (hf : Monotone f) {x : β} :
    (s.first?.all fun a => x < f a) = true ↔ ∀ a ∈ s, x < f a := by
  rw [Option.all_eq_true]
  constructor
  · intro hall b hb
    cases hfirst : s.first? with
    | none => exact absurd hb (first?_eq_none.mp hfirst b)
    | some a =>
      exact lt_of_lt_of_le (of_decide_eq_true (hall a hfirst)) (hf ((first?_eq_some hfirst).2 b hb))
  · intro hall a ha
    exact decide_eq_true (hall a (first?_eq_some ha).1)

/-! ## Inserting and erasing -/

lemma sorted_orderedInsert (ha : a ∉ s) :
    (s.elems.orderedInsert (· ≤ ·) a).Pairwise (· < ·) := by
  have hle : (s.elems.orderedInsert (· ≤ ·) a).Pairwise (· ≤ ·) :=
    (s.sorted.imp le_of_lt).orderedInsert a
  have hne : (s.elems.orderedInsert (· ≤ ·) a).Nodup :=
    (List.perm_orderedInsert _ a s.elems).nodup_iff.mpr (List.nodup_cons.mpr ⟨ha, s.nodup⟩)
  exact (hle.and hne).imp fun h => lt_of_le_of_ne h.1 h.2

/-- `insert(a)`, which does nothing if the element is there. -/
def insert (a : α) (s : OrderedSet α) : OrderedSet α :=
  if ha : a ∈ s then s else ⟨s.elems.orderedInsert (· ≤ ·) a, sorted_orderedInsert ha⟩

@[simp] lemma mem_insert : b ∈ insert a s ↔ b = a ∨ b ∈ s := by
  unfold insert
  split
  · next ha =>
    refine ⟨Or.inr, fun h => h.elim (fun hb => ?_) id⟩
    rw [hb]
    exact ha
  · exact List.mem_orderedInsert _

/-- `erase(a)`. -/
def erase (a : α) (s : OrderedSet α) : OrderedSet α :=
  ⟨s.elems.filter (· ≠ a), s.sorted.filter _⟩

@[simp] lemma mem_erase : b ∈ erase a s ↔ b ≠ a ∧ b ∈ s := by
  simp [erase, mem_iff, and_comm]

/-! ## Splitting at a bound -/

/-- What an iterator meets before `lower_bound(a)`. -/
def before (a : α) (s : OrderedSet α) : List α := s.elems.takeWhile (· < a)

/-- What is left after `erase(begin(), lower_bound(a))`. -/
def eraseBefore (a : α) (s : OrderedSet α) : OrderedSet α :=
  ⟨s.elems.dropWhile (· < a), s.sorted.sublist (List.dropWhile_sublist _)⟩

lemma mem_takeWhile_lt {l : List α} (hl : l.Pairwise (· < ·)) :
    b ∈ l.takeWhile (· < a) ↔ b ∈ l ∧ b < a := by
  induction l with
  | nil => simp
  | cons x l ih =>
    obtain ⟨hx, hl⟩ := List.pairwise_cons.mp hl
    rw [List.takeWhile_cons]
    by_cases hxa : x < a
    · simp only [hxa, decide_true, if_true, List.mem_cons, ih hl]
      constructor
      · rintro (rfl | ⟨hb, hba⟩)
        · exact ⟨Or.inl rfl, hxa⟩
        · exact ⟨Or.inr hb, hba⟩
      · rintro ⟨rfl | hb, hba⟩
        · exact Or.inl rfl
        · exact Or.inr ⟨hb, hba⟩
    · simp only [hxa, decide_false, Bool.false_eq_true, if_false, List.not_mem_nil, false_iff]
      rintro ⟨hb, hba⟩
      rcases List.mem_cons.mp hb with rfl | hb
      · exact hxa hba
      · exact hxa ((hx b hb).trans hba)

@[simp] lemma mem_before : b ∈ before a s ↔ b ∈ s ∧ b < a := mem_takeWhile_lt s.sorted

lemma before_nodup (a : α) (s : OrderedSet α) : (before a s).Nodup :=
  s.nodup.sublist (List.takeWhile_sublist _)

@[simp] lemma mem_eraseBefore : b ∈ eraseBefore a s ↔ b ∈ s ∧ a ≤ b := by
  have hsplit : b ∈ s ↔ b ∈ before a s ∨ b ∈ eraseBefore a s := by
    rw [mem_iff, ← List.takeWhile_append_dropWhile (p := (· < a)) (l := s.elems), List.mem_append]
    rfl
  have hdisj : b ∈ before a s → b ∉ eraseBefore a s := by
    intro hb hb'
    have hnodup := s.nodup
    rw [← List.takeWhile_append_dropWhile (p := (· < a)) (l := s.elems)] at hnodup
    exact (List.nodup_append.mp hnodup).2.2 b hb b hb' rfl
  rw [← not_lt]
  constructor
  · intro hb
    have hs := hsplit.mpr (Or.inr hb)
    exact ⟨hs, fun hlt => hdisj (mem_before.mpr ⟨hs, hlt⟩) hb⟩
  · rintro ⟨hs, hge⟩
    exact (hsplit.mp hs).resolve_left fun hb => hge (mem_before.mp hb).2

/-! ## Comparing sizes -/

/-- Two sets have the same size if their elements are told apart by the same keys. -/
theorem card_eq_of_keys {β κ : Type*} [LinearOrder β] {t : OrderedSet β} {f : α → κ} {g : β → κ}
    (hf : ∀ a ∈ s, ∀ b ∈ s, f a = f b → a = b) (hg : ∀ a ∈ t, ∀ b ∈ t, g a = g b → a = b)
    (hkeys : ∀ k, (∃ a ∈ s, f a = k) ↔ ∃ b ∈ t, g b = k) : s.size = t.size := by
  have hperm : (s.elems.map f).Perm (t.elems.map g) := by
    refine (List.perm_ext_iff_of_nodup (s.nodup.map_on hf) (t.nodup.map_on hg)).mpr fun k => ?_
    rw [List.mem_map, List.mem_map]
    exact hkeys k
  simpa [size] using hperm.length_eq

end OrderedSet

end Firey
