import Mathlib.Data.List.Basic
import Mathlib.Tactic.Lemma

/-!
# Memory behind pointers

A memory says for each address whether there is a cell and what is in it.  A range is read when
all of its cells are there.  What is stored or freed apart from a range does not change what is
read from it.

Nothing here names the library under study.
-/

set_option autoImplicit false

namespace Firey

abbrev Memory (α : Type) := ℕ → Option α

namespace Memory

variable {α : Type}

def empty : Memory α := fun _ => none

/-- The `n` cells from `a` on. -/
def read (m : Memory α) : ℕ → ℕ → Option (List α)
  | _, 0 => some []
  | a, n + 1 => (m a).bind fun x => (m.read (a + 1) n).map (x :: ·)

/-- The cells from `a` on become `xs`. -/
def store (m : Memory α) (a : ℕ) (xs : List α) : Memory α := fun b =>
  if a ≤ b ∧ b < a + xs.length then xs[b - a]? else m b

/-- The `n` cells from `a` on go away. -/
def free (m : Memory α) (a n : ℕ) : Memory α := fun b => if a ≤ b ∧ b < a + n then none else m b

/-- The ranges have no cell in common. -/
def Apart (a n b k : ℕ) : Prop := a + n ≤ b ∨ b + k ≤ a

lemma length_of_read {m : Memory α} {n : ℕ} : ∀ {a : ℕ} {xs : List α},
    m.read a n = some xs → xs.length = n := by
  induction n with
  | zero =>
    intro a xs h
    rw [read, Option.some.injEq] at h
    rw [← h, List.length_nil]
  | succ n ih =>
    intro a xs h
    rw [read, Option.bind_eq_some_iff] at h
    obtain ⟨x, -, h⟩ := h
    obtain ⟨ys, hys, rfl⟩ := Option.map_eq_some_iff.mp h
    rw [List.length_cons, ih hys]

/-- What is read depends on the cells of the range alone. -/
lemma read_congr {m m' : Memory α} {n : ℕ} : ∀ {a : ℕ},
    (∀ b, a ≤ b → b < a + n → m b = m' b) → m.read a n = m'.read a n := by
  induction n with
  | zero => exact fun _ => rfl
  | succ n ih =>
    intro a h
    rw [read, read, h a (Nat.le_refl a) (by omega), ih fun b hb hlt => h b (by omega) (by omega)]

lemma read_store (m : Memory α) {a b n : ℕ} {xs : List α} (h : Apart a n b xs.length) :
    (m.store b xs).read a n = m.read a n := by
  apply read_congr
  intro c hc hlt
  unfold Apart at h
  rw [store, if_neg (by omega)]

lemma read_free (m : Memory α) {a b n k : ℕ} (h : Apart a n b k) :
    (m.free b k).read a n = m.read a n := by
  apply read_congr
  intro c hc hlt
  unfold Apart at h
  rw [free, if_neg (by omega)]

end Memory

end Firey
