import Mathlib.Data.Int.CardIntervalMod
import Mathlib.Order.Interval.Finset.Nat

/-!
# Going round a list

A counter that goes back to zero at the end of a list gives out its elements in turn.  After any
number of turns, no element has come twice more often than another.

Nothing here names the library under study.
-/

set_option autoImplicit false

namespace Firey

namespace RoundRobin

variable {α : Type*}

/-- The first `m` of a list that is gone round. -/
def turns (xs : List α) (m : ℕ) : List (Option α) := (List.range m).map fun k => xs[k % xs.length]?

lemma turns_succ (xs : List α) (m : ℕ) :
    turns xs (m + 1) = turns xs m ++ [xs[m % xs.length]?] := by
  rw [turns, turns, List.range_succ, List.map_append, List.map_singleton]

/-- The counter that goes back to zero is the number of turns, modulo the length. -/
lemma next_mod {n m next : ℕ} (hn : 0 < n) (h : next = m % n) :
    (if n ≤ next + 1 then 0 else next + 1) = (m + 1) % n := by
  have hlt : next < n := h ▸ Nat.mod_lt m hn
  rw [Nat.add_mod, ← h]
  by_cases hone : n = 1
  · subst hone
    rw [if_pos (by omega), Nat.mod_one]
  · rw [Nat.mod_eq_of_lt (show 1 < n by omega)]
    split
    · rw [show next + 1 = n by omega, Nat.mod_self]
    · rw [Nat.mod_eq_of_lt (by omega)]

variable [DecidableEq α]

/-- An element comes where the counter has its place, if they are all different. -/
lemma count_turns_eq {xs : List α} (h : xs.Nodup) {i : ℕ} (hi : i < xs.length) (m : ℕ) :
    (turns xs m).count (some xs[i]) = m.count (· ≡ i [MOD xs.length]) := by
  induction m with
  | zero => rfl
  | succ m ih =>
    have hmod : m % xs.length < xs.length := Nat.mod_lt m (Nat.zero_lt_of_lt hi)
    have hiff : (some xs[m % xs.length] == some xs[i]) = true ↔ m ≡ i [MOD xs.length] := by
      rw [beq_iff_eq, Option.some.injEq, h.getElem_inj_iff, Nat.ModEq, Nat.mod_eq_of_lt hi]
    rw [turns_succ, List.count_append, ih, Nat.count_succ, List.count_singleton,
      List.getElem?_eq_getElem hmod]
    congr 1
    by_cases hm : m ≡ i [MOD xs.length]
    · rw [if_pos (hiff.mpr hm), if_pos hm]
    · rw [if_neg fun heq => hm (hiff.mp heq), if_neg hm]

/-- **How often an element comes.** -/
lemma count_turns {xs : List α} (h : xs.Nodup) {i : ℕ} (hi : i < xs.length) (m : ℕ) :
    (turns xs m).count (some xs[i]) = m / xs.length + if i < m % xs.length then 1 else 0 := by
  rw [count_turns_eq h hi, Nat.count_modEq_card _ (Nat.zero_lt_of_lt hi), Nat.mod_eq_of_lt hi]

/-- **Fairness.**  No element comes twice more often than another. -/
theorem balanced_of_turns {xs : List α} (h : xs.Nodup) {x y : α} (hx : x ∈ xs) (hy : y ∈ xs)
    (m : ℕ) : (turns xs m).count (some x) ≤ (turns xs m).count (some y) + 1 := by
  obtain ⟨i, hi, rfl⟩ := List.getElem_of_mem hx
  obtain ⟨j, hj, rfl⟩ := List.getElem_of_mem hy
  rw [count_turns h hi, count_turns h hj]
  split <;> split <;> omega

end RoundRobin

end Firey
