import Mathlib.Data.List.Basic
import Mathlib.Data.List.Infix
import Mathlib.Tactic.Lemma

/-!
# First occurrences

`search p l` is the first position of `l` at which the block `p` occurs, the meaning of
`std::search` when the end iterator it returns for "not found" is read as `none`.  `cut c l`
is the split of `l` at its first `c`, the meaning of `std::find` on a range.

What makes incremental parsing work is that an occurrence found stays the first one when more
cells arrive (`search_append_of_some`), and that a block sent behind cells that do not hold it
is found right there (`search_append_pair`).
-/

set_option autoImplicit false

namespace Firey

variable {α : Type*} [DecidableEq α]

/-! ## Blocks -/

/-- First position at which `p` occurs in `l`. -/
def search (p : List α) : List α → Option ℕ
  | [] => if p = [] then some 0 else none
  | x :: xs => if p <+: x :: xs then some 0 else (search p xs).map (· + 1)

lemma search_cons_hit {p xs : List α} {x : α} (h : p <+: x :: xs) :
    search p (x :: xs) = some 0 := by
  rw [search, if_pos h]

lemma search_cons_miss {p xs : List α} {x : α} (h : ¬ p <+: x :: xs) :
    search p (x :: xs) = (search p xs).map (· + 1) := by
  rw [search, if_neg h]

/-- What is found is there. -/
lemma search_some_occurs {p : List α} : ∀ {l : List α} {n : ℕ}, search p l = some n →
    p <+: l.drop n
  | [], n, h => by
      rw [search] at h
      split at h
      · next hp => simp [hp]
      · cases h
  | x :: xs, n, h => by
      by_cases hp : p <+: x :: xs
      · rw [search_cons_hit hp] at h
        cases h
        exact hp
      · rw [search_cons_miss hp] at h
        obtain ⟨m, hm, rfl⟩ := Option.map_eq_some_iff.mp h
        rw [List.drop_succ_cons]
        exact search_some_occurs hm

lemma search_some_le {p l : List α} {n : ℕ} (h : search p l = some n) :
    n + p.length ≤ l.length ∨ p = [] := by
  have hlen := (search_some_occurs h).length_le
  rw [List.length_drop] at hlen
  by_cases hp : p = []
  · exact Or.inr hp
  · have := List.length_pos_iff.mpr hp
    omega

/-- A found occurrence stays the first one when the list grows at its end. -/
lemma search_append_of_some {p : List α} : ∀ {l : List α} {n : ℕ} (r : List α),
    p ≠ [] → search p l = some n → search p (l ++ r) = some n
  | [], n, r, hp, h => by
      rw [search, if_neg hp] at h
      cases h
  | x :: xs, n, r, hp, h => by
      by_cases hpre : p <+: x :: xs
      · rw [search_cons_hit hpre] at h
        have hpre' : p <+: x :: (xs ++ r) := hpre.trans (List.prefix_append (x :: xs) r)
        rw [List.cons_append, search_cons_hit hpre', h]
      · rw [search_cons_miss hpre] at h
        obtain ⟨m, hm, rfl⟩ := Option.map_eq_some_iff.mp h
        have hle := (search_some_le hm).resolve_right hp
        have hpre' : ¬ p <+: x :: (xs ++ r) := by
          intro hcon
          refine hpre (List.prefix_of_prefix_length_le hcon (List.prefix_append (x :: xs) r) ?_)
          rw [List.length_cons]
          omega
        rw [List.cons_append, search_cons_miss hpre',
          search_append_of_some r hp hm]
        rfl

/-- A block with a cell that the list does not have is not found. -/
lemma search_eq_none_of_not_mem {p l : List α} {x : α} (hp : x ∈ p) (hl : x ∉ l) :
    search p l = none := by
  rcases hn : search p l with _ | n
  · rfl
  · exact absurd (List.mem_of_mem_drop ((search_some_occurs hn).subset hp)) hl

/-- Before its first occurrence the block does not occur. -/
lemma search_take_of_some {p l : List α} {n : ℕ} (hp : p ≠ []) (h : search p l = some n) :
    search p (l.take n) = none := by
  rcases hm : search p (l.take n) with _ | m
  · rfl
  · have hfirst := search_append_of_some (l.drop n) hp hm
    rw [List.take_append_drop, h] at hfirst
    have hle := (search_some_le hm).resolve_right hp
    have hlen := List.length_take_le n l
    have hpos := List.length_pos_iff.mpr hp
    have hmn := Option.some.inj hfirst
    omega

/-- A list found to hold the block is the cells before it, the block, and the rest. -/
lemma search_some_eq {p l : List α} {n : ℕ} (h : search p l = some n) :
    l = l.take n ++ p ++ l.drop (n + p.length) := by
  obtain ⟨r, hr⟩ := search_some_occurs h
  have hdrop : l.drop (n + p.length) = r := by
    rw [← List.drop_drop, ← hr, List.drop_left]
  rw [hdrop, List.append_assoc, hr, List.take_append_drop]

/-- A two-cell block with distinct cells cannot straddle the end of a list that does not
contain it and a copy of itself, so the copy is the first occurrence. -/
lemma search_append_pair {a b : α} (hab : a ≠ b) : ∀ {l : List α} (r : List α),
    search [a, b] l = none → search [a, b] (l ++ [a, b] ++ r) = some l.length
  | [], r, _ => by
      rw [List.nil_append, List.cons_append, search_cons_hit (List.prefix_append _ _)]
      rfl
  | x :: xs, r, h => by
      have hnot : ¬ [a, b] <+: x :: xs := by
        intro hcon
        rw [search_cons_hit hcon] at h
        cases h
      rw [search_cons_miss hnot, Option.map_eq_none_iff] at h
      have hnot' : ¬ [a, b] <+: x :: (xs ++ [a, b] ++ r) := by
        intro hcon
        obtain ⟨hax, hrest⟩ := List.cons_prefix_cons.mp hcon
        cases xs with
        | nil =>
          rw [List.nil_append, List.cons_append] at hrest
          exact hab (List.cons_prefix_cons.mp hrest).1.symm
        | cons y ys =>
          rw [List.cons_append, List.cons_append] at hrest
          refine hnot (List.cons_prefix_cons.mpr ⟨hax, ?_⟩)
          rw [List.cons_prefix_cons] at hrest ⊢
          exact ⟨hrest.1, List.nil_prefix⟩
      rw [List.cons_append, List.cons_append, search_cons_miss hnot',
        search_append_pair hab r h]
      rfl

/-- A cell outside a two-cell block keeps the parts beside it apart. -/
lemma search_append_cons_eq_none {a b x : α} (hxa : x ≠ a) (hxb : x ≠ b) {v : List α}
    (hv : search [a, b] v = none) : ∀ {u : List α}, search [a, b] u = none →
      search [a, b] (u ++ x :: v) = none
  | [], _ => by
      have hmiss : ¬ [a, b] <+: x :: v := by
        intro hcon
        exact hxa (List.cons_prefix_cons.mp hcon).1.symm
      rw [List.nil_append, search_cons_miss hmiss, hv]
      rfl
  | y :: ys, hu => by
      have hnot : ¬ [a, b] <+: y :: ys := by
        intro hcon
        rw [search_cons_hit hcon] at hu
        cases hu
      rw [search_cons_miss hnot, Option.map_eq_none_iff] at hu
      have hmiss : ¬ [a, b] <+: y :: (ys ++ x :: v) := by
        intro hcon
        obtain ⟨hay, hrest⟩ := List.cons_prefix_cons.mp hcon
        rcases ys with _ | ⟨z, zs⟩
        · exact hxb (List.cons_prefix_cons.mp hrest).1.symm
        · refine hnot (List.cons_prefix_cons.mpr ⟨hay, ?_⟩)
          exact List.cons_prefix_cons.mpr ⟨(List.cons_prefix_cons.mp hrest).1, List.nil_prefix⟩
      rw [List.cons_append, search_cons_miss hmiss, search_append_cons_eq_none hxa hxb hv hu]
      rfl

/-! ## Single cells -/

/-- The cells before the first `c`, and the cells after it if there is one. -/
def cut (c : α) : List α → List α × Option (List α)
  | [] => ([], none)
  | x :: xs => if x = c then ([], some xs) else ((x :: (cut c xs).1), (cut c xs).2)

lemma cut_fst_not_mem (c : α) : ∀ l : List α, c ∉ (cut c l).1
  | [] => by simp [cut]
  | x :: xs => by
      rw [cut]
      split
      · simp
      · next hx =>
        have ih := cut_fst_not_mem c xs
        simp only [List.mem_cons, not_or]
        exact ⟨fun h => hx h.symm, ih⟩

lemma cut_fst (c : α) : ∀ l : List α, (cut c l).1 = l.takeWhile (· ≠ c)
  | [] => rfl
  | x :: xs => by
      rw [cut]
      by_cases hx : x = c
      · simp [hx]
      · rw [if_neg hx, List.takeWhile_cons_of_pos (by simpa using hx), cut_fst c xs]

/-- A cut with a separator puts the list back together. -/
lemma cut_eq_some {c : α} : ∀ {l u v : List α}, cut c l = (u, some v) → l = u ++ c :: v
  | [], u, v, h => by simp [cut] at h
  | x :: xs, u, v, h => by
      rw [cut] at h
      split at h
      · next hx =>
        cases h
        rw [hx, List.nil_append]
      · obtain ⟨hu, hv⟩ := Prod.mk.inj h
        subst hu
        rw [List.cons_append]
        exact congrArg (x :: ·) (cut_eq_some (Prod.ext rfl hv))

lemma cut_eq_none {c : α} : ∀ {l u : List α}, cut c l = (u, none) → l = u ∧ c ∉ l
  | [], u, h => by
      cases h
      exact ⟨rfl, List.not_mem_nil⟩
  | x :: xs, u, h => by
      rw [cut] at h
      split at h
      · cases h
      · next hx =>
        obtain ⟨hu, hv⟩ := Prod.mk.inj h
        obtain ⟨hxs, hc⟩ := cut_eq_none (Prod.ext rfl hv : cut c xs = ((cut c xs).1, none))
        subst hu
        rw [← hxs]
        refine ⟨rfl, ?_⟩
        simp only [List.mem_cons, not_or]
        exact ⟨fun h => hx h.symm, hc⟩

/-- The cut of a list whose separator is known to come first after `u`. -/
lemma cut_append {c : α} : ∀ {u : List α} (v : List α), c ∉ u →
    cut c (u ++ c :: v) = (u, some v)
  | [], v, _ => by simp [cut]
  | x :: xs, v, h => by
      simp only [List.mem_cons, not_or] at h
      rw [List.cons_append, cut, if_neg (fun hx => h.1 hx.symm), cut_append v h.2]

end Firey
