import Firey.Framework.LineParser
import Mathlib.Logic.Relation

/-!
# Loops that shrink something

A loop is a round repeated: a round fails, goes on in a new state, or exits.  It is run with fuel,
and says `timeout` when that runs out.

`Shrinks I m d` says that each round that goes on from a state in `I` ends in `I` and lowers the
measure `m` by `d` at least.  Then every head of the loop is in `I` (`Shrinks.of_heads`), the loop
has no infinite run (`Shrinks.no_endless`), and more than `m / d` rounds of fuel are as good as any
other number (`Shrinks.run_eq`), so that the timeout is never met (`Shrinks.run_rule`).

Nothing here names the library under study.
-/

set_option autoImplicit false

namespace Firey

/-- What a round comes to. -/
inductive Round (σ β : Type*)
  | goesOn (s : σ)
  | exits (b : β)

/-- What is asked of a round's end. -/
def Round.Meets {σ β : Type*} (G : σ → Prop) (Q : β → Prop) : Round σ β → Prop
  | goesOn s => G s
  | exits b => Q b

lemma Round.Meets.imp {σ β : Type*} {G G' : σ → Prop} {Q : β → Prop} {r : Round σ β}
    (h : r.Meets G Q) (hG : ∀ s, G s → G' s) : r.Meets G' Q := by
  cases r with
  | goesOn s => exact hG s h
  | exits b => exact h

structure Loop (σ β ε : Type*) where
  round : σ → Except ε (Round σ β)
  timeout : ε

namespace Loop

variable {σ β ε : Type*} (L : Loop σ β ε)

/-! ## Running a loop -/

/-- Up to so many rounds. -/
def run : ℕ → σ → Except ε β
  | 0, _ => .error L.timeout
  | n + 1, s =>
      match L.round s with
      | .error e => .error e
      | .ok (.goesOn t) => run n t
      | .ok (.exits b) => .ok b

/-- A round that goes on. -/
def Continues (s t : σ) : Prop := L.round s = .ok (.goesOn t)

/-- The loop comes from `s` to `t` at its head. -/
def Heads : σ → σ → Prop := Relation.ReflTransGen L.Continues

variable {s t : σ} {n : ℕ}

lemma run_goesOn (h : L.Continues s t) : L.run (n + 1) s = L.run n t := by
  rw [run, h]

lemma run_exits {b : β} (h : L.round s = .ok (.exits b)) : L.run (n + 1) s = .ok b := by
  rw [run, h]

lemma run_error {e : ε} (h : L.round s = .error e) : L.run (n + 1) s = .error e := by
  rw [run, h]

/-! ## Measures -/

/-- From states in `I`, a round that goes on stays in `I` and lowers `m` by `d` at least. -/
structure Shrinks (I : σ → Prop) (m : σ → ℕ) (d : ℕ) : Prop where
  pos : 0 < d
  keeps : ∀ {s t}, I s → L.Continues s t → I t
  lowers : ∀ {s t}, I s → L.Continues s t → m t + d ≤ m s

variable {L} {I : σ → Prop} {m : σ → ℕ} {d : ℕ}

namespace Shrinks

/-- Every head is in the invariant. -/
theorem of_heads (h : L.Shrinks I m d) (hs : I s) (ht : L.Heads s t) : I t := by
  induction ht with
  | refl => exact hs
  | tail _ hstep ih => exact h.keeps ih hstep

/-- The number of rounds left goes down. -/
lemma div_lt (h : L.Shrinks I m d) (hs : I s) (hstep : L.Continues s t) : m t / d < m s / d := by
  have hlow := Nat.div_le_div_right (c := d) (h.lowers hs hstep)
  rw [Nat.add_div_right _ h.pos] at hlow
  exact hlow

/-- **No endless run.** -/
theorem no_endless (h : L.Shrinks I m d) (hs : I s) :
    ¬ ∃ f : ℕ → σ, f 0 = s ∧ ∀ k, L.Continues (f k) (f (k + 1)) := by
  rintro ⟨f, hf, hstep⟩
  have hin : ∀ k, I (f k) := by
    intro k
    induction k with
    | zero => exact hf ▸ hs
    | succ k ih => exact h.keeps ih (hstep k)
  have hbound : ∀ k, m (f k) + k ≤ m (f 0) := by
    intro k
    induction k with
    | zero => exact le_refl _
    | succ k ih =>
      have hlow := h.lowers (hin k) (hstep k)
      have hpos := h.pos
      omega
  have hlast := hbound (m (f 0) + 1)
  omega

/-- **Fuel.**  With more than `m / d` rounds the loop does what it does with any such number. -/
theorem run_eq (h : L.Shrinks I m d) {k : ℕ} (hs : I s) (hn : m s / d < n) (hk : m s / d < k) :
    L.run n s = L.run k s := by
  induction n generalizing s k with
  | zero => exact absurd hn (Nat.not_lt_zero _)
  | succ n ih =>
    obtain ⟨k, rfl⟩ := Nat.exists_eq_add_one.mpr (Nat.zero_lt_of_lt hk)
    rcases hround : L.round s with e | ⟨t⟩ | ⟨b⟩
    · rw [L.run_error hround, L.run_error hround]
    · have hlt := h.div_lt hs hround
      rw [L.run_goesOn hround, L.run_goesOn hround]
      exact ih (h.keeps hs hround) (hlt.trans_le (Nat.le_of_lt_succ hn))
        (hlt.trans_le (Nat.le_of_lt_succ hk))
    · rw [L.run_exits hround, L.run_exits hround]

/-- **Rule.**  With enough fuel the loop fails only as its rounds do, and never for want of
fuel. -/
theorem run_rule (h : L.Shrinks I m d) {E : ε → Prop} {Q : β → Prop}
    (hround : ∀ s, I s → Returns E (Round.Meets (fun _ => True) Q) (L.round s)) (hs : I s)
    (hn : m s / d < n) : Returns E Q (L.run n s) := by
  induction n generalizing s with
  | zero => exact absurd hn (Nat.not_lt_zero _)
  | succ n ih =>
    have hmeets := hround s hs
    rcases hr : L.round s with e | ⟨t⟩ | ⟨b⟩
    · rw [hr] at hmeets
      rw [L.run_error hr]
      exact hmeets
    · have hlt := h.div_lt hs hr
      rw [L.run_goesOn hr]
      exact ih (h.keeps hs hr) (hlt.trans_le (Nat.le_of_lt_succ hn))
    · rw [hr] at hmeets
      rw [L.run_exits hr]
      exact hmeets

end Shrinks

end Loop

end Firey
