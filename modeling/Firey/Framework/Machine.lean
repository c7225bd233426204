import Mathlib.Data.List.Basic
import Mathlib.Tactic.Lemma

/-!
# Machines that can fail, and their runs

A component of the library is modelled as a step function `σ → ι → Except ε σ`: `σ` is its
state, an input `ι` fixes everything the environment decides in one step (what the kernel
answers, which call a user callback makes), and an error `ε` is a failed assertion, after
which the process is gone.  Inputs that make no sense in a state leave it alone, so every
list of inputs is a run and nothing has to be said about which inputs are enabled.

`Machine.Along` is the hypothesis a run can carry (a condition met by every step it takes),
`Machine.Meets` the conclusion (every state good, every move allowed, every failure a
permitted one).  `meets_iff_along` is the rule by which the two are shown equivalent from
one step: an invariant, kept while the condition is met and lost visibly where it is not.
`meets_of_sound` and `meets_iff_of_sound` take that step as one fact about what it comes to.
`run_refines` is forward simulation by a total abstract step, and `Lockstep` relates two
machines that fail together.  `run_error` finds the input at which a run fails.

Nothing here names the library under study.
-/

set_option autoImplicit false

namespace Firey

/-- A deterministic machine whose step can fail. -/
structure Machine (σ ι ε : Type*) where
  step : σ → ι → Except ε σ

/-- What a run is asked to do: which states are good, which moves are allowed, and with
which errors it may stop. -/
structure RunSpec (σ ε : Type*) where
  good : σ → Prop
  move : σ → σ → Prop
  stop : ε → Prop

namespace RunSpec

variable {σ ε : Type*} (S : RunSpec σ ε)

/-- What a step from `s` comes to is allowed, and `I` holds of the state it leads to. -/
def Sound (I : σ → Prop) (s : σ) : Except ε σ → Prop
  | .ok t => I t ∧ S.move s t
  | .error e => S.stop e

/-- What a step from `s` comes to is forbidden. -/
def Seen (s : σ) : Except ε σ → Prop
  | .ok t => ¬ (S.move s t ∧ S.good t)
  | .error e => ¬ S.stop e

end RunSpec

namespace Machine

variable {σ ι ε α : Type*} (M : Machine σ ι ε)

/-! ## Runs -/

/-- Feed a list of inputs, stopping at the first failure. -/
def run : σ → List ι → Except ε σ
  | s, [] => .ok s
  | s, i :: is =>
      match M.step s i with
      | .ok t => run t is
      | .error e => .error e

/-- Whether a run succeeds with a certain outcome can be computed. -/
instance {x : Except ε α} {P : α → Prop} [DecidablePred P] : Decidable (∃ a, x = .ok a ∧ P a) :=
  match x with
  | .ok a => decidable_of_iff (P a)
      ⟨fun h => ⟨a, rfl, h⟩, fun ⟨_, hb, h⟩ => Except.ok.inj hb ▸ h⟩
  | .error _ => isFalse fun ⟨_, hb, _⟩ => nomatch hb

/-- So can whether it fails with a certain error. -/
instance {x : Except ε α} {e : ε} [DecidableEq ε] : Decidable (x = .error e) :=
  match x with
  | .ok _ => isFalse nofun
  | .error e' => decidable_of_iff (e' = e) (by rw [Except.error.injEq])

@[simp] lemma run_nil (s : σ) : M.run s [] = .ok s := rfl

lemma run_cons_ok {s t : σ} {i : ι} (h : M.step s i = .ok t) (is : List ι) :
    M.run s (i :: is) = M.run t is := by
  simp only [run, h]

lemma run_cons_error {s : σ} {i : ι} {e : ε} (h : M.step s i = .error e) (is : List ι) :
    M.run s (i :: is) = .error e := by
  simp only [run, h]

/-- A run can be taken up where it ended. -/
lemma run_append {s t : σ} {is : List ι} (h : M.run s is = .ok t) (js : List ι) :
    M.run s (is ++ js) = M.run t js := by
  induction is generalizing s with
  | nil =>
    cases h
    rfl
  | cons i is ih =>
    rcases hi : M.step s i with e | u
    · rw [run_cons_error M hi] at h
      cases h
    · rw [run_cons_ok M hi] at h
      rw [List.cons_append, run_cons_ok M hi, ih h]

/-! ## Conditions and conclusions over a run -/

/-- Every step the run takes meets `P`, the step at which it fails included. -/
def Along (P : σ → ι → Prop) : σ → List ι → Prop
  | _, [] => True
  | s, i :: is =>
      P s i ∧
        match M.step s i with
        | .ok t => Along P t is
        | .error _ => True

/-- A condition on what a computation returns can be computed, so `Along` can. -/
def decidableReturns {x : Except ε σ} {Q : σ → Prop} (h : ∀ t, Decidable (Q t)) :
    Decidable (match x with
      | .ok t => Q t
      | .error _ => True) :=
  match x with
  | .ok t => h t
  | .error _ => .isTrue trivial

instance decidableAlong {P : σ → ι → Prop} [hP : ∀ s i, Decidable (P s i)] (s : σ) :
    (is : List ι) → Decidable (M.Along P s is)
  | [] => .isTrue trivial
  | i :: is => @instDecidableAnd _ _ (hP s i) (decidableReturns fun t => decidableAlong t is)

/-- The run does what `S` asks in every state it passes. -/
def Meets (S : RunSpec σ ε) : σ → List ι → Prop
  | s, [] => S.good s
  | s, i :: is =>
      S.good s ∧
        match M.step s i with
        | .ok t => S.move s t ∧ Meets S t is
        | .error e => S.stop e

lemma Meets.good {S : RunSpec σ ε} : ∀ {s : σ} {is : List ι}, M.Meets S s is → S.good s
  | _, [], h => h
  | _, _ :: _, h => h.1

/-- The state a run ends in is good if the run meets the specification. -/
lemma Meets.good_of_run {S : RunSpec σ ε} {s t : σ} {is : List ι} (h : M.Meets S s is)
    (hrun : M.run s is = .ok t) : S.good t := by
  induction is generalizing s with
  | nil =>
    cases hrun
    exact h
  | cons i is ih =>
    rw [Meets] at h
    cases hi : M.step s i with
    | error e =>
      rw [run_cons_error M hi] at hrun
      cases hrun
    | ok u =>
      rw [run_cons_ok M hi] at hrun
      rw [hi] at h
      exact ih h.2.2 hrun

/-- A run that meets a specification stops only with the errors it permits. -/
lemma Meets.stop_of_run {S : RunSpec σ ε} {s : σ} {is : List ι} {e : ε}
    (h : M.Meets S s is) (hrun : M.run s is = .error e) : S.stop e := by
  induction is generalizing s with
  | nil => cases hrun
  | cons i is ih =>
    rw [Meets] at h
    cases hi : M.step s i with
    | error e' =>
      rw [run_cons_error M hi] at hrun
      cases hrun
      rw [hi] at h
      exact h.2
    | ok t =>
      rw [run_cons_ok M hi] at hrun
      rw [hi] at h
      exact ih h.2.2 hrun

/-- A run that fails fails at one input, and had come up to it. -/
lemma run_error {s : σ} {is : List ι} {e : ε} (h : M.run s is = .error e) :
    ∃ before i after t,
      is = before ++ i :: after ∧ M.run s before = .ok t ∧ M.step t i = .error e := by
  induction is generalizing s with
  | nil => cases h
  | cons i is ih =>
    cases hi : M.step s i with
    | error e' =>
      rw [run_cons_error M hi] at h
      cases h
      exact ⟨[], i, is, s, rfl, rfl, hi⟩
    | ok t =>
      rw [run_cons_ok M hi] at h
      obtain ⟨before, j, after, u, rfl, hrun, hj⟩ := ih h
      exact ⟨i :: before, j, after, u, rfl, (run_cons_ok M hi before).trans hrun, hj⟩

/-! ## The rules -/

/-- **Invariant rule.**  What every successful step keeps, every run keeps. -/
theorem run_invariant {I : σ → Prop} (hstep : ∀ s i t, I s → M.step s i = .ok t → I t)
    {s t : σ} {is : List ι} (hs : I s) (hrun : M.run s is = .ok t) : I t := by
  induction is generalizing s with
  | nil =>
    cases hrun
    exact hs
  | cons i is ih =>
    cases hi : M.step s i with
    | error e =>
      rw [run_cons_error M hi] at hrun
      cases hrun
    | ok u =>
      rw [run_cons_ok M hi] at hrun
      exact ih (hstep s i u hs hi) hrun

/-- What the steps that meet `P` keep, a run along `P` keeps. -/
theorem run_invariant_along {P : σ → ι → Prop} {I : σ → Prop}
    (hstep : ∀ s i t, I s → P s i → M.step s i = .ok t → I t) {s t : σ} {is : List ι} (hs : I s)
    (hP : M.Along P s is) (hrun : M.run s is = .ok t) : I t := by
  induction is generalizing s with
  | nil =>
    cases hrun
    exact hs
  | cons i is ih =>
    obtain ⟨hi, hrest⟩ := hP
    cases hstep' : M.step s i with
    | error e =>
      rw [run_cons_error M hstep'] at hrun
      cases hrun
    | ok u =>
      rw [hstep'] at hrest
      rw [run_cons_ok M hstep'] at hrun
      exact ih (hstep s i u hs hi hstep') hrest hrun

/-- **Forward simulation.**  If the abstract step `abs` follows every concrete step taken
under the condition `P`, a run along `P` succeeds and ends in a state related to the
abstract run. -/
theorem run_refines {P : σ → ι → Prop} {R : σ → α → Prop} {abs : α → ι → α}
    (hstep : ∀ s a i, R s a → P s i → ∃ t, M.step s i = .ok t ∧ R t (abs a i))
    {s : σ} {a : α} {is : List ι} (hs : R s a) (hP : M.Along P s is) :
    ∃ t, M.run s is = .ok t ∧ R t (is.foldl abs a) := by
  induction is generalizing s a with
  | nil => exact ⟨s, rfl, hs⟩
  | cons i is ih =>
    obtain ⟨t, ht, hR⟩ := hstep s a i hs hP.1
    have hrest : M.Along P t is := by
      have h := hP.2
      rwa [ht] at h
    rw [run_cons_ok M ht, List.foldl_cons]
    exact ih hR hrest

/-- **Total runs.**  A machine whose step never fails from an invariant never fails. -/
theorem run_total {I : σ → Prop} (hstep : ∀ s i, I s → ∃ t, M.step s i = .ok t ∧ I t)
    {s : σ} (hs : I s) (is : List ι) : ∃ t, M.run s is = .ok t ∧ I t := by
  induction is generalizing s with
  | nil => exact ⟨s, rfl, hs⟩
  | cons i is ih =>
    obtain ⟨t, ht, hI⟩ := hstep s i hs
    rw [run_cons_ok M ht]
    exact ih hI

/-- **Specification rule.**  `I` is good and is kept, with an allowed move or a permitted
stop, by each step that meets `P`; then a run along `P` meets the specification. -/
theorem meets_of_along {S : RunSpec σ ε} {P : σ → ι → Prop} {I : σ → Prop}
    (hgood : ∀ s, I s → S.good s)
    (hok : ∀ s i t, I s → P s i → M.step s i = .ok t → I t ∧ S.move s t)
    (hstop : ∀ s i e, I s → P s i → M.step s i = .error e → S.stop e)
    {s : σ} {is : List ι} (hs : I s) (hP : M.Along P s is) : M.Meets S s is := by
  induction is generalizing s with
  | nil => exact hgood s hs
  | cons i is ih =>
    obtain ⟨hi, hrest⟩ := hP
    refine ⟨hgood s hs, ?_⟩
    cases hstep : M.step s i with
    | error e => exact hstop s i e hs hi hstep
    | ok t =>
      rw [hstep] at hrest
      obtain ⟨hI, hmove⟩ := hok s i t hs hi hstep
      exact ⟨hmove, ih hI hrest⟩

/-- A condition on the inputs holds along a run when each of its inputs meets it. -/
lemma along_of_mem {P : σ → ι → Prop} {is : List ι} (h : ∀ i ∈ is, ∀ s, P s i) (s : σ) :
    M.Along P s is := by
  induction is generalizing s with
  | nil => trivial
  | cons i is ih =>
    refine ⟨h i List.mem_cons_self s, ?_⟩
    split
    · exact ih (fun j hj => h j (List.mem_cons_of_mem i hj)) _
    · trivial

/-- A condition every step meets holds along every run. -/
lemma along_of_forall {P : σ → ι → Prop} (h : ∀ s i, P s i) (s : σ) (is : List ι) :
    M.Along P s is :=
  M.along_of_mem (fun i _ s => h s i) s

/-- A condition that an invariant gives for the inputs of a run holds along it. -/
lemma along_of_invariant {P : σ → ι → Prop} {I : σ → Prop} {Q : ι → Prop}
    (hP : ∀ s i, I s → Q i → P s i) (hstep : ∀ s i t, I s → Q i → M.step s i = .ok t → I t)
    {s : σ} {is : List ι} (hs : I s) (hQ : ∀ i ∈ is, Q i) : M.Along P s is := by
  induction is generalizing s with
  | nil => trivial
  | cons i is ih =>
    have hi := hQ i List.mem_cons_self
    refine ⟨hP s i hs hi, ?_⟩
    cases ht : M.step s i with
    | error e => trivial
    | ok t => exact ih (hstep s i t hs hi ht) fun j hj => hQ j (List.mem_cons_of_mem i hj)

/-- A condition along a run holds along its parts. -/
lemma along_append {P : σ → ι → Prop} {s : σ} {is js : List ι} (h : M.Along P s (is ++ js)) :
    M.Along P s is ∧ ∀ t, M.run s is = .ok t → M.Along P t js := by
  induction is generalizing s with
  | nil =>
    refine ⟨trivial, fun t ht => ?_⟩
    cases ht
    exact h
  | cons i is ih =>
    obtain ⟨hi, hrest⟩ := h
    cases hu : M.step s i with
    | error e =>
      refine ⟨⟨hi, by rw [hu]; trivial⟩, fun t ht => ?_⟩
      rw [run_cons_error M hu] at ht
      cases ht
    | ok u =>
      rw [hu] at hrest
      obtain ⟨hfirst, hlast⟩ := ih hrest
      refine ⟨⟨hi, by rw [hu]; exact hfirst⟩, fun t ht => hlast t ?_⟩
      rwa [run_cons_ok M hu] at ht

/-- Two conditions that an invariant makes equivalent hold along the same runs, when one of them
keeps the invariant. -/
theorem along_iff_along {P Q : σ → ι → Prop} {I : σ → Prop}
    (hiff : ∀ s i, I s → (P s i ↔ Q s i))
    (hstep : ∀ s i t, I s → Q s i → M.step s i = .ok t → I t) {s : σ} {is : List ι} (hs : I s) :
    M.Along P s is ↔ M.Along Q s is := by
  induction is generalizing s with
  | nil => exact Iff.rfl
  | cons i is ih =>
    rw [Along, Along, hiff s i hs]
    refine and_congr_right fun hi => ?_
    cases ht : M.step s i with
    | error e => exact Iff.rfl
    | ok t => exact ih (hstep s i t hs hi ht)

/-- **Exactness rule.**  `I` is good, is kept with an allowed move (or a permitted stop) by
each step that meets `P`, and each step that does not meet `P` is seen: it fails with a
forbidden error, makes a forbidden move, or leads to a state that is not good.  Then a run
meets the specification exactly when every step of it meets `P`. -/
theorem meets_iff_along {S : RunSpec σ ε} {P : σ → ι → Prop} {I : σ → Prop}
    (hgood : ∀ s, I s → S.good s)
    (hok : ∀ s i t, I s → P s i → M.step s i = .ok t → I t ∧ S.move s t)
    (hstop : ∀ s i e, I s → P s i → M.step s i = .error e → S.stop e)
    (hseen : ∀ s i t, I s → ¬ P s i → M.step s i = .ok t → ¬ (S.move s t ∧ S.good t))
    (hfail : ∀ s i e, I s → ¬ P s i → M.step s i = .error e → ¬ S.stop e)
    {s : σ} {is : List ι} (hs : I s) : M.Meets S s is ↔ M.Along P s is := by
  induction is generalizing s with
  | nil => exact ⟨fun _ => trivial, fun _ => hgood s hs⟩
  | cons i is ih =>
    cases hi : M.step s i with
    | error e =>
      simp only [Meets, Along, hi, and_true]
      constructor
      · rintro ⟨-, hstops⟩
        by_contra hP
        exact hfail s i e hs hP hi hstops
      · intro hP
        exact ⟨hgood s hs, hstop s i e hs hP hi⟩
    | ok t =>
      simp only [Meets, Along, hi]
      constructor
      · rintro ⟨-, hmove, hrest⟩
        have hP : P s i := by
          by_contra hP
          exact hseen s i t hs hP hi ⟨hmove, Meets.good M hrest⟩
        exact ⟨hP, (ih (hok s i t hs hP hi).1).mp hrest⟩
      · rintro ⟨hP, hrest⟩
        obtain ⟨hI, hmove⟩ := hok s i t hs hP hi
        exact ⟨hgood s hs, hmove, (ih hI).mpr hrest⟩

/-- The specification rule, with one condition on what a step comes to. -/
theorem meets_of_sound {S : RunSpec σ ε} {P : σ → ι → Prop} {I : σ → Prop}
    (hgood : ∀ s, I s → S.good s) (hsound : ∀ s i, I s → P s i → S.Sound I s (M.step s i))
    {s : σ} {is : List ι} (hs : I s) (hP : M.Along P s is) : M.Meets S s is := by
  refine M.meets_of_along hgood ?_ ?_ hs hP
  · intro s i t h hi hstep
    have hs := hsound s i h hi
    rwa [hstep] at hs
  · intro s i e h hi hstep
    have hs := hsound s i h hi
    rwa [hstep] at hs

/-- The exactness rule, with one condition on what a step that meets `P` comes to and one on what
a step that does not comes to. -/
theorem meets_iff_of_sound {S : RunSpec σ ε} {P : σ → ι → Prop} {I : σ → Prop}
    (hgood : ∀ s, I s → S.good s) (hsound : ∀ s i, I s → P s i → S.Sound I s (M.step s i))
    (hseen : ∀ s i, I s → ¬ P s i → S.Seen s (M.step s i)) {s : σ} {is : List ι} (hs : I s) :
    M.Meets S s is ↔ M.Along P s is := by
  refine M.meets_iff_along hgood ?_ ?_ ?_ ?_ hs
  · intro s i t h hi hstep
    have hs := hsound s i h hi
    rwa [hstep] at hs
  · intro s i e h hi hstep
    have hs := hsound s i h hi
    rwa [hstep] at hs
  · intro s i t h hi hstep
    have hs := hseen s i h hi
    rwa [hstep] at hs
  · intro s i e h hi hstep
    have hs := hseen s i h hi
    rwa [hstep] at hs

/-! ## Two runs of one machine -/

/-- Both fail alike, or end in related states. -/
def Alike (R : σ → σ → Prop) : Except ε σ → Except ε σ → Prop
  | .ok s, .ok t => R s t
  | .error e, .error e' => e = e'
  | _, _ => False

lemma Alike.imp {R R' : σ → σ → Prop} {x y : Except ε σ} (h : Alike R x y)
    (himp : ∀ s t, x = .ok s → R s t → R' s t) : Alike R' x y := by
  cases x with
  | error e =>
    cases y with
    | error e' => exact h
    | ok t => exact h.elim
  | ok s =>
    cases y with
    | error e' => exact h.elim
    | ok t => exact himp s t rfl h

/-- Two runs with the same inputs stay related as long as the steps of the first meet `P`. -/
theorem run_alike {P : σ → ι → Prop} {R : σ → σ → Prop}
    (hstep : ∀ s t i, R s t → P s i → Alike R (M.step s i) (M.step t i)) {s t : σ} {is : List ι}
    (hR : R s t) (hP : M.Along P s is) : Alike R (M.run s is) (M.run t is) := by
  induction is generalizing s t with
  | nil => exact hR
  | cons i is ih =>
    obtain ⟨hi, hrest⟩ := hP
    have halike := hstep s t i hR hi
    cases hs : M.step s i with
    | error e =>
      cases ht : M.step t i with
      | error e' =>
        rw [hs, ht] at halike
        rwa [run_cons_error M hs, run_cons_error M ht]
      | ok t' =>
        rw [hs, ht] at halike
        exact halike.elim
    | ok s' =>
      cases ht : M.step t i with
      | error e' =>
        rw [hs, ht] at halike
        exact halike.elim
      | ok t' =>
        rw [hs, ht] at halike
        rw [hs] at hrest
        rw [run_cons_ok M hs, run_cons_ok M ht]
        exact ih halike hrest

/-! ## Two machines in step -/

section Lockstep

variable {τ κ : Type*} {M} {N : Machine τ κ ε} {R : σ → τ → Prop} {f : ι → κ}

/-- From related states, both machines fail alike or go on to related states. -/
def Lockstep (M : Machine σ ι ε) (N : Machine τ κ ε) (R : σ → τ → Prop) (f : ι → κ) : Prop :=
  ∀ s a i, R s a →
    (∃ e, M.step s i = .error e ∧ N.step a (f i) = .error e) ∨
      ∃ t b, M.step s i = .ok t ∧ N.step a (f i) = .ok b ∧ R t b

/-- What one of the two runs reaches, the other reaches a state related to. -/
theorem Lockstep.run_ok (h : Lockstep M N R f) {s : σ} {a b : τ} {is : List ι} (hR : R s a)
    (hrun : N.run a (is.map f) = .ok b) : ∃ t, M.run s is = .ok t ∧ R t b := by
  induction is generalizing s a with
  | nil =>
    cases hrun
    exact ⟨s, rfl, hR⟩
  | cons i is ih =>
    rw [List.map_cons] at hrun
    rcases h s a i hR with ⟨e, -, hN⟩ | ⟨t, c, hM, hN, hR'⟩
    · rw [run_cons_error N hN] at hrun
      cases hrun
    · rw [run_cons_ok N hN] at hrun
      rw [run_cons_ok M hM]
      exact ih hR' hrun

/-- Two specifications that agree on related states are met by the same inputs. -/
theorem Lockstep.meets_iff (h : Lockstep M N R f) {S : RunSpec σ ε} {T : RunSpec τ ε}
    (hgood : ∀ s a, R s a → (S.good s ↔ T.good a))
    (hmove : ∀ s a t b, R s a → R t b → (S.move s t ↔ T.move a b))
    (hstop : ∀ e, S.stop e ↔ T.stop e) {s : σ} {a : τ} (hR : R s a) (is : List ι) :
    M.Meets S s is ↔ N.Meets T a (is.map f) := by
  induction is generalizing s a with
  | nil => exact hgood s a hR
  | cons i is ih =>
    rw [List.map_cons, Meets, Meets, hgood s a hR]
    rcases h s a i hR with ⟨e, hM, hN⟩ | ⟨t, b, hM, hN, hR'⟩
    · simp only [hM, hN, hstop e]
    · simp only [hM, hN, hmove s a t b hR hR', ih hR']

end Lockstep

end Machine

end Firey
