import Firey.Framework.Search

/-!
# Parsers that take a line at a time

A line parser looks for the next end mark, hands the line before it to `line`, and by the
verdict takes the line and goes on, takes it and stops, or refuses it and leaves it where it
is.  Without an end mark it waits.  Errors are those of `line`.

Parsing can be interrupted anywhere: a parse of `l ++ r` is the parse of `l`, taken up again
with `r` (`run_append`), so an ending other than `waits` is final and nothing depends on where
the cells were cut.  `run_rule` is the rule for what holds of the states a parse passes, and
`run_map` compares two parsers whose states are related by a function.

Nothing here names the library under study.
-/

set_option autoImplicit false

namespace Firey

/-- What a parser makes of a line. -/
inductive Verdict (σ : Type*)
  | goesOn (s : σ)
  | stops (s : σ)
  | refuses (s : σ)

/-- How a parse ends. -/
inductive Ending
  | waits
  | stopped
  | refused
  deriving DecidableEq, Repr

/-- The end of a parse: the state and the cells that were not taken. -/
structure Outcome (α σ : Type*) where
  ending : Ending
  state : σ
  rest : List α
  deriving DecidableEq

/-- A parser of lines that end in `mark`. -/
structure LineParser (α σ ε : Type*) where
  mark : List α
  mark_ne : mark ≠ []
  line : σ → List α → Except ε (Verdict σ)

variable {α σ τ ε : Type*}

/-- A computation fails as `E` allows or returns what `Q` asks for. -/
def Returns {β : Type*} (E : ε → Prop) (Q : β → Prop) : Except ε β → Prop
  | .ok b => Q b
  | .error e => E e

lemma Returns.imp {β : Type*} {E : ε → Prop} {Q Q' : β → Prop} {x : Except ε β}
    (h : Returns E Q x) (hQ : ∀ b, Q b → Q' b) : Returns E Q' x := by
  cases x with
  | error e => exact h
  | ok b => exact hQ b h

/-- What is asked of the state behind each verdict. -/
def Verdict.Meets (I S R : σ → Prop) : Verdict σ → Prop
  | goesOn s => I s
  | stops s => S s
  | refuses s => R s

/-- What is asked of the state behind each ending. -/
def Outcome.Meets (I S R : σ → Prop) (o : Outcome α σ) : Prop :=
  match o.ending with
  | .waits => I o.state
  | .stopped => S o.state
  | .refused => R o.state

def Verdict.map (f : σ → τ) : Verdict σ → Verdict τ
  | goesOn s => goesOn (f s)
  | stops s => stops (f s)
  | refuses s => refuses (f s)

def Outcome.map (f : σ → τ) (o : Outcome α σ) : Outcome α τ := ⟨o.ending, f o.state, o.rest⟩

namespace LineParser

variable (P : LineParser α σ ε)

/-! ## Lines -/

/-- Lines, each with its end mark. -/
def joined (us : List (List α)) : List α := (us.map (· ++ P.mark)).flatten

@[simp] lemma joined_nil : P.joined [] = [] := rfl

@[simp] lemma joined_cons (u : List α) (us : List (List α)) :
    P.joined (u :: us) = u ++ P.mark ++ P.joined us := rfl

@[simp] lemma joined_append (us vs : List (List α)) :
    P.joined (us ++ vs) = P.joined us ++ P.joined vs := by
  rw [joined, joined, joined, List.map_append, List.flatten_append]

lemma joined_eq_nil_iff {us : List (List α)} : P.joined us = [] ↔ us = [] := by
  refine ⟨fun h => ?_, fun h => h ▸ rfl⟩
  cases us with
  | nil => rfl
  | cons u us =>
    rw [joined_cons, List.append_eq_nil_iff, List.append_eq_nil_iff] at h
    exact absurd h.1.2 P.mark_ne

variable [DecidableEq α]

/-- The first line and the cells behind its end mark. -/
def nextLine (l : List α) : Option (List α × List α) :=
  (search P.mark l).map fun n => (l.take n, l.drop (n + P.mark.length))

lemma nextLine_eq_none_iff {l : List α} : P.nextLine l = none ↔ search P.mark l = none :=
  Option.map_eq_none_iff

lemma nextLine_of_search {l : List α} {n : ℕ} (h : search P.mark l = some n) :
    P.nextLine l = some (l.take n, l.drop (n + P.mark.length)) := by
  rw [nextLine, h]
  rfl

lemma search_of_nextLine {l u v : List α} (h : P.nextLine l = some (u, v)) :
    ∃ n, search P.mark l = some n ∧ u = l.take n ∧ v = l.drop (n + P.mark.length) := by
  obtain ⟨n, hn, huv⟩ := Option.map_eq_some_iff.mp h
  obtain ⟨hu, hv⟩ := Prod.mk.inj huv
  exact ⟨n, hn, hu.symm, hv.symm⟩

lemma eq_of_nextLine {l u v : List α} (h : P.nextLine l = some (u, v)) :
    l = u ++ P.mark ++ v := by
  obtain ⟨n, hn, rfl, rfl⟩ := P.search_of_nextLine h
  exact search_some_eq hn

lemma length_of_nextLine {l u v : List α} (h : P.nextLine l = some (u, v)) :
    v.length + P.mark.length + u.length = l.length := by
  rw [P.eq_of_nextLine h]
  simp only [List.length_append]
  omega

lemma length_lt_of_nextLine {l u v : List α} (h : P.nextLine l = some (u, v)) :
    v.length < l.length := by
  have hlen := P.length_of_nextLine h
  have hmark := List.length_pos_iff.mpr P.mark_ne
  omega

/-- The first line stays the first line when more cells arrive. -/
lemma nextLine_append {l u v : List α} (h : P.nextLine l = some (u, v)) (r : List α) :
    P.nextLine (l ++ r) = some (u, v ++ r) := by
  obtain ⟨n, hn, rfl, rfl⟩ := P.search_of_nextLine h
  have hle := (search_some_le hn).resolve_right P.mark_ne
  rw [P.nextLine_of_search (search_append_of_some r P.mark_ne hn),
    List.take_append_of_le_length (by omega), List.drop_append_of_le_length hle]

/-- A line without the end mark, sent with it, is received as that line.  The mark has two
different cells, so that the end of the line cannot complete it early. -/
lemma nextLine_append_mark {a b : α} (hmark : P.mark = [a, b]) (hab : a ≠ b) {u : List α}
    (hu : search P.mark u = none) (r : List α) :
    P.nextLine (u ++ P.mark ++ r) = some (u, r) := by
  have hsearch : search P.mark (u ++ P.mark ++ r) = some u.length := by
    rw [hmark] at hu ⊢
    exact search_append_pair hab r hu
  rw [P.nextLine_of_search hsearch, List.append_assoc, List.take_left, ← List.append_assoc,
    ← List.length_append, List.drop_left]

/-- A line holds no end mark. -/
lemma free_of_nextLine {l u v : List α} (h : P.nextLine l = some (u, v)) :
    search P.mark u = none := by
  obtain ⟨n, hn, rfl, -⟩ := P.search_of_nextLine h
  exact search_take_of_some P.mark_ne hn

/-- The lines at the beginning of a list can be told from it: of two ways to begin it with lines,
one goes further than the other. -/
lemma joined_split {a b : α} (hmark : P.mark = [a, b]) (hab : a ≠ b) {us vs : List (List α)}
    {l r : List α} (hus : ∀ u ∈ us, search P.mark u = none)
    (hvs : ∀ v ∈ vs, search P.mark v = none) (h : P.joined us ++ l = P.joined vs ++ r) :
    (∃ ws, vs = us ++ ws ∧ l = P.joined ws ++ r) ∨ ∃ ws, us = vs ++ ws ∧ r = P.joined ws ++ l := by
  induction us generalizing vs with
  | nil => exact .inl ⟨vs, rfl, h⟩
  | cons u us ih =>
    cases vs with
    | nil => exact .inr ⟨u :: us, rfl, h.symm⟩
    | cons v vs =>
      rw [joined_cons, joined_cons, List.append_assoc, List.append_assoc _ _ r] at h
      have hu := P.nextLine_append_mark hmark hab (hus u List.mem_cons_self) (P.joined us ++ l)
      rw [h, P.nextLine_append_mark hmark hab (hvs v List.mem_cons_self)] at hu
      obtain ⟨rfl, hrest⟩ := Prod.mk.inj (Option.some.inj hu)
      have hus' : ∀ x ∈ us, search P.mark x = none := fun x hx => hus x (List.mem_cons_of_mem v hx)
      have hvs' : ∀ x ∈ vs, search P.mark x = none := fun x hx => hvs x (List.mem_cons_of_mem v hx)
      rcases ih hus' hvs' hrest.symm with ⟨ws, rfl, hl⟩ | ⟨ws, rfl, hr⟩
      · exact .inl ⟨ws, rfl, hl⟩
      · exact .inr ⟨ws, rfl, hr⟩

/-- Lines can be told from the cells they make. -/
lemma joined_inj {a b : α} (hmark : P.mark = [a, b]) (hab : a ≠ b) {us vs : List (List α)}
    (hus : ∀ u ∈ us, search P.mark u = none) (hvs : ∀ v ∈ vs, search P.mark v = none)
    (h : P.joined us = P.joined vs) : us = vs := by
  have hsplit := P.joined_split hmark hab (l := []) (r := []) hus hvs (by rw [h])
  rcases hsplit with ⟨ws, rfl, hws⟩ | ⟨ws, rfl, hws⟩
  · rw [List.append_nil, eq_comm, P.joined_eq_nil_iff] at hws
    rw [hws, List.append_nil]
  · rw [List.append_nil, eq_comm, P.joined_eq_nil_iff] at hws
    rw [hws, List.append_nil]

/-! ## Parsing -/

/-- Take lines until one of them ends the parse or no end mark is left. -/
def run (s : σ) (l : List α) : Except ε (Outcome α σ) :=
  match _h : P.nextLine l with
  | none => .ok ⟨.waits, s, l⟩
  | some (u, v) =>
      match P.line s u with
      | .error e => .error e
      | .ok (.goesOn t) => run t v
      | .ok (.stops t) => .ok ⟨.stopped, t, v⟩
      | .ok (.refuses t) => .ok ⟨.refused, t, l⟩
  termination_by l.length
  decreasing_by exact P.length_lt_of_nextLine _h

variable {s t : σ} {l u v : List α}

lemma run_none (s : σ) (h : P.nextLine l = none) : P.run s l = .ok ⟨.waits, s, l⟩ := by
  rw [run]
  split
  · rfl
  · next heq =>
    rw [h] at heq
    cases heq

/-- A parse with a line to take is decided by the verdict on it. -/
lemma run_some (s : σ) (h : P.nextLine l = some (u, v)) :
    P.run s l =
      match P.line s u with
      | .error e => .error e
      | .ok (.goesOn t) => P.run t v
      | .ok (.stops t) => .ok ⟨.stopped, t, v⟩
      | .ok (.refuses t) => .ok ⟨.refused, t, l⟩ := by
  rw [run]
  split
  · next heq =>
    rw [h] at heq
    cases heq
  · next u' v' heq =>
    rw [h] at heq
    obtain ⟨rfl, rfl⟩ := Prod.mk.inj (Option.some.inj heq)
    rfl

lemma run_goesOn (h : P.nextLine l = some (u, v)) (hline : P.line s u = .ok (.goesOn t)) :
    P.run s l = P.run t v := by
  rw [P.run_some s h, hline]

lemma run_stops (h : P.nextLine l = some (u, v)) (hline : P.line s u = .ok (.stops t)) :
    P.run s l = .ok ⟨.stopped, t, v⟩ := by
  rw [P.run_some s h, hline]

lemma run_refuses (h : P.nextLine l = some (u, v)) (hline : P.line s u = .ok (.refuses t)) :
    P.run s l = .ok ⟨.refused, t, l⟩ := by
  rw [P.run_some s h, hline]

lemma run_error {e : ε} (h : P.nextLine l = some (u, v)) (hline : P.line s u = .error e) :
    P.run s l = .error e := by
  rw [P.run_some s h, hline]

/-- Induction along the lines of a list. -/
lemma lineInduction {motive : List α → Prop} (hnone : ∀ l, P.nextLine l = none → motive l)
    (hsome : ∀ l u v, P.nextLine l = some (u, v) → motive v → motive l) (l : List α) :
    motive l := by
  induction hn : l.length using Nat.strongRecOn generalizing l with
  | _ n ih =>
    rcases hline : P.nextLine l with _ | ⟨u, v⟩
    · exact hnone l hline
    · exact hsome l u v hline (ih v.length (hn ▸ P.length_lt_of_nextLine hline) v rfl)

/-! ## Interrupted parses -/

/-- Take a parse up again when `r` has arrived: one that waits goes on, the others are over. -/
def resume (r : List α) (o : Outcome α σ) : Except ε (Outcome α σ) :=
  match o.ending with
  | .waits => P.run o.state (o.rest ++ r)
  | _ => .ok { o with rest := o.rest ++ r }

/-- **Interruption.**  To parse `l ++ r` is to parse `l` and to take that up with `r`. -/
theorem run_append (s : σ) (l r : List α) : P.run s (l ++ r) = P.run s l >>= P.resume r := by
  induction l using P.lineInduction generalizing s with
  | hnone l h =>
    rw [P.run_none s h]
    rfl
  | hsome l u v h ih =>
    have happ := P.nextLine_append h r
    rcases hline : P.line s u with e | ⟨t⟩ | ⟨t⟩ | ⟨t⟩
    · rw [P.run_error happ hline, P.run_error h hline]
      rfl
    · rw [P.run_goesOn happ hline, P.run_goesOn h hline, ih]
    · rw [P.run_stops happ hline, P.run_stops h hline]
      rfl
    · rw [P.run_refuses happ hline, P.run_refuses h hline]
      rfl

lemma run_append_of_waits (h : P.run s l = .ok ⟨.waits, t, v⟩) (r : List α) :
    P.run s (l ++ r) = P.run t (v ++ r) := by
  rw [run_append, h]
  rfl

lemma run_append_of_stopped (h : P.run s l = .ok ⟨.stopped, t, v⟩) (r : List α) :
    P.run s (l ++ r) = .ok ⟨.stopped, t, v ++ r⟩ := by
  rw [run_append, h]
  rfl

/-- What a parse is waiting for is the end of a line. -/
lemma nextLine_of_waits (h : P.run s l = .ok ⟨.waits, t, v⟩) : P.nextLine v = none := by
  induction l using P.lineInduction generalizing s with
  | hnone l hl =>
    rw [P.run_none s hl] at h
    obtain ⟨-, -, rfl⟩ := Outcome.mk.inj (Except.ok.inj h)
    exact hl
  | hsome l u v' hl ih =>
    rcases hline : P.line s u with e | ⟨t'⟩ | ⟨t'⟩ | ⟨t'⟩
    · rw [P.run_error hl hline] at h
      cases h
    · rw [P.run_goesOn hl hline] at h
      exact ih h
    · rw [P.run_stops hl hline] at h
      cases h
    · rw [P.run_refuses hl hline] at h
      cases h

/-- No cells come behind a parse that were not there before. -/
lemma length_rest_le {o : Outcome α σ} (h : P.run s l = .ok o) : o.rest.length ≤ l.length := by
  induction l using P.lineInduction generalizing s with
  | hnone l hl =>
    rw [P.run_none s hl] at h
    cases h
    exact le_rfl
  | hsome l u v hl ih =>
    have hlt := P.length_lt_of_nextLine hl
    rcases hline : P.line s u with e | ⟨t⟩ | ⟨t⟩ | ⟨t⟩
    · rw [P.run_error hl hline] at h
      cases h
    · rw [P.run_goesOn hl hline] at h
      exact (ih h).trans hlt.le
    · rw [P.run_stops hl hline] at h
      cases h
      exact hlt.le
    · rw [P.run_refuses hl hline] at h
      cases h
      exact le_rfl

/-! ## Rules -/

/-- **Rule for the states of a parse.**  If every line from a state in `I` fails as `E` allows
or gets a verdict that goes on in `I`, stops in `S` or refuses in `R`, then so does every parse
from a state in `I`. -/
theorem run_rule {E : ε → Prop} {I S R : σ → Prop}
    (hline : ∀ s u, I s → Returns E (Verdict.Meets I S R) (P.line s u)) (hs : I s) (l : List α) :
    Returns E (Outcome.Meets I S R) (P.run s l) := by
  induction l using P.lineInduction generalizing s with
  | hnone l h =>
    rw [P.run_none s h]
    exact hs
  | hsome l u v h ih =>
    have hverdict := hline s u hs
    rw [P.run_some s h]
    rcases hd : P.line s u with e | ⟨t⟩ | ⟨t⟩ | ⟨t⟩
    · rwa [hd] at hverdict
    · rw [hd] at hverdict
      exact ih hverdict
    · rwa [hd] at hverdict
    · rwa [hd] at hverdict

/-- What a parse has taken: some lines, and behind them the line at which it stopped. -/
def Takes (S : List α → Prop) (us : List (List α)) (l : List α) (o : Outcome α σ) : Prop :=
  match o.ending with
  | .waits => l = P.joined us ++ o.rest ∧ P.nextLine o.rest = none
  | .stopped => ∃ u, search P.mark u = none ∧ S u ∧ l = P.joined (us ++ [u]) ++ o.rest
  | .refused => l = P.joined us ++ o.rest

lemma Takes.cons {S : List α → Prop} {us : List (List α)} {o : Outcome α σ}
    (h : P.Takes S us v o) : P.Takes S (u :: us) (u ++ P.mark ++ v) o := by
  rcases o with ⟨_ | _ | _, t, rest⟩
  · obtain ⟨rfl, hrest⟩ := h
    exact ⟨by rw [joined_cons, List.append_assoc _ _ rest], hrest⟩
  · obtain ⟨w, hfree, hw, rfl⟩ := h
    exact ⟨w, hfree, hw, by rw [List.cons_append, joined_cons, List.append_assoc _ _ rest]⟩
  · have hv : v = P.joined us ++ rest := h
    show u ++ P.mark ++ v = P.joined (u :: us) ++ rest
    rw [hv, joined_cons, List.append_assoc _ _ rest]

/-- **Rule for the lines of a parse.**  If from states in `I` only lines in `G` are taken to go on,
to states in `I`, and only lines in `S` are taken to stop, then so it is of the lines that a parse
takes. -/
theorem run_lines {I : σ → Prop} {G S : List α → Prop} {o : Outcome α σ}
    (hgoes : ∀ s u t, I s → P.line s u = .ok (.goesOn t) → I t ∧ G u)
    (hstops : ∀ s u t, I s → P.line s u = .ok (.stops t) → S u) (hs : I s)
    (h : P.run s l = .ok o) :
    ∃ us, (∀ u ∈ us, search P.mark u = none ∧ G u) ∧ P.Takes S us l o := by
  induction l using P.lineInduction generalizing s with
  | hnone l hl =>
    rw [P.run_none s hl] at h
    cases h
    exact ⟨[], nofun, rfl, hl⟩
  | hsome l u v hl ih =>
    have hfree := P.free_of_nextLine hl
    have heq := P.eq_of_nextLine hl
    rcases hd : P.line s u with e | ⟨t⟩ | ⟨t⟩ | ⟨t⟩
    · rw [P.run_error hl hd] at h
      cases h
    · rw [P.run_goesOn hl hd] at h
      obtain ⟨ht, hu⟩ := hgoes s u t hs hd
      obtain ⟨us, hus, htakes⟩ := ih ht h
      refine ⟨u :: us, fun w hw => ?_, heq ▸ htakes.cons⟩
      rcases List.mem_cons.mp hw with rfl | hw
      · exact ⟨hfree, hu⟩
      · exact hus w hw
    · rw [P.run_stops hl hd] at h
      cases h
      refine ⟨[], nofun, u, hfree, hstops s u t hs hd, ?_⟩
      rw [List.nil_append, joined_cons, joined_nil, List.append_nil, heq]
    · rw [P.run_refuses hl hd] at h
      cases h
      exact ⟨[], nofun, rfl⟩

/-- **Comparison rule.**  Two parsers whose verdicts correspond have corresponding parses. -/
theorem run_map {Q : LineParser α τ ε} {f : σ → τ} (hmark : Q.mark = P.mark)
    (hline : ∀ s u, Q.line (f s) u = (P.line s u).map (Verdict.map f)) (s : σ) (l : List α) :
    Q.run (f s) l = (P.run s l).map (Outcome.map f) := by
  have hnext : Q.nextLine = P.nextLine := by
    funext l
    rw [nextLine, nextLine, hmark]
  induction l using P.lineInduction generalizing s with
  | hnone l h =>
    rw [P.run_none s h, Q.run_none (f s) (hnext ▸ h)]
    rfl
  | hsome l u v h ih =>
    have hQ : Q.nextLine l = some (u, v) := hnext ▸ h
    have hverdict := hline s u
    rcases hP : P.line s u with e | ⟨t⟩ | ⟨t⟩ | ⟨t⟩
    · rw [hP] at hverdict
      rw [P.run_error h hP, Q.run_error hQ hverdict]
      rfl
    · rw [hP] at hverdict
      rw [P.run_goesOn h hP, Q.run_goesOn hQ hverdict, ih]
    · rw [hP] at hverdict
      rw [P.run_stops h hP, Q.run_stops hQ hverdict]
      rfl
    · rw [hP] at hverdict
      rw [P.run_refuses h hP, Q.run_refuses hQ hverdict]
      rfl

end LineParser

end Firey
