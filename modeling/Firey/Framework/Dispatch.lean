import Firey.Framework.LineParser
import Firey.Framework.Machine

/-!
# Dispatching one message for each read

A `Code` is a set of messages that a line parser takes whole from its fresh state.  No message
is a proper beginning of another, and what is missing from one is waited for.  A reader keeps
the octets it has not taken; each time a chunk arrives it parses once, and if a message is
complete it dispatches that message and starts afresh.

It looks for one message for each read only, so a read that completes two leaves the second one
lying.  `meets_prompt_iff` says that this is all that can go wrong: over a stream of messages no
complete message is left lying exactly if each read completes at most one, and then the messages
are dispatched in order, wherever the stream was cut (`run_of_onePerRead`).

Nothing here names the library under study.
-/

set_option autoImplicit false

namespace Firey

variable {α σ ε κ : Type*}

/-- Messages that a parser takes whole. -/
structure Code (α σ ε κ : Type*) [DecidableEq α] where
  parser : LineParser α σ ε
  fresh : σ
  encode : κ → List α
  value : κ → σ
  run_encode : ∀ k, parser.run fresh (encode k) = .ok ⟨.stopped, value k, []⟩

/-- What a reader keeps between two reads. -/
structure Reader (α σ : Type*) where
  state : σ
  pending : List α
  dispatched : List σ

namespace Code

/-! ## Counting -/

/-- How many messages of a stream are complete after its first `n` cells. -/
def completed : List (List α) → ℕ → ℕ
  | [], _ => 0
  | w :: ws, n => if w.length ≤ n then completed ws (n - w.length) + 1 else 0

/-- Each chunk completes at most one message of the stream, of which `n` cells went before. -/
def OnePerRead (ws : List (List α)) : ℕ → List (List α) → Prop
  | _, [] => True
  | n, c :: cs =>
      completed ws (n + c.length) ≤ completed ws n + 1 ∧ OnePerRead ws (n + c.length) cs

instance decidableOnePerRead (ws : List (List α)) :
    (n : ℕ) → (cs : List (List α)) → Decidable (OnePerRead ws n cs)
  | _, [] => .isTrue trivial
  | n, c :: cs => @instDecidableAnd _ _ inferInstance (decidableOnePerRead ws (n + c.length) cs)

lemma completed_cons_eq_zero_iff {w : List α} {ws : List (List α)} {n : ℕ} :
    completed (w :: ws) n = 0 ↔ n < w.length := by
  by_cases h : w.length ≤ n
  · rw [completed, if_pos h]
    omega
  · rw [completed, if_neg h]
    omega

lemma completed_cons_add (w : List α) (ws : List (List α)) (n : ℕ) :
    completed (w :: ws) (w.length + n) = completed ws n + 1 := by
  rw [completed, if_pos (Nat.le_add_right _ _), Nat.add_sub_cancel_left]

/-- The first message can be left out once it has gone by. -/
lemma onePerRead_cons_add (w : List α) (ws : List (List α)) (n : ℕ) (cs : List (List α)) :
    OnePerRead (w :: ws) (w.length + n) cs ↔ OnePerRead ws n cs := by
  induction cs generalizing n with
  | nil => exact Iff.rfl
  | cons c cs ih =>
    rw [OnePerRead, OnePerRead, Nat.add_assoc, completed_cons_add, completed_cons_add, ih,
      Nat.add_le_add_iff_right]

/-- A chunk that completes nothing is one message or less. -/
lemma onePerRead_cons_short {p c : List α} {ws cs : List (List α)}
    (h : completed ws (p ++ c).length = 0) :
    OnePerRead ws p.length (c :: cs) ↔ OnePerRead ws (p ++ c).length cs := by
  rw [List.length_append] at h ⊢
  rw [OnePerRead, h]
  simp

/-- A chunk that completes the first message must complete no other. -/
lemma onePerRead_cons_complete {p c w q : List α} {ws cs : List (List α)}
    (hshort : completed (w :: ws) p.length = 0) (hc : p ++ c = w ++ q) :
    OnePerRead (w :: ws) p.length (c :: cs) ↔
      completed ws q.length = 0 ∧ OnePerRead ws q.length cs := by
  have hlen : p.length + c.length = w.length + q.length := by
    rw [← List.length_append, hc, List.length_append]
  rw [OnePerRead, hshort, hlen, completed_cons_add, onePerRead_cons_add]
  exact and_congr_left' (by omega)

/-! ## The reader -/

variable [DecidableEq α] (C : Code α σ ε κ)

/-- One read. -/
def read (d : Reader α σ) (chunk : List α) : Except ε (Reader α σ) :=
  match C.parser.run d.state (d.pending ++ chunk) with
  | .error e => .error e
  | .ok ⟨.stopped, s, rest⟩ => .ok ⟨C.fresh, rest, d.dispatched ++ [s]⟩
  | .ok ⟨_, s, rest⟩ => .ok ⟨s, rest, d.dispatched⟩

def machine : Machine (Reader α σ) (List α) ε := ⟨C.read⟩

def start : Reader α σ := ⟨C.fresh, [], []⟩

/-- No complete message is left lying, and no read fails. -/
def prompt : RunSpec (Reader α σ) ε where
  good d := ∀ k, ¬ C.encode k <+: d.pending
  move _ _ := True
  stop _ := False

/-! ## Messages -/

lemma run_encode_append (k : κ) (r : List α) :
    C.parser.run C.fresh (C.encode k ++ r) = .ok ⟨.stopped, C.value k, r⟩ :=
  C.parser.run_append_of_stopped (C.run_encode k) r

/-- Octets that are waited upon hold no complete message. -/
lemma not_prefix_of_waits {l : List α} {s : σ} {rest : List α}
    (h : C.parser.run C.fresh l = .ok ⟨.waits, s, rest⟩) (k : κ) : ¬ C.encode k <+: l := by
  rintro ⟨r, rfl⟩
  rw [run_encode_append] at h
  cases h

lemma not_prefix_of_nextLine {l : List α} (h : C.parser.nextLine l = none) (k : κ) :
    ¬ C.encode k <+: l :=
  C.not_prefix_of_waits (C.parser.run_none C.fresh h) k

lemma run_nil : C.parser.run C.fresh [] = .ok ⟨.waits, C.fresh, []⟩ := by
  refine C.parser.run_none C.fresh ?_
  rcases h : C.parser.nextLine [] with _ | ⟨u, v⟩
  · rfl
  · have hlt := C.parser.length_lt_of_nextLine h
    exact absurd hlt (Nat.not_lt_zero _)

lemma start_good : C.prompt.good C.start := C.not_prefix_of_waits C.run_nil

/-- A proper beginning of a message is waited upon. -/
lemma waits_of_append_eq {u v : List α} {k : κ} (h : u ++ v = C.encode k) (hv : v ≠ []) :
    ∃ s rest, C.parser.run C.fresh u = .ok ⟨.waits, s, rest⟩ := by
  have hrun := C.run_encode k
  rw [← h, LineParser.run_append] at hrun
  rcases hu : C.parser.run C.fresh u with e | ⟨_ | _ | _, s, rest⟩
  · rw [hu] at hrun
    cases hrun
  · exact ⟨s, rest, rfl⟩
  · -- had it stopped earlier, the rest of the message would be left over
    rw [hu] at hrun
    obtain ⟨-, -, hrest⟩ := Outcome.mk.inj (Except.ok.inj hrun)
    exact absurd (List.append_eq_nil_iff.mp hrest).2 hv
  · rw [hu] at hrun
    cases hrun

/-! ## One read -/

/-- The reader is inside the stream of `ks`: it has `p`, which completes no message of it, and
is in the state in which `p` leaves a fresh parser. -/
structure Inside (d : Reader α σ) (ks : List κ) (p : List α) : Prop where
  same : ∀ b, C.parser.run d.state (d.pending ++ b) = C.parser.run C.fresh (p ++ b)
  short : completed (ks.map C.encode) p.length = 0

variable {C} {d : Reader α σ} {ks : List κ} {p c future : List α}

/-- A beginning of the stream that completes nothing is waited upon. -/
lemma waits_of_completed_eq_zero (hstream : p ++ future = (ks.map C.encode).flatten)
    (hshort : completed (ks.map C.encode) p.length = 0) :
    ∃ s rest, C.parser.run C.fresh p = .ok ⟨.waits, s, rest⟩ := by
  rcases ks with _ | ⟨k, ks⟩
  · rw [List.map_nil, List.flatten_nil, List.append_eq_nil_iff] at hstream
    rw [hstream.1]
    exact ⟨_, _, C.run_nil⟩
  · rw [List.map_cons, List.flatten_cons] at hstream
    rw [List.map_cons, completed_cons_eq_zero_iff] at hshort
    have hpre : p <+: C.encode k := by
      refine List.prefix_of_prefix_length_le ⟨future, hstream⟩ (List.prefix_append _ _) hshort.le
    obtain ⟨v, hv⟩ := hpre
    refine C.waits_of_append_eq hv ?_
    rintro rfl
    rw [← hv, List.append_nil] at hshort
    exact absurd hshort (lt_irrefl _)

/-- A read that completes nothing moves on in the message. -/
lemma read_short (h : C.Inside d ks p) (hstream : p ++ c ++ future = (ks.map C.encode).flatten)
    (hshort : completed (ks.map C.encode) (p ++ c).length = 0) :
    ∃ t, C.read d c = .ok t ∧ C.Inside t ks (p ++ c) ∧ C.prompt.good t ∧
      t.dispatched = d.dispatched := by
  obtain ⟨s, rest, hrun⟩ := waits_of_completed_eq_zero hstream hshort
  refine ⟨⟨s, rest, d.dispatched⟩, ?_, ⟨fun b => ?_, hshort⟩, ?_, rfl⟩
  · rw [read, h.same, hrun]
  · exact (C.parser.run_append_of_waits hrun b).symm
  · exact C.not_prefix_of_nextLine (C.parser.nextLine_of_waits hrun)

/-- A read that completes a message dispatches it and keeps what is behind it. -/
lemma read_complete {k : κ} {q : List α} (h : C.Inside d (k :: ks) p)
    (hc : p ++ c = C.encode k ++ q) :
    C.read d c = .ok ⟨C.fresh, q, d.dispatched ++ [C.value k]⟩ := by
  rw [read, h.same, hc, run_encode_append]

/-- What is kept is inside the rest of the stream if it completes nothing of it. -/
lemma inside_fresh {ss : List σ} (hshort : completed (ks.map C.encode) p.length = 0) :
    C.Inside ⟨C.fresh, p, ss⟩ ks p :=
  ⟨fun _ => rfl, hshort⟩

lemma good_fresh {ss : List σ} (hstream : p ++ future = (ks.map C.encode).flatten) :
    C.prompt.good ⟨C.fresh, p, ss⟩ ↔ completed (ks.map C.encode) p.length = 0 := by
  constructor
  · intro hgood
    rcases ks with _ | ⟨k, ks⟩
    · rfl
    · rw [List.map_cons, completed_cons_eq_zero_iff]
      by_contra hlen
      rw [List.map_cons, List.flatten_cons] at hstream
      exact hgood k (List.prefix_of_prefix_length_le (List.prefix_append _ _) ⟨future, hstream⟩
        (Nat.le_of_not_lt hlen))
  · intro hshort
    obtain ⟨s, rest, hrun⟩ := waits_of_completed_eq_zero hstream hshort
    exact C.not_prefix_of_waits hrun

/-- What a read that completes something completes first. -/
lemma split_of_completed (hstream : p ++ future = (ks.map C.encode).flatten)
    (hlong : completed (ks.map C.encode) p.length ≠ 0) :
    ∃ k ks' q, ks = k :: ks' ∧ p = C.encode k ++ q ∧
      q ++ future = (ks'.map C.encode).flatten := by
  rcases ks with _ | ⟨k, ks⟩
  · exact absurd rfl hlong
  · rw [Ne, List.map_cons, completed_cons_eq_zero_iff, not_lt] at hlong
    rw [List.map_cons, List.flatten_cons] at hstream
    obtain ⟨q, rfl⟩ : C.encode k <+: p :=
      List.prefix_of_prefix_length_le (List.prefix_append _ _) ⟨future, hstream⟩ hlong
    refine ⟨k, ks, q, rfl, rfl, ?_⟩
    rwa [List.append_assoc, List.append_cancel_left_eq] at hstream

/-! ## Runs -/

/-- **A stream, one message for each read**: every message is dispatched, in order, and none is
left lying. -/
theorem run_of_onePerRead {cs : List (List α)} (h : C.Inside d ks p) (hgood : C.prompt.good d)
    (hstream : p ++ cs.flatten = (ks.map C.encode).flatten)
    (hone : OnePerRead (ks.map C.encode) p.length cs) :
    C.machine.Meets C.prompt d cs ∧
      ∃ t, C.machine.run d cs = .ok t ∧ t.dispatched = d.dispatched ++ ks.map C.value := by
  induction cs generalizing d ks p with
  | nil =>
    refine ⟨hgood, d, rfl, ?_⟩
    -- the stream has ended and completes nothing, so nothing was left of it
    rcases ks with _ | ⟨k, ks⟩
    · simp
    · have hshort := h.short
      rw [List.flatten_nil, List.append_nil] at hstream
      rw [hstream, List.map_cons, completed_cons_eq_zero_iff, List.flatten_cons,
        List.length_append] at hshort
      omega
  | cons c cs ih =>
    rw [List.flatten_cons, ← List.append_assoc] at hstream
    by_cases hshort : completed (ks.map C.encode) (p ++ c).length = 0
    · obtain ⟨t, hread, hinside, hgood', hsame⟩ := read_short h hstream hshort
      have hstep : C.machine.step d c = .ok t := hread
      obtain ⟨hmeets, u, hrun, hdis⟩ :=
        ih hinside hgood' hstream ((onePerRead_cons_short hshort).mp hone)
      refine ⟨?_, u, ?_, ?_⟩
      · rw [Machine.Meets, hstep]
        exact ⟨hgood, trivial, hmeets⟩
      · rw [Machine.run_cons_ok _ hstep, hrun]
      · rw [hdis, hsame]
    · obtain ⟨k, ks, q, rfl, hc, hrest⟩ := split_of_completed hstream hshort
      obtain ⟨hq, hone'⟩ := (onePerRead_cons_complete h.short hc).mp hone
      have hstep : C.machine.step d c = .ok ⟨C.fresh, q, d.dispatched ++ [C.value k]⟩ :=
        read_complete h hc
      obtain ⟨hmeets, u, hrun, hdis⟩ :=
        ih (inside_fresh hq) ((good_fresh hrest).mpr hq) hrest hone'
      refine ⟨?_, u, ?_, ?_⟩
      · rw [Machine.Meets, hstep]
        exact ⟨hgood, trivial, hmeets⟩
      · rw [Machine.run_cons_ok _ hstep, hrun]
      · rw [hdis, List.append_assoc, List.map_cons, List.singleton_append]

/-- A read that completes two messages leaves the second one lying. -/
theorem onePerRead_of_meets {cs : List (List α)} (h : C.Inside d ks p)
    (hstream : p ++ cs.flatten = (ks.map C.encode).flatten)
    (hmeets : C.machine.Meets C.prompt d cs) :
    OnePerRead (ks.map C.encode) p.length cs := by
  induction cs generalizing d ks p with
  | nil => trivial
  | cons c cs ih =>
    rw [List.flatten_cons, ← List.append_assoc] at hstream
    by_cases hshort : completed (ks.map C.encode) (p ++ c).length = 0
    · obtain ⟨t, hread, hinside, -, -⟩ := read_short h hstream hshort
      have hstep : C.machine.step d c = .ok t := hread
      rw [Machine.Meets, hstep] at hmeets
      exact (onePerRead_cons_short hshort).mpr (ih hinside hstream hmeets.2.2)
    · obtain ⟨k, ks, q, rfl, hc, hrest⟩ := split_of_completed hstream hshort
      have hstep : C.machine.step d c = .ok ⟨C.fresh, q, d.dispatched ++ [C.value k]⟩ :=
        read_complete h hc
      rw [Machine.Meets, hstep] at hmeets
      have hq := (good_fresh hrest).mp (Machine.Meets.good _ hmeets.2.2)
      refine (onePerRead_cons_complete h.short hc).mpr ⟨hq, ?_⟩
      exact ih (inside_fresh hq) hrest hmeets.2.2

/-- Nothing completes no message. -/
lemma completed_nil (ks : List κ) :
    completed (ks.map C.encode) ([] : List α).length = 0 := by
  rcases ks with _ | ⟨k, ks⟩
  · rfl
  · rw [List.map_cons, completed_cons_eq_zero_iff, List.length_nil, List.length_pos_iff]
    intro hnil
    exact C.start_good k (by rw [hnil]; exact List.nil_prefix)

lemma start_inside (ks : List κ) : C.Inside C.start ks [] := inside_fresh (completed_nil ks)

/-- Empty reads change nothing. -/
lemma run_empty {cs : List (List α)} (h : cs.flatten = []) (ss : List σ) :
    C.machine.run ⟨C.fresh, [], ss⟩ cs = .ok ⟨C.fresh, [], ss⟩ := by
  induction cs with
  | nil => rfl
  | cons c cs ih =>
    obtain ⟨rfl, hrest⟩ := List.append_eq_nil_iff.mp (List.flatten_cons ▸ h)
    have hread : C.machine.step ⟨C.fresh, [], ss⟩ [] = .ok ⟨C.fresh, [], ss⟩ := by
      show C.read _ _ = _
      rw [read, List.append_nil, C.run_nil]
    rw [Machine.run_cons_ok _ hread, ih hrest]

/-- The rest of a message that arrives by itself completes it. -/
lemma run_rest {k : κ} {cs : List (List α)} (h : C.Inside d [k] p)
    (hwhole : p ++ cs.flatten = C.encode k) :
    C.machine.run d cs = .ok ⟨C.fresh, [], d.dispatched ++ [C.value k]⟩ := by
  have hstream : p ++ cs.flatten = ([k].map C.encode).flatten := by
    rw [hwhole, List.map_singleton, List.flatten_singleton]
  induction cs generalizing d p with
  | nil =>
    have hshort := h.short
    rw [List.flatten_nil, List.append_nil] at hwhole
    rw [List.map_singleton, completed_cons_eq_zero_iff, hwhole] at hshort
    exact absurd hshort (lt_irrefl _)
  | cons c cs ih =>
    rw [List.flatten_cons, ← List.append_assoc] at hwhole hstream
    by_cases hshort : completed ([k].map C.encode) (p ++ c).length = 0
    · obtain ⟨t, hread, hinside, -, hsame⟩ := read_short h hstream hshort
      have hstep : C.machine.step d c = .ok t := hread
      rw [Machine.run_cons_ok _ hstep, ih hinside hwhole hstream, hsame]
    · have hlong : ¬ (p ++ c).length < (C.encode k).length := by
        rwa [List.map_singleton, completed_cons_eq_zero_iff] at hshort
      -- the message is complete, so nothing is left for the other chunks
      have hnil : cs.flatten = [] := by
        have hlen := congrArg List.length hwhole
        rw [List.length_append] at hlen
        exact List.eq_nil_of_length_eq_zero (by omega)
      have hc : p ++ c = C.encode k ++ [] := by
        rw [← hwhole, hnil, List.append_nil, List.append_nil]
      have hstep : C.machine.step d c = .ok ⟨C.fresh, [], d.dispatched ++ [C.value k]⟩ :=
        read_complete h hc
      rw [Machine.run_cons_ok _ hstep, run_empty hnil]

/-- **Messages that arrive one by one.**  Each group of chunks is one message; behind each group
nothing is pending, and so many messages have been dispatched. -/
theorem run_messages (ms : List (κ × List (List α)))
    (hwhole : ∀ m ∈ ms, m.2.flatten = C.encode m.1) (ss : List σ) :
    C.machine.run ⟨C.fresh, [], ss⟩ (ms.flatMap Prod.snd) =
      .ok ⟨C.fresh, [], ss ++ ms.map fun m => C.value m.1⟩ := by
  induction ms generalizing ss with
  | nil => rw [List.map_nil, List.append_nil]; rfl
  | cons m ms ih =>
    have hfirst : C.machine.run ⟨C.fresh, [], ss⟩ m.2 = .ok ⟨C.fresh, [], ss ++ [C.value m.1]⟩ :=
      run_rest (inside_fresh (completed_nil [m.1])) (hwhole m List.mem_cons_self)
    rw [List.flatMap_cons, Machine.run_append _ hfirst,
      ih (fun n hn => hwhole n (List.mem_cons_of_mem m hn)), List.map_cons, List.append_assoc]
    rfl

/-- **When nothing is left lying**: exactly if each read completes at most one message. -/
theorem meets_prompt_iff {cs : List (List α)} (hstream : cs.flatten = (ks.map C.encode).flatten) :
    C.machine.Meets C.prompt C.start cs ↔ OnePerRead (ks.map C.encode) 0 cs :=
  ⟨onePerRead_of_meets (start_inside ks) hstream,
    fun hone => (run_of_onePerRead (start_inside ks) C.start_good hstream hone).1⟩

end Code

end Firey
