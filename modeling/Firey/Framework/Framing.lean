import Mathlib.Data.List.Infix

/-!
# Messages in a stream

What arrives on a stream is cut anywhere, so a reader has to tell from the cells themselves where a
message ends.  A `Framing` is such a reader: it takes the first message from what has arrived, or
waits, and what it has taken does not change when more arrives.

The cells that it takes as one message, and nothing more, are a frame (`Frames`).  No proper part of
a frame is taken for a message (`next_eq_none_of_part`), so frames that are sent one after the other
are told apart wherever the stream is cut: `read_frames` says what has been read of frames and of what
comes behind them, and `read_append_prefix` that it stays read.

Nothing here names the library under study.
-/

set_option autoImplicit false

namespace Firey

/-- A reader of messages `β` from cells `α`. -/
structure Framing (α β : Type*) where
  /-- The first message, and the cells behind it. -/
  next : List α → Option (β × List α)
  takes : ∀ {l : List α} {x : β} {rest : List α}, next l = some (x, rest) → rest.length < l.length
  stable : ∀ {l : List α} {x : β} {rest : List α}, next l = some (x, rest) →
    ∀ more, next (l ++ more) = some (x, rest ++ more)

namespace Framing

variable {α β : Type*} (F : Framing α β)

/-- All messages that are there, and the cells that no message has come of yet. -/
def read (l : List α) : List β × List α :=
  match _h : F.next l with
  | none => ([], l)
  | some (x, rest) => (x :: (read rest).1, (read rest).2)
  termination_by l.length
  decreasing_by all_goals exact F.takes _h

/-- These cells are one message. -/
def Frames (e : List α) (x : β) : Prop := F.next e = some (x, [])

variable {F} {l e p more : List α} {x : β} {rest : List α}

lemma read_of_none (h : F.next l = none) : F.read l = ([], l) := by
  rw [read]
  split
  · rfl
  · next heq =>
    rw [h] at heq
    cases heq

lemma read_of_some (h : F.next l = some (x, rest)) :
    F.read l = (x :: (F.read rest).1, (F.read rest).2) := by
  rw [read]
  split
  · next heq =>
    rw [h] at heq
    cases heq
  · next y rest' heq =>
    rw [h] at heq
    obtain ⟨rfl, rfl⟩ := Prod.mk.inj (Option.some.inj heq)
    rfl

@[simp] lemma read_nil : F.read [] = ([], []) := by
  refine read_of_none ?_
  rcases h : F.next [] with _ | ⟨x, rest⟩
  · rfl
  · exact absurd (F.takes h) (Nat.not_lt_zero _)

/-- A reader that waits has been waiting all the time. -/
lemma next_eq_none_of_append (h : F.next (p ++ more) = none) : F.next p = none := by
  rcases hp : F.next p with _ | ⟨x, rest⟩
  · rfl
  · rw [F.stable hp more] at h
    cases h

/-- No proper part of a frame is a message. -/
lemma next_eq_none_of_part (h : F.Frames (p ++ more) x) (hmore : more ≠ []) :
    F.next p = none := by
  rcases hp : F.next p with _ | ⟨y, rest⟩
  · rfl
  · rw [Frames, F.stable hp more] at h
    obtain ⟨-, hnil⟩ := Prod.mk.inj (Option.some.inj h)
    exact absurd (List.append_eq_nil_iff.mp hnil).2 hmore

/-- **Reading.**  Frames are read one by one, and what comes behind them as if it came alone. -/
theorem read_frames {κ : Type*} {encode : κ → List α} {decode : κ → β} {ks : List κ}
    (h : ∀ k ∈ ks, F.Frames (encode k) (decode k)) (l : List α) :
    F.read ((ks.map encode).flatten ++ l) = (ks.map decode ++ (F.read l).1, (F.read l).2) := by
  induction ks with
  | nil => rfl
  | cons k ks ih =>
    have hfirst := F.stable (h k List.mem_cons_self) ((ks.map encode).flatten ++ l)
    rw [List.map_cons, List.flatten_cons, List.append_assoc, read_of_some hfirst, List.nil_append,
      ih fun k' hk' => h k' (List.mem_cons_of_mem k hk')]
    rfl

/-- What has been read stays read. -/
theorem read_append_prefix (l more : List α) : (F.read l).1 <+: (F.read (l ++ more)).1 := by
  induction hn : l.length using Nat.strongRecOn generalizing l with
  | _ n ih =>
    rcases hl : F.next l with _ | ⟨x, rest⟩
    · rw [read_of_none hl]
      exact List.nil_prefix
    · rw [read_of_some hl, read_of_some (F.stable hl more)]
      exact List.cons_prefix_cons.mpr ⟨rfl, ih rest.length (hn ▸ F.takes hl) rest rfl⟩

end Framing

end Firey
