import Mathlib.Data.List.Basic
import Mathlib.Data.List.Infix
import Mathlib.Tactic.Lemma

/-!
# Mailboxes emptied a batch at a time

Anyone posts at the end of the queue.  The owner collects the whole queue as a batch, and takes
the batch item by item before it collects again.  Two records of what happened go along with
the two lists: everything `posted`, and everything `taken` and by whom, each with the number
of collections there had been (`turn`).

`Kept` is what no operation breaks: what was posted is what was taken, then the batch, then the
queue, and nothing is taken in the turn it was posted in.  So every item is taken at most
once, in the order of posting, and none is lost.

Nothing here names the library under study.
-/

set_option autoImplicit false

namespace Firey

/-- An item with the turn it was posted in. -/
structure Posted (α : Type) where
  item : α
  turn : ℕ
  deriving DecidableEq, Repr

/-- An item that was taken: by whom, and in which turn. -/
structure Taken (α κ : Type) where
  post : Posted α
  taker : κ
  turn : ℕ
  deriving DecidableEq, Repr

structure Mailbox (α κ : Type) where
  queue : List (Posted α)
  batch : List (Posted α)
  turn : ℕ
  posted : List (Posted α)
  taken : List (Taken α κ)
  deriving DecidableEq, Repr

namespace Mailbox

variable {α κ : Type}

def empty : Mailbox α κ where
  queue := []
  batch := []
  turn := 0
  posted := []
  taken := []

/-! ## Operations -/

def post (m : Mailbox α κ) (a : α) : Mailbox α κ :=
  { m with
    queue := m.queue ++ [{ item := a, turn := m.turn }]
    posted := m.posted ++ [{ item := a, turn := m.turn }] }

/-- The queue becomes the batch. -/
def collect (m : Mailbox α κ) : Mailbox α κ :=
  { m with queue := [], batch := m.queue, turn := m.turn + 1 }

/-- `k` takes the first item of the batch. -/
def take (m : Mailbox α κ) (k : κ) : Mailbox α κ :=
  match m.batch with
  | [] => m
  | p :: rest =>
      { m with
        batch := rest
        taken := m.taken ++ [{ post := p, taker := k, turn := m.turn }] }

/-- The item `take` takes. -/
def head? (m : Mailbox α κ) : Option α := m.batch.head?.map Posted.item

section Fields

variable (m : Mailbox α κ) (a : α) (k : κ)

@[simp] lemma post_batch : (m.post a).batch = m.batch := rfl
@[simp] lemma collect_queue : m.collect.queue = [] := rfl
@[simp] lemma collect_batch : m.collect.batch = m.queue := rfl
@[simp] lemma collect_posted : m.collect.posted = m.posted := rfl
@[simp] lemma collect_taken : m.collect.taken = m.taken := rfl

@[simp] lemma take_queue : (m.take k).queue = m.queue := by
  unfold take
  split <;> rfl

@[simp] lemma take_batch : (m.take k).batch = m.batch.tail := by
  unfold take
  split <;> simp [*]

@[simp] lemma take_posted : (m.take k).posted = m.posted := by
  unfold take
  split <;> rfl

@[simp] lemma post_queue_ne : (m.post a).queue ≠ [] := by
  simp [post]

lemma posted_prefix_post : m.posted <+: (m.post a).posted := List.prefix_append _ _

lemma taken_prefix_take : m.taken <+: (m.take k).taken := by
  unfold take
  split
  · exact List.prefix_rfl
  · exact List.prefix_append _ _

end Fields

/-! ## What is kept -/

/-- Nothing is lost, doubled or reordered, and nothing is taken in the turn of its posting. -/
structure Kept (m : Mailbox α κ) : Prop where
  conserved : m.posted = m.taken.map Taken.post ++ m.batch ++ m.queue
  taken_later : ∀ t ∈ m.taken, t.post.turn < t.turn
  batch_later : ∀ p ∈ m.batch, p.turn < m.turn
  queue_turn : ∀ p ∈ m.queue, p.turn ≤ m.turn

lemma empty_kept : (empty : Mailbox α κ).Kept where
  conserved := rfl
  taken_later := fun _ h => nomatch h
  batch_later := fun _ h => nomatch h
  queue_turn := fun _ h => nomatch h

variable {m : Mailbox α κ}

lemma Kept.post (h : m.Kept) (a : α) : (m.post a).Kept where
  conserved := by
    simp only [Mailbox.post, h.conserved, List.append_assoc]
  taken_later := h.taken_later
  batch_later := h.batch_later
  queue_turn := by
    intro p hp
    rcases List.mem_append.mp hp with hp | hp
    · exact h.queue_turn p hp
    · rw [List.mem_singleton.mp hp]
      exact le_rfl

lemma Kept.collect (h : m.Kept) (hb : m.batch = []) : m.collect.Kept where
  conserved := by
    simp [h.conserved, hb]
  taken_later := h.taken_later
  batch_later := fun p hp => Nat.lt_succ_of_le (h.queue_turn p hp)
  queue_turn := fun _ hp => nomatch hp

lemma Kept.take (h : m.Kept) (k : κ) : (m.take k).Kept := by
  cases hb : m.batch with
  | nil =>
    have heq : m.take k = m := by simp only [Mailbox.take, hb]
    rwa [heq]
  | cons p rest =>
    have hp : p.turn < m.turn := h.batch_later p (by simp [hb])
    simp only [Mailbox.take, hb]
    refine ⟨?_, ?_, ?_, h.queue_turn⟩
    · simp [h.conserved, hb]
    · intro t ht
      rcases List.mem_append.mp ht with ht | ht
      · exact h.taken_later t ht
      · rw [List.mem_singleton.mp ht]
        exact hp
    · intro q hq
      exact h.batch_later q (by simp [hb, hq])

end Mailbox

end Firey
