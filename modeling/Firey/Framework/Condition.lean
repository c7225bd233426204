import Mathlib.Data.List.Perm.Basic
import Mathlib.Data.List.Perm.Lattice
import Mathlib.Tactic.Lemma

/-!
# Condition variables

A thread that waits at a condition variable is blocked, or it has been woken and has yet to take
the mutex again: because it was notified, or for no reason.  `notify` reaches one of the blocked
threads, whichever the system picks, and is lost if there is none; `notifyAll` reaches them all.

`waiters` is everybody, in whatever condition.  Waking moves a thread and only `wait` and `leave`
change who waits, so where no thread waits twice, no thread does after any operation.

Nothing here names the library under study.
-/

set_option autoImplicit false

namespace Firey

structure Condition (θ : Type*) where
  blocked : List θ
  notified : List θ
  spurious : List θ
  deriving DecidableEq, Repr

namespace Condition

variable {θ : Type*}

def empty : Condition θ := ⟨[], [], []⟩

def waiters (c : Condition θ) : List θ := c.blocked ++ c.notified ++ c.spurious

/-! ## Operations -/

/-- The mutex is given up. -/
def wait (c : Condition θ) (t : θ) : Condition θ := { c with blocked := c.blocked ++ [t] }

def notifyAll (c : Condition θ) : Condition θ :=
  { c with blocked := [], notified := c.notified ++ c.blocked }

/-- The thread is not blocked, and has yet to take the mutex. -/
def Awake (c : Condition θ) (t : θ) : Prop := t ∈ c.notified ∨ t ∈ c.spurious

section Waiters

open scoped List

variable {c : Condition θ} {t : θ}

lemma wait_waiters : (c.wait t).waiters ~ t :: c.waiters := by
  unfold wait waiters
  dsimp only
  rw [List.append_assoc, List.append_assoc, List.append_assoc]
  exact List.perm_middle

lemma notifyAll_waiters (c : Condition θ) : c.notifyAll.waiters ~ c.waiters := by
  unfold notifyAll waiters
  dsimp only
  rw [List.nil_append]
  exact List.perm_append_comm.append_right _

lemma mem_waiters_of_awake (h : c.Awake t) : t ∈ c.waiters := by
  unfold waiters
  rcases h with h | h
  · exact List.mem_append_left _ (List.mem_append_right _ h)
  · exact List.mem_append_right _ h

lemma mem_waiters_of_blocked (h : t ∈ c.blocked) : t ∈ c.waiters :=
  List.mem_append_left _ (List.mem_append_left _ h)

/-- Whoever was reached by a notification is not blocked any more. -/
lemma not_blocked_of_notified (h : c.waiters.Nodup) (ht : t ∈ c.notified) : t ∉ c.blocked := by
  intro hb
  have hdisjoint := (List.nodup_append.mp (List.nodup_append.mp h).1).2.2
  exact hdisjoint t hb t ht rfl

end Waiters

variable [DecidableEq θ]

/-- Whom a notification reaches, where the system picks `pick` if it can. -/
def chosen (c : Condition θ) (pick : θ) : Option θ :=
  if pick ∈ c.blocked then some pick else c.blocked.head?

def notify (c : Condition θ) (pick : θ) : Condition θ :=
  match c.chosen pick with
  | some t => { c with blocked := c.blocked.erase t, notified := c.notified ++ [t] }
  | none => c

/-- A wakeup for no reason. -/
def wake (c : Condition θ) (t : θ) : Condition θ :=
  if t ∈ c.blocked then { c with blocked := c.blocked.erase t, spurious := c.spurious ++ [t] }
  else c

instance (c : Condition θ) (t : θ) : Decidable (c.Awake t) :=
  inferInstanceAs (Decidable (_ ∨ _))

/-- The thread has the mutex again. -/
def leave (c : Condition θ) (t : θ) : Condition θ :=
  if t ∈ c.notified then { c with notified := c.notified.erase t }
  else { c with spurious := c.spurious.erase t }

/-! ## Who is blocked, and who is notified -/

variable {c : Condition θ} {t u pick : θ}

lemma chosen_eq_none : c.chosen pick = none ↔ c.blocked = [] := by
  unfold chosen
  split_ifs with h
  · exact iff_of_false nofun (List.ne_nil_of_mem h)
  · rw [List.head?_eq_none_iff]

lemma mem_of_chosen (h : c.chosen pick = some t) : t ∈ c.blocked := by
  unfold chosen at h
  split_ifs at h with hpick
  · rw [Option.some.injEq] at h
    exact h ▸ hpick
  · exact List.mem_of_mem_head? h

/-- **A notification** is lost, or takes one thread from the blocked to the notified. -/
lemma notify_cases (c : Condition θ) (pick : θ) :
    c.blocked = [] ∧ c.notify pick = c ∨
      ∃ t ∈ c.blocked, c.notify pick =
        { c with blocked := c.blocked.erase t, notified := c.notified ++ [t] } := by
  unfold notify
  rcases h : c.chosen pick with _ | t
  · exact Or.inl ⟨chosen_eq_none.mp h, rfl⟩
  · exact Or.inr ⟨t, mem_of_chosen h, rfl⟩

lemma blocked_notify_subset : (c.notify pick).blocked ⊆ c.blocked := by
  rcases c.notify_cases pick with ⟨-, h⟩ | ⟨t, -, h⟩
  · rw [h]
    exact List.Subset.refl _
  · rw [h]
    exact List.erase_subset

lemma blocked_wake_subset : (c.wake t).blocked ⊆ c.blocked := by
  unfold wake
  split_ifs
  · exact List.erase_subset
  · exact List.Subset.refl _

lemma blocked_leave : (c.leave t).blocked = c.blocked := by
  unfold leave
  split_ifs <;> rfl

lemma notified_wake : (c.wake t).notified = c.notified := by
  unfold wake
  split_ifs <;> rfl

/-- Whoever leaves takes one notification with it, at most. -/
lemma length_notified_leave : c.notified.length ≤ (c.leave t).notified.length + 1 := by
  unfold leave
  split_ifs with h
  · rw [List.length_erase_of_mem h]
    omega
  · exact Nat.le_succ _

/-! ## Nobody waits twice -/

open scoped List

lemma notify_waiters (c : Condition θ) (pick : θ) : (c.notify pick).waiters ~ c.waiters := by
  rcases c.notify_cases pick with ⟨-, h⟩ | ⟨t, ht, h⟩
  · rw [h]
  · rw [h]
    refine List.Perm.append_right _ ?_
    calc c.blocked.erase t ++ (c.notified ++ [t])
        = c.blocked.erase t ++ c.notified ++ [t] := (List.append_assoc ..).symm
      _ ~ t :: c.blocked.erase t ++ c.notified := List.perm_append_singleton ..
      _ ~ c.blocked ++ c.notified := (List.perm_cons_erase ht).symm.append_right _

lemma wake_waiters (c : Condition θ) (t : θ) : (c.wake t).waiters ~ c.waiters := by
  unfold wake
  split_ifs with ht
  · unfold waiters
    calc c.blocked.erase t ++ c.notified ++ (c.spurious ++ [t])
        = c.blocked.erase t ++ c.notified ++ c.spurious ++ [t] := (List.append_assoc ..).symm
      _ ~ t :: c.blocked.erase t ++ c.notified ++ c.spurious := List.perm_append_singleton ..
      _ ~ c.blocked ++ c.notified ++ c.spurious :=
        ((List.perm_cons_erase ht).symm.append_right _).append_right _
  · exact .refl _

/-- A thread that was awake leaves, and the others stay. -/
lemma leave_waiters (h : c.Awake t) : c.waiters ~ t :: (c.leave t).waiters := by
  unfold leave
  split_ifs with hn
  · calc c.blocked ++ c.notified ++ c.spurious
        ~ c.blocked ++ t :: c.notified.erase t ++ c.spurious :=
          ((List.perm_cons_erase hn).append_left _).append_right _
      _ ~ t :: (c.blocked ++ c.notified.erase t) ++ c.spurious := List.perm_middle.append_right _
  · have hs : t ∈ c.spurious := h.resolve_left hn
    exact ((List.perm_cons_erase hs).append_left _).trans List.perm_middle

end Condition

end Firey
