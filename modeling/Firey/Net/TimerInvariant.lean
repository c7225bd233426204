import Firey.Net.TimerQueue

/-!
# The two sets of a `TimerQueueff` represent one set of timers

`Good q loose` says that the heap determines everything: `timers` and `activeTimers` are the
timers of the heap, except those at the `loose` addresses, each filed under its own expiration
time and its own sequence number (`Filed`), and the timers ever made are those of the heap and
those deleted (`Accounted`).  The loose ones are alive and held by the function that is
at work: a timer between `new` and its insertion, one that is being cancelled, the batch whose
callbacks run.  Each operation moves timers into or out of the loose ones, and has one lemma;
`reset` and `getExpiredTimer` follow by induction on the batch.

That every timer is in the queue, in the batch, or deleted once is then read off the heap.
-/

set_option autoImplicit false

namespace Firey

namespace TimerQueue

/-! ## The invariant -/

/-- Every live timer is in both sets, under its own keys, or is one of the loose ones. -/
structure Filed (q : TimerQueue) (loose : List TimerPtr) : Prop where
  timers_iff : ∀ t p, TimerNode.mk t p ∈ q.timers ↔
    p ∉ loose ∧ ∃ tm, q.heap p = some tm ∧ tm.expireTime = t
  active_iff : ∀ p k, ActiveTimer.mk p k ∈ q.activeTimers ↔
    p ∉ loose ∧ ∃ tm, q.heap p = some tm ∧ tm.sequence = k
  loose_nodup : loose.Nodup
  loose_live : ∀ p ∈ loose, ∃ tm, q.heap p = some tm
  bound : ∀ p tm, q.heap p = some tm → p < UINTPTR_MAX

/-- Every timer ever made is alive, at one address, or has been deleted once. -/
structure Accounted (q : TimerQueue) : Prop where
  sequence_inj : ∀ p p' tm tm', q.heap p = some tm → q.heap p' = some tm' →
    tm.sequence = tm'.sequence → p = p'
  created_iff : ∀ k, k ∈ q.created ↔
    (∃ p tm, q.heap p = some tm ∧ tm.sequence = k) ∨ k ∈ q.deleted
  created_le : ∀ k ∈ q.created, k ≤ q.timerCreated
  deleted_nodup : q.deleted.Nodup
  live_notMem : ∀ p tm, q.heap p = some tm → tm.sequence ∉ q.deleted

/-- The representation invariant, with some of the live timers held outside the two sets. -/
structure Good (q : TimerQueue) (loose : List TimerPtr) : Prop extends q.Filed loose, q.Accounted

lemma start_good (n : ℕ) : (start n).Good [] where
  timers_iff := by simp [start]
  active_iff := by simp [start]
  loose_nodup := .nil
  loose_live := by simp
  bound := by simp [start]
  sequence_inj := by simp [start]
  created_iff := by simp [start]
  created_le := by simp [start]
  deleted_nodup := .nil
  live_notMem := by simp [start]

/-! ### The timers that are alive -/

namespace Filed

variable {q q' : TimerQueue} {loose loose' : List TimerPtr} {p : TimerPtr}

/-- The two sets have one size: the addresses tell the elements of either apart. -/
lemma size_eq (h : q.Filed loose) : q.timers.size = q.activeTimers.size := by
  refine OrderedSet.card_eq_of_keys (f := TimerNode.ptr) (g := ActiveTimer.ptr) ?_ ?_ ?_
  · rintro ⟨t, p⟩ ha ⟨t', p'⟩ hb (rfl : p = p')
    obtain ⟨-, tm, htm, rfl⟩ := (h.timers_iff t p).mp ha
    obtain ⟨-, tm', htm', rfl⟩ := (h.timers_iff t' p).mp hb
    cases htm.symm.trans htm'
    rfl
  · rintro ⟨p, k⟩ ha ⟨p', k'⟩ hb (rfl : p = p')
    obtain ⟨-, tm, htm, rfl⟩ := (h.active_iff p k).mp ha
    obtain ⟨-, tm', htm', rfl⟩ := (h.active_iff p k').mp hb
    cases htm.symm.trans htm'
    rfl
  · intro p
    constructor
    · rintro ⟨⟨t, p⟩, hn, rfl⟩
      obtain ⟨hl, tm, htm, -⟩ := (h.timers_iff t p).mp hn
      exact ⟨.mk p tm.sequence, (h.active_iff _ _).mpr ⟨hl, tm, htm, rfl⟩, rfl⟩
    · rintro ⟨⟨p, k⟩, ha, rfl⟩
      obtain ⟨hl, tm, htm, -⟩ := (h.active_iff p k).mp ha
      exact ⟨.mk tm.expireTime p, (h.timers_iff _ _).mpr ⟨hl, tm, htm, rfl⟩, rfl⟩

/-- Writing to an address that is free or loose leaves the sets right, as long as the address
is loose afterwards exactly if something is alive there. -/
lemma update (h : q.Filed loose) {v : Option Timer} (hheap : q'.heap = Function.update q.heap p v)
    (htimers : q'.timers = q.timers) (hactive : q'.activeTimers = q.activeTimers)
    (hout : q.heap p = none ∨ p ∈ loose) (hother : ∀ p' ≠ p, p' ∈ loose' ↔ p' ∈ loose)
    (hself : p ∈ loose' ↔ ∃ tm, v = some tm) (hnodup : loose'.Nodup)
    (hbound : p < UINTPTR_MAX) : q'.Filed loose' := by
  -- neither before nor after is the address one that the sets should show
  have hbefore (P : Timer → Prop) : ¬ (p ∉ loose ∧ ∃ tm, q.heap p = some tm ∧ P tm) := by
    rintro ⟨hnot, tm, htm, -⟩
    rcases hout with hfree | hmem
    · rw [hfree] at htm
      cases htm
    · exact hnot hmem
  have hafter (P : Timer → Prop) : ¬ (p ∉ loose' ∧ ∃ tm, q'.heap p = some tm ∧ P tm) := by
    rintro ⟨hnot, tm, htm, -⟩
    rw [hheap, Function.update_self] at htm
    exact hnot (hself.mpr ⟨tm, htm⟩)
  have hsame (p' : TimerPtr) (hne : p' ≠ p) : q'.heap p' = q.heap p' := by
    rw [hheap, Function.update_of_ne hne]
  refine ⟨fun t p' => ?_, fun p' k => ?_, hnodup, fun p' hmem => ?_, fun p' tm htm => ?_⟩
  · rw [htimers, h.timers_iff]
    by_cases hne : p' = p
    · rw [hne]
      exact iff_of_false (hbefore _) (hafter _)
    · rw [hsame p' hne, hother p' hne]
  · rw [hactive, h.active_iff]
    by_cases hne : p' = p
    · rw [hne]
      exact iff_of_false (hbefore _) (hafter _)
    · rw [hsame p' hne, hother p' hne]
  · by_cases hne : p' = p
    · obtain ⟨tm, htm⟩ := hself.mp (hne ▸ hmem)
      refine ⟨tm, ?_⟩
      rw [hne, hheap, Function.update_self, htm]
    · rw [hsame p' hne]
      exact h.loose_live p' ((hother p' hne).mp hmem)
  · by_cases hne : p' = p
    · exact hne ▸ hbound
    · exact h.bound p' tm (hsame p' hne ▸ htm)

end Filed

/-! ### The timers that were made -/

namespace Accounted

variable {q q' : TimerQueue} {p : TimerPtr}

/-- The two sets do not matter. -/
lemma of_eq (h : q.Accounted) (hheap : q'.heap = q.heap) (hcreated : q'.created = q.created)
    (hle : q.timerCreated ≤ q'.timerCreated) (hdeleted : q'.deleted = q.deleted) :
    q'.Accounted where
  sequence_inj := by
    rw [hheap]
    exact h.sequence_inj
  created_iff := by
    rw [hheap, hcreated, hdeleted]
    exact h.created_iff
  created_le := by
    intro k hk
    rw [hcreated] at hk
    exact (h.created_le k hk).trans hle
  deleted_nodup := by
    rw [hdeleted]
    exact h.deleted_nodup
  live_notMem := by
    rw [hheap, hdeleted]
    exact h.live_notMem

lemma sequence_le (h : q.Accounted) {tm : Timer} (htm : q.heap p = some tm) :
    tm.sequence ≤ q.timerCreated :=
  h.created_le _ ((h.created_iff _).mpr (Or.inl ⟨p, tm, htm, rfl⟩))

lemma newTimer (h : q.Accounted) (hfree : q.heap p = none) (when : Timestamp) (interval : ℤ)
    (isRepeat : Bool) : (q.newTimer p when interval isRepeat).Accounted := by
  -- what is alive afterwards is the new timer, or was alive before with a smaller number
  have hlive (p' : TimerPtr) (tm : Timer)
      (htm : (q.newTimer p when interval isRepeat).heap p' = some tm) :
      p' = p ∧ tm.sequence = q.timerCreated + 1 ∨
        q.heap p' = some tm ∧ tm.sequence ≤ q.timerCreated := by
    unfold TimerQueue.newTimer at htm
    by_cases hne : p' = p
    · subst hne
      simp only [Function.update_self, Option.some.injEq] at htm
      subst htm
      exact Or.inl ⟨rfl, rfl⟩
    · simp only [Function.update_of_ne hne] at htm
      exact Or.inr ⟨htm, h.sequence_le htm⟩
  have hself : (q.newTimer p when interval isRepeat).heap p =
      some ⟨interval, isRepeat, when, q.timerCreated + 1⟩ := Function.update_self ..
  refine ⟨?_, fun k => ?_, fun k hk => ?_, h.deleted_nodup, fun p' tm htm hdel => ?_⟩
  · intro p₁ p₂ tm₁ tm₂ h₁ h₂ heq
    rcases hlive p₁ tm₁ h₁ with ⟨rfl, hs₁⟩ | ⟨h₁, hs₁⟩ <;>
      rcases hlive p₂ tm₂ h₂ with ⟨rfl, hs₂⟩ | ⟨h₂, hs₂⟩
    · rfl
    · omega
    · omega
    · exact h.sequence_inj p₁ p₂ tm₁ tm₂ h₁ h₂ heq
  · change k ∈ q.created ++ [q.timerCreated + 1] ↔ _ ∨ k ∈ q.deleted
    rw [List.mem_append, List.mem_singleton, h.created_iff]
    constructor
    · rintro ((⟨p', tm, htm, rfl⟩ | hdel) | rfl)
      · have hne : p' ≠ p := by
          rintro rfl
          rw [hfree] at htm
          cases htm
        exact Or.inl ⟨p', tm, (Function.update_of_ne hne _ _).trans htm, rfl⟩
      · exact Or.inr hdel
      · exact Or.inl ⟨p, _, hself, rfl⟩
    · rintro (⟨p', tm, htm, rfl⟩ | hdel)
      · rcases hlive p' tm htm with ⟨-, hs⟩ | ⟨hold, -⟩
        · exact Or.inr hs
        · exact Or.inl (Or.inl ⟨p', tm, hold, rfl⟩)
      · exact Or.inl (Or.inr hdel)
  · rcases List.mem_append.mp hk with hold | hnew
    · exact Nat.le_succ_of_le (h.created_le k hold)
    · rw [List.mem_singleton.mp hnew]
      exact le_refl _
  · rcases hlive p' tm htm with ⟨-, hs⟩ | ⟨hold, -⟩
    · have hle := h.created_le _ ((h.created_iff _).mpr (Or.inr hdel))
      omega
    · exact h.live_notMem p' tm hold hdel

lemma delete (h : q.Accounted) {tm : Timer} (htm : q.heap p = some tm) :
    Accounted { q with
      heap := Function.update q.heap p none, deleted := q.deleted ++ [tm.sequence] } := by
  have hlive (p' : TimerPtr) (tm' : Timer) (htm' : Function.update q.heap p none p' = some tm') :
      p' ≠ p ∧ q.heap p' = some tm' := by
    by_cases hne : p' = p
    · rw [hne, Function.update_self] at htm'
      cases htm'
    · exact ⟨hne, (Function.update_of_ne hne _ _).symm.trans htm'⟩
  refine ⟨?_, fun k => ?_, h.created_le, ?_, fun p' tm' htm' hmem => ?_⟩
  · intro p₁ p₂ tm₁ tm₂ h₁ h₂ heq
    exact h.sequence_inj p₁ p₂ tm₁ tm₂ (hlive p₁ tm₁ h₁).2 (hlive p₂ tm₂ h₂).2 heq
  · change k ∈ q.created ↔ _ ∨ k ∈ q.deleted ++ [tm.sequence]
    rw [h.created_iff, List.mem_append, List.mem_singleton]
    constructor
    · rintro (⟨p', tm', htm', rfl⟩ | hdel)
      · by_cases hne : p' = p
        · subst hne
          cases htm.symm.trans htm'
          exact Or.inr (Or.inr rfl)
        · exact Or.inl ⟨p', tm', (Function.update_of_ne hne _ _).trans htm', rfl⟩
      · exact Or.inr (Or.inl hdel)
    · rintro (⟨p', tm', htm', rfl⟩ | hdel | rfl)
      · exact Or.inl ⟨p', tm', (hlive p' tm' htm').2, rfl⟩
      · exact Or.inr hdel
      · exact Or.inl ⟨p, tm, htm, rfl⟩
  · refine List.nodup_append.mpr ⟨h.deleted_nodup, List.nodup_singleton _, ?_⟩
    rintro k hk k' hk' rfl
    rw [List.mem_singleton.mp hk'] at hk
    exact h.live_notMem p tm htm hk
  · obtain ⟨hne, hold⟩ := hlive p' tm' htm'
    rcases List.mem_append.mp hmem with hdel | hnew
    · exact h.live_notMem p' tm' hold hdel
    · exact hne (h.sequence_inj p' p tm' tm hold htm (List.mem_singleton.mp hnew))

/-- A timer that keeps its number may change otherwise. -/
lemma update (h : q.Accounted) {tm tm' : Timer} (htm : q.heap p = some tm)
    (hseq : tm'.sequence = tm.sequence) :
    Accounted { q with heap := Function.update q.heap p (some tm') } := by
  have hlive (p' : TimerPtr) (k : ℕ) :
      (∃ t, Function.update q.heap p (some tm') p' = some t ∧ t.sequence = k) ↔
        ∃ t, q.heap p' = some t ∧ t.sequence = k := by
    by_cases hne : p' = p
    · subst hne
      simp [htm, hseq]
    · rw [Function.update_of_ne hne]
  refine ⟨?_, fun k => ?_, h.created_le, h.deleted_nodup, fun p' t ht => ?_⟩
  · intro p₁ p₂ tm₁ tm₂ h₁ h₂ heq
    obtain ⟨tm₁', h₁', hs₁⟩ := (hlive p₁ tm₁.sequence).mp ⟨tm₁, h₁, rfl⟩
    obtain ⟨tm₂', h₂', hs₂⟩ := (hlive p₂ tm₂.sequence).mp ⟨tm₂, h₂, rfl⟩
    exact h.sequence_inj p₁ p₂ tm₁' tm₂' h₁' h₂' (hs₁.trans (heq.trans hs₂.symm))
  · exact (h.created_iff k).trans (or_congr (exists_congr fun p' => (hlive p' k).symm) Iff.rfl)
  · obtain ⟨t', ht', hs⟩ := (hlive p' t.sequence).mp ⟨t, ht, rfl⟩
    exact hs ▸ h.live_notMem p' t' ht'

end Accounted

/-! ### Moving timers in and out -/

namespace Good

variable {q : TimerQueue} {loose : List TimerPtr} {p : TimerPtr}

/-- Only the heap, the two sets and the history matter. -/
lemma of_eq {q' : TimerQueue} (h : q.Good loose) (hheap : q'.heap = q.heap)
    (htimers : q'.timers = q.timers) (hactive : q'.activeTimers = q.activeTimers)
    (hcreated : q'.created = q.created) (hle : q.timerCreated ≤ q'.timerCreated)
    (hdeleted : q'.deleted = q.deleted) : q'.Good loose := by
  refine ⟨⟨?_, ?_, h.loose_nodup, ?_, ?_⟩, h.toAccounted.of_eq hheap hcreated hle hdeleted⟩
  · rw [hheap, htimers]
    exact h.timers_iff
  · rw [hheap, hactive]
    exact h.active_iff
  · rw [hheap]
    exact h.loose_live
  · rw [hheap]
    exact h.bound

/-- The loose timers have no order. -/
lemma perm {loose' : List TimerPtr} (h : q.Good loose) (hperm : loose.Perm loose') :
    q.Good loose' := by
  refine ⟨⟨fun t p => ?_, fun p k => ?_, hperm.nodup_iff.mp h.loose_nodup, fun p hp => ?_,
    h.bound⟩, h.toAccounted⟩
  · rw [h.timers_iff, hperm.mem_iff]
  · rw [h.active_iff, hperm.mem_iff]
  · exact h.loose_live p (hperm.mem_iff.mpr hp)

/-- A new timer is loose. -/
lemma newTimer (h : q.Good loose) (hfree : q.heap p = none) (hp : p < UINTPTR_MAX)
    (when : Timestamp) (interval : ℤ) (isRepeat : Bool) :
    (q.newTimer p when interval isRepeat).Good (p :: loose) := by
  have hloose : p ∉ loose := by
    intro hmem
    obtain ⟨tm, htm⟩ := h.loose_live p hmem
    rw [hfree] at htm
    cases htm
  refine ⟨?_, h.toAccounted.newTimer hfree when interval isRepeat⟩
  refine h.toFiled.update rfl rfl rfl (Or.inl hfree) (fun p' hne => ?_) ?_
    (List.nodup_cons.mpr ⟨hloose, h.loose_nodup⟩) hp
  · simp [hne]
  · simp

/-- A loose timer is put into both sets. -/
lemma insertTimer (h : q.Good (p :: loose)) :
    ∃ q' b, q.insertTimer p = .ok (q', b) ∧ q'.Good loose ∧ q'.heap = q.heap := by
  obtain ⟨tm, htm⟩ := h.loose_live p List.mem_cons_self
  obtain ⟨hp, hnodup⟩ := List.nodup_cons.mp h.loose_nodup
  have hgood : Good { q with
      timers := q.timers.insert (.mk tm.expireTime p)
      activeTimers := q.activeTimers.insert (.mk p tm.sequence) } loose := by
    refine ⟨⟨?_, ?_, hnodup, fun p' hmem => h.loose_live p' (List.mem_cons_of_mem _ hmem),
      h.bound⟩, h.toAccounted.of_eq rfl rfl (le_refl _) rfl⟩
    · intro t p'
      rw [OrderedSet.mem_insert, h.timers_iff]
      by_cases hne : p' = p
      · subst hne
        constructor
        · rintro (heq | hold)
          · cases heq
            exact ⟨hp, tm, htm, rfl⟩
          · exact absurd List.mem_cons_self hold.1
        · rintro ⟨-, tm', htm', rfl⟩
          cases htm.symm.trans htm'
          exact Or.inl rfl
      · have hkey : TimerNode.mk t p' ≠ .mk tm.expireTime p := by
          intro heq
          exact hne (congrArg TimerNode.ptr heq)
        simp [hkey, hne]
    · intro p' k
      rw [OrderedSet.mem_insert, h.active_iff]
      by_cases hne : p' = p
      · subst hne
        constructor
        · rintro (heq | hold)
          · cases heq
            exact ⟨hp, tm, htm, rfl⟩
          · exact absurd List.mem_cons_self hold.1
        · rintro ⟨-, tm', htm', rfl⟩
          cases htm.symm.trans htm'
          exact Or.inl rfl
      · have hkey : ActiveTimer.mk p' k ≠ .mk p tm.sequence := by
          intro heq
          exact hne (congrArg ActiveTimer.ptr heq)
        simp [hkey, hne]
  refine ⟨_, q.timers.first?.all fun n => tm.expireTime < n.when, ?_, hgood, rfl⟩
  have hsize := hgood.size_eq
  unfold TimerQueue.insertTimer
  rw [check_true h.size_eq, ok_bind, deref, htm]
  simp only [ok_bind]
  rw [check_true hsize, ok_bind]

/-- A loose timer is deleted. -/
lemma delete (h : q.Good (p :: loose)) : ∃ q', q.delete p = .ok q' ∧ q'.Good loose := by
  obtain ⟨tm, htm⟩ := h.loose_live p List.mem_cons_self
  obtain ⟨hp, hnodup⟩ := List.nodup_cons.mp h.loose_nodup
  refine ⟨{ q with
    heap := Function.update q.heap p none, deleted := q.deleted ++ [tm.sequence] }, ?_,
    ?_, h.toAccounted.delete htm⟩
  · rw [TimerQueue.delete, deref, htm, ok_bind]
  · refine h.toFiled.update rfl rfl rfl (Or.inr List.mem_cons_self) (fun p' hne => ?_) ?_ hnodup
      (h.bound p tm htm)
    · simp [hne]
    · simp [hp]

/-- A loose timer is given another expiration time. -/
lemma restart (h : q.Good (p :: loose)) {tm : Timer} (htm : q.heap p = some tm)
    (now : Timestamp) :
    Good { q with heap := Function.update q.heap p (some (tm.restart now)) } (p :: loose) := by
  have hseq : (tm.restart now).sequence = tm.sequence := by
    unfold Timer.restart
    split <;> rfl
  refine ⟨?_, h.toAccounted.update htm hseq⟩
  refine h.toFiled.update rfl rfl rfl (Or.inr List.mem_cons_self) (fun _ _ => Iff.rfl) ?_
    h.loose_nodup (h.bound p tm htm)
  simp

/-- A timer of the queue is taken out of both sets. -/
lemma unlink (h : q.Good loose) (hp : p ∉ loose) {tm : Timer} (htm : q.heap p = some tm) :
    Good { q with
      timers := q.timers.erase (.mk tm.expireTime p)
      activeTimers := q.activeTimers.erase (.mk p tm.sequence) } (p :: loose) := by
  refine ⟨⟨?_, ?_, List.nodup_cons.mpr ⟨hp, h.loose_nodup⟩, ?_, h.bound⟩,
    h.toAccounted.of_eq rfl rfl (le_refl _) rfl⟩
  · intro t p'
    rw [OrderedSet.mem_erase, h.timers_iff]
    by_cases hne : p' = p
    · subst hne
      simp only [List.mem_cons, true_or, not_true_eq_false, false_and, iff_false, not_and]
      rintro hkey - ⟨tm', htm', rfl⟩
      cases htm.symm.trans htm'
      exact hkey rfl
    · have hkey : TimerNode.mk t p' ≠ .mk tm.expireTime p := by
        intro heq
        exact hne (congrArg TimerNode.ptr heq)
      simp [hkey, hne]
  · intro p' k
    rw [OrderedSet.mem_erase, h.active_iff]
    by_cases hne : p' = p
    · subst hne
      simp only [List.mem_cons, true_or, not_true_eq_false, false_and, iff_false, not_and]
      rintro hkey - ⟨tm', htm', rfl⟩
      cases htm.symm.trans htm'
      exact hkey rfl
    · have hkey : ActiveTimer.mk p' k ≠ .mk p tm.sequence := by
        intro heq
        exact hne (congrArg ActiveTimer.ptr heq)
      simp [hkey, hne]
  · intro p' hmem
    rcases List.mem_cons.mp hmem with rfl | hmem
    · exact ⟨tm, htm⟩
    · exact h.loose_live p' hmem

/-! ## Adding and cancelling -/

theorem addTimer (h : q.Good loose) (hfree : q.heap p = none) (hp : p < UINTPTR_MAX)
    (when : Timestamp) (interval : ℤ) (isRepeat : Bool) :
    ∃ q' r, q.addTimer p when interval isRepeat = .ok (q', r) ∧ q'.Good loose := by
  obtain ⟨q', b, hins, hgood, hheap⟩ := (h.newTimer hfree hp when interval isRepeat).insertTimer
  have htm : q'.deref p = .ok ⟨interval, isRepeat, when, q.timerCreated + 1⟩ := by
    have hself : q'.heap p = some ⟨interval, isRepeat, when, q.timerCreated + 1⟩ :=
      hheap ▸ Function.update_self ..
    rw [deref, hself]
  unfold TimerQueue.addTimer addTimerInLoop
  rw [hins, ok_bind]
  cases b with
  | false =>
    refine ⟨q', (none, .mk p (q.timerCreated + 1)), ?_, hgood⟩
    simp only [Bool.false_eq_true, if_false, ok_bind, htm]
  | true =>
    refine ⟨q', (some when, .mk p (q.timerCreated + 1)), ?_, hgood⟩
    simp only [if_true, ok_bind, htm]

theorem cancelInLoop (h : q.Good loose) (timerId : ActiveTimer) :
    ∃ q', q.cancelInLoop timerId = .ok q' ∧ q'.Good loose := by
  unfold TimerQueue.cancelInLoop
  rw [check_true h.size_eq, ok_bind]
  by_cases hmem : timerId ∈ q.activeTimers
  · obtain ⟨hp, tm, htm, hseq⟩ := (h.active_iff timerId.ptr timerId.sequence).mp hmem
    obtain ⟨q', hdel, hgood⟩ := (h.unlink hp htm).delete
    rw [hseq, TimerQueue.delete, deref, htm, ok_bind] at hdel
    cases hdel
    refine ⟨_, ?_, hgood⟩
    rw [if_pos hmem, deref, htm]
    simp only [ok_bind, TimerQueue.delete, deref, htm]
    exact (congrArg (· >>= _) (check_true hgood.size_eq)).trans (ok_bind _ _)
  · rw [if_neg hmem]
    split
    · have hgood : Good { q with cancelingTimers := q.cancelingTimers.insert timerId } loose :=
        h.of_eq rfl rfl rfl rfl (le_refl _) rfl
      refine ⟨_, ?_, hgood⟩
      simp only [ok_bind]
      rw [check_true h.size_eq, ok_bind]
    · refine ⟨q, ?_, h⟩
      simp only [ok_bind]
      rw [check_true h.size_eq, ok_bind]

/-! ## Expiry -/

/-- Every expired timer leaves the active ones. -/
lemma eraseActive {ns : List TimerNode} (hns : ∀ n ∈ ns, ∃ tm, q.heap n.ptr = some tm) :
    ∃ active, q.eraseActive ns = .ok { q with activeTimers := active } ∧
      ∀ p k, ActiveTimer.mk p k ∈ active ↔ ActiveTimer.mk p k ∈ q.activeTimers ∧
        ¬ (p ∈ ns.map TimerNode.ptr ∧ ∃ tm, q.heap p = some tm ∧ tm.sequence = k) := by
  induction ns generalizing q with
  | nil => exact ⟨q.activeTimers, rfl, by simp⟩
  | cons n ns ih =>
    obtain ⟨tm, htm⟩ := hns n List.mem_cons_self
    obtain ⟨active, herase, hmem⟩ := ih
      (q := { q with activeTimers := q.activeTimers.erase (.mk n.ptr tm.sequence) })
      (fun m hm => hns m (List.mem_cons_of_mem _ hm))
    refine ⟨active, ?_, fun p k => ?_⟩
    · rw [TimerQueue.eraseActive, deref, htm, ok_bind, herase]
    · rw [hmem, OrderedSet.mem_erase, List.map_cons, List.mem_cons]
      by_cases hp : p = n.ptr
      · subst hp
        by_cases hk : tm.sequence = k
        · subst hk
          simp [htm]
        · have hkey : ActiveTimer.mk n.ptr k ≠ .mk n.ptr tm.sequence := by
            intro heq
            exact hk (congrArg ActiveTimer.sequence heq).symm
          simp [htm, hk, hkey]
      · have hkey : ActiveTimer.mk p k ≠ .mk n.ptr tm.sequence := by
          intro heq
          exact hp (congrArg ActiveTimer.ptr heq)
        simp [hp, hkey]

/-- An address is below the sentry's, so a node is before the sentry exactly when it is due. -/
lemma lt_sentry_iff {t now : Timestamp} (hp : p < UINTPTR_MAX) :
    TimerNode.mk t p < .mk now UINTPTR_MAX ↔ t ≤ now := by
  rw [TimerNode.mk, TimerNode.mk, Prod.Lex.toLex_lt_toLex]
  constructor
  · rintro (hlt | ⟨heq, -⟩)
    · exact le_of_lt hlt
    · exact le_of_eq heq
  · intro hle
    rcases lt_or_eq_of_le hle with hlt | heq
    · exact Or.inl hlt
    · exact Or.inr ⟨heq, hp⟩

/-- A node of the queue points to a timer that it is the node of. -/
lemma live_of_mem (h : q.Good loose) {n : TimerNode} (hn : n ∈ q.timers) :
    ∃ tm, q.heap n.ptr = some tm ∧ tm.expireTime = n.when :=
  ((h.timers_iff n.when n.ptr).mp hn).2

lemma mem_before (h : q.Good loose) {now : Timestamp} {n : TimerNode} :
    n ∈ q.timers.before (.mk now UINTPTR_MAX) ↔ n ∈ q.timers ∧ n.when ≤ now := by
  rw [OrderedSet.mem_before]
  refine and_congr_right fun hn => ?_
  obtain ⟨tm, htm, -⟩ := h.live_of_mem hn
  exact lt_sentry_iff (h.bound _ tm htm)

lemma mem_eraseBefore (h : q.Good loose) {now : Timestamp} {n : TimerNode} :
    n ∈ q.timers.eraseBefore (.mk now UINTPTR_MAX) ↔ n ∈ q.timers ∧ now < n.when := by
  rw [OrderedSet.mem_eraseBefore]
  refine and_congr_right fun hn => ?_
  obtain ⟨tm, htm, -⟩ := h.live_of_mem hn
  exact not_lt.symm.trans ((not_congr (lt_sentry_iff (h.bound _ tm htm))).trans not_le)

/-- An address has one node, so a timer of the queue is in the batch exactly when it is due. -/
lemma mem_batch (h : q.Good loose) {now : Timestamp} :
    p ∈ (q.timers.before (.mk now UINTPTR_MAX)).map TimerNode.ptr ↔
      p ∉ loose ∧ ∃ tm, q.heap p = some tm ∧ tm.expireTime ≤ now := by
  rw [List.mem_map]
  constructor
  · rintro ⟨n, hn, rfl⟩
    obtain ⟨hmem, hdue⟩ := h.mem_before.mp hn
    obtain ⟨hnot, tm, htm, hwhen⟩ := (h.timers_iff n.when n.ptr).mp hmem
    exact ⟨hnot, tm, htm, hwhen ▸ hdue⟩
  · rintro ⟨hnot, tm, htm, hdue⟩
    refine ⟨.mk tm.expireTime p, h.mem_before.mpr ⟨?_, hdue⟩, rfl⟩
    exact (h.timers_iff _ _).mpr ⟨hnot, tm, htm, rfl⟩

lemma batch_nodup (h : q.Good loose) (now : Timestamp) :
    ((q.timers.before (.mk now UINTPTR_MAX)).map TimerNode.ptr ++ loose).Nodup := by
  refine List.nodup_append.mpr ⟨?_, h.loose_nodup, ?_⟩
  · refine (OrderedSet.before_nodup _ _).map_on fun n hn m hm heq => ?_
    obtain ⟨tm, htm, hwhen⟩ := h.live_of_mem (h.mem_before.mp hn).1
    obtain ⟨tm', htm', hwhen'⟩ := h.live_of_mem (h.mem_before.mp hm).1
    rw [heq] at htm
    cases htm.symm.trans htm'
    exact Prod.ext (hwhen.symm.trans hwhen') heq
  · rintro p hp p' hp' rfl
    exact (h.mem_batch.mp hp).1 hp'

/-- The batch becomes loose when it has left both sets. -/
lemma expire (h : q.Good loose) {now : Timestamp} {active : OrderedSet ActiveTimer}
    (hactive : ∀ p k, ActiveTimer.mk p k ∈ active ↔ ActiveTimer.mk p k ∈ q.activeTimers ∧
      ¬ (p ∈ (q.timers.before (.mk now UINTPTR_MAX)).map TimerNode.ptr ∧
        ∃ tm, q.heap p = some tm ∧ tm.sequence = k)) :
    Good { q with timers := q.timers.eraseBefore (.mk now UINTPTR_MAX), activeTimers := active }
      ((q.timers.before (.mk now UINTPTR_MAX)).map TimerNode.ptr ++ loose) := by
  refine ⟨⟨fun t p => ?_, fun p k => ?_, h.batch_nodup now, fun p hp => ?_, h.bound⟩,
    h.toAccounted.of_eq rfl rfl (le_refl _) rfl⟩
  · rw [h.mem_eraseBefore, h.timers_iff, List.mem_append, h.mem_batch]
    constructor
    · rintro ⟨⟨hnot, tm, htm, rfl⟩, hdue⟩
      refine ⟨?_, tm, htm, rfl⟩
      rintro (⟨-, tm', htm', hle⟩ | hmem)
      · cases htm.symm.trans htm'
        exact absurd hdue (not_lt.mpr hle)
      · exact hnot hmem
    · rintro ⟨hnot, tm, htm, rfl⟩
      obtain ⟨hlate, hloose⟩ := not_or.mp hnot
      exact ⟨⟨hloose, tm, htm, rfl⟩, not_le.mp fun hle => hlate ⟨hloose, tm, htm, hle⟩⟩
  · rw [hactive, h.active_iff, List.mem_append]
    constructor
    · rintro ⟨⟨hloose, hk⟩, hnot⟩
      refine ⟨?_, hk⟩
      rintro (hmem | hmem)
      · exact hnot ⟨hmem, hk⟩
      · exact hloose hmem
    · rintro ⟨hnot, hk⟩
      obtain ⟨hlate, hloose⟩ := not_or.mp hnot
      exact ⟨⟨hloose, hk⟩, fun hmem => hlate hmem.1⟩
  · rcases List.mem_append.mp hp with hp | hp
    · obtain ⟨-, tm, htm, -⟩ := h.mem_batch.mp hp
      exact ⟨tm, htm⟩
    · exact h.loose_live p hp

/-- The batch: the timers that are due leave both sets and become loose. -/
theorem getExpiredTimer (h : q.Good loose) (now : Timestamp) :
    ∃ q' expired, q.getExpiredTimer now = .ok (q', expired) ∧
      q'.Good (expired.map TimerNode.ptr ++ loose) := by
  have hheap : ∀ n ∈ q.timers.before (.mk now UINTPTR_MAX), ∃ tm, q.heap n.ptr = some tm := by
    intro n hn
    obtain ⟨tm, htm, -⟩ := h.live_of_mem (h.mem_before.mp hn).1
    exact ⟨tm, htm⟩
  obtain ⟨active, herase, hactive⟩ := eraseActive
    (q := { q with timers := q.timers.eraseBefore (.mk now UINTPTR_MAX) }) hheap
  have hgood := h.expire hactive
  refine ⟨_, q.timers.before (.mk now UINTPTR_MAX), ?_, hgood⟩
  have hbound : ((q.timers.eraseBefore (.mk now UINTPTR_MAX)).first?.all
      fun n => now < n.when) = true := by
    rw [Option.all_eq_true]
    intro n hn
    exact decide_eq_true (h.mem_eraseBefore.mp (List.mem_of_head? hn)).2
  unfold TimerQueue.getExpiredTimer
  rw [check_true h.size_eq, ok_bind]
  dsimp only
  rw [check_true hbound, ok_bind, herase, ok_bind, check_true hgood.size_eq, ok_bind]

theorem resetTimer {n : TimerNode} (h : q.Good (n.ptr :: loose)) (now : Timestamp) :
    ∃ q', q.resetTimer now n = .ok q' ∧ q'.Good loose := by
  obtain ⟨tm, htm⟩ := h.loose_live n.ptr List.mem_cons_self
  unfold TimerQueue.resetTimer
  rw [deref, htm, ok_bind]
  split
  · obtain ⟨q', b, hins, hgood, -⟩ := (h.restart htm now).insertTimer
    exact ⟨q', by rw [hins, ok_bind], hgood⟩
  · exact h.delete

/-- The batch is put back or deleted, one timer after the other. -/
theorem resetAll {ns : List TimerNode} (h : q.Good (ns.map TimerNode.ptr ++ loose))
    (now : Timestamp) : ∃ q', q.resetAll now ns = .ok q' ∧ q'.Good loose := by
  induction ns generalizing q with
  | nil => exact ⟨q, rfl, h⟩
  | cons n ns ih =>
    obtain ⟨q', hreset, hgood⟩ := resetTimer h now
    obtain ⟨q'', hall, hgood'⟩ := ih hgood
    refine ⟨q'', ?_, hgood'⟩
    rw [TimerQueue.resetAll, hreset, ok_bind, hall]

theorem reset {expired : List TimerNode} (h : q.Good (expired.map TimerNode.ptr ++ loose))
    (now : Timestamp) : ∃ r, q.reset expired now = .ok r ∧ r.1.Good loose := by
  obtain ⟨q', hall, hgood⟩ := resetAll h now
  unfold TimerQueue.reset
  rw [hall, ok_bind]
  exact ⟨_, rfl, hgood⟩

end Good

end TimerQueue

/-! ## Every run -/

/-- The expired timers whose callbacks are being run. -/
def TimerPhase.batch : TimerPhase → List TimerNode
  | .idle => []
  | .calling _ expired _ => expired

/-- The timers whose callbacks have not started. -/
def TimerPhase.toRun : TimerPhase → List TimerNode
  | .idle => []
  | .calling _ _ toRun => toRun

namespace TimerLoop

/-- The loose timers are the batch. -/
structure Inv (s : TimerLoop) : Prop where
  good : s.queue.Good (s.phase.batch.map TimerNode.ptr)
  toRun_mem : ∀ n ∈ s.phase.toRun, n ∈ s.phase.batch

lemma start_inv (n : ℕ) : (start n).Inv := ⟨TimerQueue.start_good n, fun _ h => nomatch h⟩

lemma handleTimerfdRead_inv {s : TimerLoop} (h : s.Inv) (now : Timestamp) :
    ∃ t, s.handleTimerfdRead now = .ok t ∧ t.Inv := by
  obtain ⟨q, phase⟩ := s
  unfold handleTimerfdRead
  cases phase with
  | calling _ _ _ => exact ⟨_, rfl, h⟩
  | idle =>
    obtain ⟨q', expired, hget, hgood⟩ := h.good.getExpiredTimer now
    rw [TimerPhase.batch, List.map_nil, List.append_nil] at hgood
    refine ⟨⟨{ q' with callingExpiredTimers := true, cancelingTimers := .empty },
      .calling now expired expired⟩, ?_, ?_, fun _ hn => hn⟩
    · simp only [hget, ok_bind]
    · exact hgood.of_eq rfl rfl rfl rfl (le_refl _) rfl

lemma next_inv {s : TimerLoop} (h : s.Inv) : ∃ t, s.next = .ok t ∧ t.Inv := by
  obtain ⟨q, phase⟩ := s
  unfold next
  cases phase with
  | idle => exact ⟨_, rfl, h⟩
  | calling now expired toRun =>
    cases toRun with
    | nil =>
      have hgood : TimerQueue.Good { q with callingExpiredTimers := false }
          (expired.map TimerNode.ptr ++ []) := by
        rw [List.append_nil]
        exact h.good.of_eq rfl rfl rfl rfl (le_refl _) rfl
      obtain ⟨r, hreset, hgood'⟩ := hgood.reset now
      exact ⟨⟨r.1, .idle⟩, by simp only [hreset, ok_bind], hgood', fun _ hn => nomatch hn⟩
    | cons n toRun =>
      obtain ⟨tm, htm⟩ : ∃ tm, q.heap n.ptr = some tm := h.good.loose_live n.ptr
        (List.mem_map_of_mem (h.toRun_mem n List.mem_cons_self))
      refine ⟨⟨q, .calling now expired toRun⟩, ?_, h.good, fun m hm => ?_⟩
      · simp only [TimerQueue.deref, htm, ok_bind]
      · exact h.toRun_mem m (List.mem_cons_of_mem _ hm)

/-- **Every step** succeeds and keeps the invariant. -/
theorem step_inv {s : TimerLoop} (h : s.Inv) (i : TimerInput) :
    ∃ t, s.step i = .ok t ∧ t.Inv := by
  cases i with
  | addTimer p when interval isRepeat =>
    rw [step]
    split
    · next hp =>
      obtain ⟨q, r, hadd, hgood⟩ := h.good.addTimer hp.1 hp.2.2 when interval isRepeat
      exact ⟨{ s with queue := q }, by rw [hadd, ok_bind], hgood, h.toRun_mem⟩
    · exact ⟨s, rfl, h⟩
  | cancel timerId =>
    obtain ⟨q, hcancel, hgood⟩ := h.good.cancelInLoop timerId
    exact ⟨{ s with queue := q }, by rw [step, hcancel, ok_bind], hgood, h.toRun_mem⟩
  | createElsewhere =>
    refine ⟨_, rfl, ?_, h.toRun_mem⟩
    exact h.good.of_eq rfl rfl rfl rfl (Nat.le_succ _) rfl
  | handleTimerfdRead now => exact handleTimerfdRead_inv h now
  | next => exact next_inv h

/-- The timer with this sequence number is in the queue. -/
def InQueue (s : TimerLoop) (k : ℕ) : Prop :=
  ∃ p, ActiveTimer.mk p k ∈ s.queue.activeTimers

/-- The timer with this sequence number is in the batch whose callbacks are being run. -/
def InBatch (s : TimerLoop) (k : ℕ) : Prop :=
  ∃ n ∈ s.phase.batch, ∃ tm, s.queue.heap n.ptr = some tm ∧ tm.sequence = k

/-- What the two sets are for.  They hold the same timers, each once, under the timer's own
expiration time and its own sequence number; and every timer ever made is in the queue, or in
the batch, or has been deleted once. -/
structure Represents (s : TimerLoop) : Prop where
  timers : ∀ t p, TimerNode.mk t p ∈ s.queue.timers → ∃ tm, s.queue.heap p = some tm ∧
    tm.expireTime = t ∧ ActiveTimer.mk p tm.sequence ∈ s.queue.activeTimers
  active : ∀ p k, ActiveTimer.mk p k ∈ s.queue.activeTimers → ∃ tm, s.queue.heap p = some tm ∧
    tm.sequence = k ∧ TimerNode.mk tm.expireTime p ∈ s.queue.timers
  timers_once : ∀ t t' p, TimerNode.mk t p ∈ s.queue.timers →
    TimerNode.mk t' p ∈ s.queue.timers → t = t'
  active_once : ∀ k k' p, ActiveTimer.mk p k ∈ s.queue.activeTimers →
    ActiveTimer.mk p k' ∈ s.queue.activeTimers → k = k'
  size_eq : s.queue.timers.size = s.queue.activeTimers.size
  fate : ∀ k ∈ s.queue.created,
    s.InQueue k ∧ ¬ s.InBatch k ∧ s.queue.deleted.count k = 0 ∨
      ¬ s.InQueue k ∧ s.InBatch k ∧ s.queue.deleted.count k = 0 ∨
        ¬ s.InQueue k ∧ ¬ s.InBatch k ∧ s.queue.deleted.count k = 1

namespace Inv

variable {s : TimerLoop}

lemma inQueue_iff (h : s.Inv) {k : ℕ} : s.InQueue k ↔
    ∃ p, p ∉ s.phase.batch.map TimerNode.ptr ∧ ∃ tm, s.queue.heap p = some tm ∧ tm.sequence = k :=
  exists_congr fun p => h.good.active_iff p k

lemma inBatch_iff {k : ℕ} : s.InBatch k ↔
    ∃ p ∈ s.phase.batch.map TimerNode.ptr, ∃ tm, s.queue.heap p = some tm ∧ tm.sequence = k := by
  simp [InBatch, List.mem_map]

/-- A timer is not in two places. -/
lemma not_inBatch (h : s.Inv) {k : ℕ} (hq : s.InQueue k) : ¬ s.InBatch k := by
  intro hb
  obtain ⟨p, hp, tm, htm, hk⟩ := h.inQueue_iff.mp hq
  obtain ⟨p', hp', tm', htm', hk'⟩ := inBatch_iff.mp hb
  have hpp := h.good.sequence_inj p p' tm tm' htm htm' (hk.trans hk'.symm)
  exact hp (hpp ▸ hp')

lemma live_iff (h : s.Inv) {k : ℕ} :
    (∃ p tm, s.queue.heap p = some tm ∧ tm.sequence = k) ↔ s.InQueue k ∨ s.InBatch k := by
  rw [h.inQueue_iff, inBatch_iff]
  constructor
  · rintro ⟨p, hp⟩
    by_cases hmem : p ∈ s.phase.batch.map TimerNode.ptr
    · exact Or.inr ⟨p, hmem, hp⟩
    · exact Or.inl ⟨p, hmem, hp⟩
  · rintro (⟨p, -, hp⟩ | ⟨p, -, hp⟩)
    · exact ⟨p, hp⟩
    · exact ⟨p, hp⟩

lemma represents (h : s.Inv) : s.Represents where
  timers := by
    intro t p hmem
    obtain ⟨hp, tm, htm, hwhen⟩ := (h.good.timers_iff t p).mp hmem
    exact ⟨tm, htm, hwhen, (h.good.active_iff _ _).mpr ⟨hp, tm, htm, rfl⟩⟩
  active := by
    intro p k hmem
    obtain ⟨hp, tm, htm, hk⟩ := (h.good.active_iff p k).mp hmem
    exact ⟨tm, htm, hk, (h.good.timers_iff _ _).mpr ⟨hp, tm, htm, rfl⟩⟩
  timers_once := by
    intro t t' p ht ht'
    obtain ⟨-, tm, htm, rfl⟩ := (h.good.timers_iff t p).mp ht
    obtain ⟨-, tm', htm', rfl⟩ := (h.good.timers_iff t' p).mp ht'
    cases htm.symm.trans htm'
    rfl
  active_once := by
    intro k k' p hk hk'
    obtain ⟨-, tm, htm, rfl⟩ := (h.good.active_iff p k).mp hk
    obtain ⟨-, tm', htm', rfl⟩ := (h.good.active_iff p k').mp hk'
    cases htm.symm.trans htm'
    rfl
  size_eq := h.good.size_eq
  fate := by
    intro k hk
    rw [h.good.created_iff] at hk
    have hdead (hlive : ∃ p tm, s.queue.heap p = some tm ∧ tm.sequence = k) :
        k ∉ s.queue.deleted := by
      obtain ⟨p, tm, htm, rfl⟩ := hlive
      exact h.good.live_notMem p tm htm
    rcases hk with hlive | hdel
    · have hzero := List.count_eq_zero.mpr (hdead hlive)
      rcases h.live_iff.mp hlive with hq | hb
      · exact Or.inl ⟨hq, h.not_inBatch hq, hzero⟩
      · exact Or.inr (Or.inl ⟨fun hq => h.not_inBatch hq hb, hb, hzero⟩)
    · have hone := List.count_eq_one_of_mem h.good.deleted_nodup hdel
      refine Or.inr (Or.inr ⟨fun hq => ?_, fun hb => ?_, hone⟩)
      · exact hdead (h.live_iff.mpr (Or.inl hq)) hdel
      · exact hdead (h.live_iff.mpr (Or.inr hb)) hdel

end Inv

/-- **The timer queue.**  No run of the loop thread fails, by an assertion or through a pointer
to a deleted timer, and in every state the two sets represent the queue. -/
theorem timer_queue_represents (n : ℕ) (is : List TimerInput) :
    ∃ s, machine.run (start n) is = .ok s ∧ s.Represents := by
  obtain ⟨s, hrun, hinv⟩ := machine.run_total (fun _ i h => step_inv h i) (start_inv n) is
  exact ⟨s, hrun, hinv.represents⟩

end TimerLoop

end Firey
