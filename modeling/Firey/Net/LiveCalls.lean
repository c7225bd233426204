import Mathlib.Data.List.Count
import Firey.Net.Owners

/-!
# Deferred calls and the life of their connection

`Works` is what the loops do between two releases: a pointer is copied, or moved from one owner
to the next, so a connection that had an owner has one afterwards, and no functor that knows a
connection by its address alone comes to wait.  Such functors come from the pushes of the
callers, who hold copies; from there on everything depends on the four steps that let go.
-/

set_option autoImplicit false

namespace Firey

namespace Ownership

/-- A step that gives up pointers to a connection does not give up all of them while a functor
waits that refers to it by address alone. -/
def OwnersStay (s : Ownership) (i : OwnerInput) : Prop :=
  ∀ id ∈ s.waiting, 0 < s.released i id → s.released i id < (s.owners id).length

instance (s : Ownership) (i : OwnerInput) : Decidable (s.OwnersStay i) :=
  inferInstanceAs (Decidable
    (∀ id ∈ s.waiting, 0 < s.released i id → s.released i id < (s.owners id).length))

/-- Each call that was run found its connection alive. -/
def Live : RunSpec Ownership Fault where
  good s := ∀ r ∈ s.ran, r.alive = true
  move _ _ := True
  stop _ := True

/-! ## Owners -/

lemma owned_iff {s : Ownership} {id : ConnId} :
    s.owners id ≠ [] ↔ id ∈ s.connections ∨ (∃ t, (t, id) ∈ s.copies) ∨
      some id ∈ s.functors.map (·.functor.holds) ∨ ∃ l, (l, id) ∈ s.guards := by
  have hnone : s.owners id = [] ↔ (∀ c ∈ s.connections, c ≠ id) ∧ (∀ c ∈ s.copies, c.2 ≠ id) ∧
      (∀ q ∈ s.functors, q.functor.holds ≠ some id) ∧ ∀ g ∈ s.guards, g.2 ≠ id := by
    simp [owners]
  rw [Ne, hnone]
  constructor
  · intro h
    by_contra hno
    simp only [not_or, not_exists, List.mem_map, not_and] at hno
    obtain ⟨hmap, hcopies, hfunctors, hguards⟩ := hno
    refine h ⟨fun c hc hid => hmap (hid ▸ hc), fun c hc hid => hcopies c.1 (hid ▸ hc),
      hfunctors, fun g hg hid => hguards g.1 (hid ▸ hg)⟩
  · rintro (h | ⟨t, h⟩ | h | ⟨l, h⟩) ⟨hmap, hcopies, hfunctors, hguards⟩
    · exact hmap id h rfl
    · exact hcopies _ h rfl
    · obtain ⟨q, hq, hid⟩ := List.mem_map.mp h
      exact hfunctors q hq hid
    · exact hguards _ h rfl

lemma mem_waiting {s : Ownership} {id : ConnId} :
    id ∈ s.waiting ↔ ∃ q ∈ s.functors, q.stage ≠ .ran ∧ q.functor.refersTo = some id := by
  simp [waiting, and_assoc]

variable {s t u : Ownership}

/-- What the loops do while they hold on to their pointers. -/
structure Works (s t : Ownership) : Prop where
  passes : ∀ id, s.owners id ≠ [] → t.owners id ≠ []
  waiting : ∀ id ∈ t.waiting, id ∈ s.waiting
  copies : ∀ c ∈ s.copies, c ∈ t.copies
  callers : t.callers = s.callers
  ran : t.ran = s.ran

namespace Works

lemma refl (s : Ownership) : s.Works s :=
  ⟨fun _ h => h, fun _ h => h, fun _ h => h, rfl, rfl⟩

lemma trans (h : s.Works t) (h' : t.Works u) : s.Works u where
  passes id hid := h'.passes id (h.passes id hid)
  waiting id hid := h.waiting id (h'.waiting id hid)
  copies c hc := h'.copies c (h.copies c hc)
  callers := h'.callers.trans h.callers
  ran := h'.ran.trans h.ran

/-- More pointers, and the same functors but for their stage. -/
lemma of_subset (hmap : s.connections ⊆ t.connections) (hcopies : s.copies ⊆ t.copies)
    (hfunctors : t.functors = s.functors) (hguards : s.guards ⊆ t.guards)
    (hcallers : t.callers = s.callers) (hran : t.ran = s.ran) : s.Works t where
  passes id hid := by
    rw [owned_iff] at hid ⊢
    rw [hfunctors]
    exact hid.imp (fun h => hmap h) (Or.imp (fun ⟨n, h⟩ => ⟨n, hcopies h⟩)
      (Or.imp_right fun ⟨l, h⟩ => ⟨l, hguards h⟩))
  waiting id hid := by
    rw [mem_waiting] at hid ⊢
    rwa [hfunctors] at hid
  copies c hc := hcopies hc
  callers := hcallers
  ran := hran

lemma setState (s : Ownership) (id : ConnId) (state : ConnState) : s.Works (s.setState id state) :=
  of_subset (List.Subset.refl _) (List.Subset.refl _) rfl (List.Subset.refl _) rfl rfl

/-- A functor that holds its connection is queued, and a map entry of that connection may go. -/
lemma queue {l : LoopId} {f : Deferred} {ids : List ConnId} (hf : f.refersTo = none)
    (hids : ∀ id ∈ s.connections, id ∈ ids ∨ f.holds = some id) :
    s.Works ({ s with connections := ids }.queueInLoop l f) where
  passes id hid := by
    rw [owned_iff] at hid ⊢
    unfold queueInLoop
    dsimp only
    rw [List.map_append, List.mem_append]
    rcases hid with hid | hid | hid | hid
    · rcases hids id hid with hid | hid
      · exact Or.inl hid
      · exact Or.inr (Or.inr (Or.inl (Or.inr (by simp [hid]))))
    · exact Or.inr (Or.inl hid)
    · exact Or.inr (Or.inr (Or.inl (Or.inl hid)))
    · exact Or.inr (Or.inr (Or.inr hid))
  waiting id hid := by
    rw [mem_waiting] at hid ⊢
    obtain ⟨q, hq, hstage, href⟩ := hid
    rcases List.mem_append.mp hq with hq | hq
    · exact ⟨q, hq, hstage, href⟩
    · rw [List.mem_singleton.mp hq, hf] at href
      exact nomatch href
  copies _ hc := hc
  callers := rfl
  ran := rfl

lemma queueInLoop {l : LoopId} {f : Deferred} (hf : f.refersTo = none) :
    s.Works (s.queueInLoop l f) :=
  queue hf fun _ hid => Or.inl hid

lemma removeConnectionInLoop {id : ConnId} (h : s.removeConnectionInLoop id = .ok t) :
    s.Works t := by
  unfold Ownership.removeConnectionInLoop at h
  obtain ⟨_, _, h⟩ := bind_eq_ok h
  split at h <;> rw [Except.ok.injEq] at h <;> subst h
  · refine queue rfl fun j hj => ?_
    by_cases hid : j = id
    · exact Or.inr (by rw [hid]; rfl)
    · exact Or.inl (List.mem_filter.mpr ⟨hj, by simpa using hid⟩)
  · exact refl s

lemma closeIfOpen {l : LoopId} {id : ConnId} (h : s.closeIfOpen l id = .ok t) : s.Works t := by
  unfold Ownership.closeIfOpen at h
  split at h
  · unfold handleClose at h
    dsimp only at h
    split_ifs at h
    · exact (setState s id _).trans (removeConnectionInLoop h)
    · rw [Except.ok.injEq] at h
      exact h ▸ (setState s id _).trans (queueInLoop rfl)
  · rw [Except.ok.injEq] at h
    exact h ▸ refl s

lemma connectionDestroy (s : Ownership) (id : ConnId) : s.Works (s.connectionDestroy id) := by
  unfold Ownership.connectionDestroy
  split
  · exact setState s id _
  · exact refl s

lemma newConnection (s : Ownership) (l : LoopId) : s.Works (s.newConnection l) := by
  have hentry : s.Works { s with
      conns := s.conns ++ [{ state := .kConnecting, loop := l }]
      connections := s.connections ++ [s.conns.length] } :=
    of_subset (List.subset_append_left _ _) (List.Subset.refl _) rfl (List.Subset.refl _) rfl rfl
  unfold Ownership.newConnection
  dsimp only
  split
  · exact hentry.trans (setState _ _ _)
  · exact hentry.trans (queueInLoop rfl)

/-- Functors go on to another stage. -/
lemma stages {fs : List Queued} (hsame : fs.map Queued.functor = s.functors.map Queued.functor)
    (hwaiting : ∀ q ∈ fs, q.stage ≠ .ran →
      ∃ p ∈ s.functors, p.stage ≠ .ran ∧ p.functor = q.functor) :
    s.Works { s with functors := fs } where
  passes id hid := by
    have hholds : fs.map (·.functor.holds) = s.functors.map (·.functor.holds) := by
      have hmap := congrArg (List.map Deferred.holds) hsame
      rwa [List.map_map, List.map_map] at hmap
    rw [owned_iff] at hid ⊢
    dsimp only
    rwa [hholds]
  waiting id hid := by
    rw [mem_waiting] at hid ⊢
    obtain ⟨q, hq, hstage, href⟩ := hid
    obtain ⟨p, hp, hstage', hfunctor⟩ := hwaiting q hq hstage
    exact ⟨p, hp, hstage', hfunctor ▸ href⟩
  copies _ hc := hc
  callers := rfl
  ran := rfl

lemma swap (s : Ownership) (l : LoopId) : s.Works { s with
    functors := s.functors.map fun q =>
      if q.loop = l ∧ q.stage = .pending then { q with stage := .inBatch } else q } := by
  apply stages
  · rw [List.map_map]
    refine List.map_congr_left fun q _ => ?_
    dsimp only [Function.comp]
    split <;> rfl
  · intro q hq hstage
    obtain ⟨p, hp, rfl⟩ := List.mem_map.mp hq
    by_cases hpending : p.loop = l ∧ p.stage = .pending
    · rw [if_pos hpending]
      exact ⟨p, hp, by simp [hpending.2], rfl⟩
    · rw [if_neg hpending] at hstage ⊢
      exact ⟨p, hp, hstage, rfl⟩

lemma map_markRan (l : LoopId) (fs : List Queued) :
    (markRan l fs).map Queued.functor = fs.map Queued.functor := by
  induction fs with
  | nil => rfl
  | cons q qs ih =>
    unfold markRan
    split
    · rfl
    · rw [List.map_cons, List.map_cons, ih]

lemma mem_markRan {l : LoopId} {fs : List Queued} {q : Queued} (h : q ∈ markRan l fs)
    (hstage : q.stage ≠ .ran) : q ∈ fs := by
  induction fs with
  | nil => exact h
  | cons p ps ih =>
    unfold markRan at h
    split at h
    · rcases List.mem_cons.mp h with rfl | h
      · exact absurd rfl hstage
      · exact List.mem_cons_of_mem p h
    · rcases List.mem_cons.mp h with rfl | h
      · exact List.mem_cons_self
      · exact List.mem_cons_of_mem p (ih h)

lemma mark (s : Ownership) (l : LoopId) : s.Works { s with functors := markRan l s.functors } :=
  stages (map_markRan l s.functors) fun q hq hstage => ⟨q, mem_markRan hq hstage, hstage, rfl⟩

end Works

/-! ## Running a functor -/

/-- A functor is run: the loop works, and if it was a call, it is recorded with what was found. -/
lemma perform_works {l : LoopId} {f : Deferred} (h : s.perform l f = .ok t) :
    ∃ rs, { s with ran := s.ran ++ rs }.Works t ∧
      ∀ r ∈ rs, f = .inLoop r.call r.id ∧ r.alive = decide (s.owners r.id ≠ []) := by
  have hnone {u : Ownership} (hu : s.Works u) : ∃ rs, { s with ran := s.ran ++ rs }.Works u ∧
      ∀ r ∈ rs, f = .inLoop r.call r.id ∧ r.alive = decide (s.owners r.id ≠ []) := by
    refine ⟨[], ?_, fun _ hr => nomatch hr⟩
    rwa [List.append_nil]
  unfold perform at h
  split at h
  next c id =>
    unfold runCall at h
    refine ⟨[⟨c, id, decide (s.owners id ≠ [])⟩], ?_, fun r hr => ?_⟩
    · dsimp only at h
      split at h
      · split at h
        · exact Works.closeIfOpen h
        · rw [Except.ok.injEq] at h
          exact h ▸ Works.refl _
      · rw [Except.ok.injEq] at h
        exact h ▸ Works.refl _
    · rw [List.mem_singleton.mp hr]
      exact ⟨rfl, rfl⟩
  next id =>
    obtain ⟨_, _, h⟩ := bind_eq_ok h
    rw [Except.ok.injEq] at h
    exact hnone (h ▸ Works.setState s id _)
  next id =>
    rw [Except.ok.injEq] at h
    exact hnone (h ▸ Works.connectionDestroy s id)
  next id =>
    split at h
    · exact nomatch h
    · exact hnone (Works.removeConnectionInLoop h)
  next id =>
    rw [Except.ok.injEq] at h
    exact hnone (h ▸ Works.refl s)

/-! ## The invariant -/

/-- A call in progress is made by somebody with a copy, and what waits has an owner. -/
structure Inv (s : Ownership) : Prop where
  waiting : ∀ id ∈ s.waiting, s.owners id ≠ []
  calling : ∀ n c id, s.callers n = .tested c id → (n, id) ∈ s.copies
  ran : ∀ r ∈ s.ran, r.alive = true

lemma start_inv : start.Inv :=
  ⟨fun _ h => (nomatch h), fun _ _ _ h => (nomatch h), fun _ h => (nomatch h)⟩

namespace Inv

lemma works (h : s.Inv) (hw : s.Works t) : t.Inv where
  waiting id hid := hw.passes id (h.waiting id (hw.waiting id hid))
  calling n c id hc := hw.copies _ (h.calling n c id (hw.callers ▸ hc))
  ran r hr := h.ran r (hw.ran ▸ hr)

/-- A call finds its connection alive: it holds it, or it has waited. -/
lemma runFunctor (h : s.Inv) {l : LoopId} (hrun : s.runFunctor l = .ok t) : t.Inv := by
  unfold Ownership.runFunctor at hrun
  split at hrun
  · rw [Except.ok.injEq] at hrun
    exact hrun ▸ h
  next q hfind =>
    have hmem := List.mem_of_find?_eq_some hfind
    obtain ⟨-, hstage⟩ : q.loop = l ∧ q.stage = .inBatch := by
      simpa using List.find?_some hfind
    have hmark := Works.mark s l
    obtain ⟨rs, hworks, hrs⟩ := perform_works hrun
    refine (Inv.works ?_ hworks)
    refine ⟨(h.works hmark).waiting, h.calling, fun r hr => ?_⟩
    rcases List.mem_append.mp hr with hr | hr
    · exact h.ran r hr
    · obtain ⟨hf, halive⟩ := hrs r hr
      rw [halive, decide_eq_true_eq]
      apply hmark.passes
      by_cases hclose : r.call = .forceClose
      · rw [owned_iff]
        refine Or.inr (Or.inr (Or.inl (List.mem_map.mpr ⟨q, hmem, ?_⟩)))
        rw [hf, hclose]
        rfl
      · refine h.waiting r.id (mem_waiting.mpr ⟨q, hmem, by simp [hstage], ?_⟩)
        rw [hf]
        rcases hc : r.call <;> first | rfl | exact absurd hc hclose

lemma call (h : s.Inv) {n : ThreadId} {c : UserCall} {id : ConnId} (hcopy : (n, id) ∈ s.copies) :
    (s.call n c id).Inv := by
  have htested : Inv { s with callers := Function.update s.callers n (.tested c id) } := by
    refine ⟨h.waiting, fun m d j hm => ?_, h.ran⟩
    by_cases hmn : m = n
    · dsimp only at hm
      rw [hmn, Function.update_self, CallPhase.tested.injEq] at hm
      rw [hmn, ← hm.2]
      exact hcopy
    · dsimp only at hm
      rw [Function.update_of_ne hmn] at hm
      exact h.calling m d j hm
  unfold Ownership.call
  dsimp only
  split
  · split
    · exact htested
    · exact h
  · split
    · exact htested.works (Works.setState _ _ _)
    · exact h
  · split
    · exact htested.works (Works.setState _ _ _)
    · exact h
  · exact htested
  · exact htested

lemma push (h : s.Inv) (n : ThreadId) : (s.push n).Inv := by
  unfold Ownership.push
  split
  · exact h
  next c id hcaller =>
    split
    next conn hconn =>
      have hpasses (j : ConnId) (hj : s.owners j ≠ []) :
          (({ s with callers := Function.update s.callers n .idle } : Ownership).queueInLoop
            conn.loop (.inLoop c id)).owners j ≠ [] := by
        rw [owned_iff] at hj ⊢
        unfold queueInLoop
        dsimp only
        rw [List.map_append, List.mem_append]
        exact hj.imp_right (Or.imp_right (Or.imp_left Or.inl))
      refine ⟨fun j hj => hpasses j ?_, fun m d j hm => ?_, h.ran⟩
      · rw [mem_waiting] at hj
        obtain ⟨q, hq, hstage, href⟩ := hj
        rcases List.mem_append.mp hq with hq | hq
        · exact h.waiting j (mem_waiting.mpr ⟨q, hq, hstage, href⟩)
        · -- the functor that is pushed refers to the connection of which the caller has a copy
          have hid : j = id := by
            rw [List.mem_singleton.mp hq] at href
            rcases c <;> simp_all [Deferred.refersTo]
          rw [hid, owned_iff]
          exact Or.inr (Or.inl ⟨n, h.calling n c id hcaller⟩)
      · by_cases hmn : m = n
        · unfold queueInLoop at hm
          dsimp only at hm
          rw [hmn, Function.update_self] at hm
          exact nomatch hm
        · unfold queueInLoop at hm
          dsimp only at hm
          rw [Function.update_of_ne hmn] at hm
          exact h.calling m d j hm
    · exact h

/-- A step that lets go, and leaves an owner where a functor waits. -/
lemma release {i : OwnerInput} (h : s.Inv) (hi : s.OwnersStay i)
    (hlast : ∀ id, t.owners id = [] → (s.owners id).length ≤ s.released i id)
    (hwaiting : ∀ id ∈ t.waiting, id ∈ s.waiting)
    (hcalling : ∀ n c id, t.callers n = .tested c id → (n, id) ∈ t.copies) (hran : t.ran = s.ran) :
    t.Inv where
  waiting id hid := by
    intro hnone
    have hreleased := hlast id hnone
    have howned := List.length_pos_of_ne_nil (h.waiting id (hwaiting id hid))
    have hstays := hi id (hwaiting id hid)
    omega
  calling := hcalling
  ran r hr := h.ran r (hran ▸ hr)

end Inv

/-! ## Letting go

Where a step leaves a connection without an owner, it has given up all that it had. -/

lemma length_owners (s : Ownership) (id : ConnId) :
    (s.owners id).length = s.connections.countP (· = id) + s.copies.countP (·.2 = id) +
      s.functors.countP (·.functor.holds = some id) + s.guards.countP (·.2 = id) := by
  unfold owners
  simp only [List.length_append, List.length_map, List.countP_eq_length_filter]

/-- What a filter takes away counts as what meets the opposite. -/
lemma countP_le_filter {α : Type} (p q r : α → Bool) (xs : List α)
    (hr : ∀ x ∈ xs, p x = true → q x = false → r x = true) :
    xs.countP p ≤ (xs.filter q).countP p + xs.countP r := by
  rw [List.countP_eq_countP_filter_add xs p q, Nat.add_le_add_iff_left, List.countP_filter]
  refine List.countP_mono_left fun x hx hpq => ?_
  rw [Bool.and_eq_true, Bool.not_eq_true'] at hpq
  exact hr x hx hpq.1 hpq.2

lemma drop_released {n : ThreadId} {j : ConnId} (hidle : s.callers n = .idle) (id : ConnId)
    (hnone : ({ s with copies := s.copies.erase (n, j) } : Ownership).owners id = []) :
    (s.owners id).length ≤ s.released (.drop n j) id := by
  have hcopies : s.copies.countP (·.2 = id) ≤
      (s.copies.erase (n, j)).countP (·.2 = id) + s.released (.drop n j) id := by
    unfold released
    rw [List.countP_erase]
    simp only [hidle, decide_eq_true_eq, true_and]
    omega
  have hleft := congrArg List.length hnone
  rw [length_owners] at hleft ⊢
  dsimp only [List.length_nil] at hleft
  omega

lemma eventDone_released {l : LoopId} (hl : ¬ s.inDestructor l = true) (id : ConnId)
    (hnone : ({ s with guards := s.guards.filter (·.1 ≠ l) } : Ownership).owners id = []) :
    (s.owners id).length ≤ s.released (.eventDone l) id := by
  have hguards : s.guards.countP (·.2 = id) ≤
      (s.guards.filter (·.1 ≠ l)).countP (·.2 = id) + s.released (.eventDone l) id := by
    unfold released
    dsimp only
    rw [if_neg hl]
    refine countP_le_filter _ _ _ _ fun g _ hid hgone => ?_
    rw [beq_iff_eq]
    exact Prod.ext (by simpa using hgone) (by simpa using hid)
  have hleft := congrArg List.length hnone
  rw [length_owners] at hleft ⊢
  dsimp only [List.length_nil] at hleft
  omega

lemma endBatch_released {l : LoopId}
    (hl : ¬ (s.inDestructor l || s.functors.any fun q => q.loop = l ∧ q.stage = .inBatch) = true)
    (id : ConnId)
    (hnone : ({ s with functors := s.functors.filter fun q => ¬ (q.loop = l ∧ q.stage = .ran) } :
      Ownership).owners id = []) :
    (s.owners id).length ≤ s.released (.endBatch l) id := by
  have hfunctors : s.functors.countP (·.functor.holds = some id) ≤
      (s.functors.filter fun q => ¬ (q.loop = l ∧ q.stage = .ran)).countP
        (·.functor.holds = some id) + s.released (.endBatch l) id := by
    unfold released
    dsimp only
    rw [if_neg hl]
    refine countP_le_filter _ _ _ _ fun q _ hid hgone => ?_
    rw [decide_eq_true_eq] at hid ⊢
    exact ⟨hid, by simpa using hgone⟩
  have hleft := congrArg List.length hnone
  rw [length_owners] at hleft ⊢
  dsimp only [List.length_nil] at hleft
  omega

/-- What the destructor does with an entry is work, but for the entry itself. -/
lemma destructNext_works (s : Ownership) (id : ConnId) :
    ({ s with connections := s.connections.filter (· ≠ id) } : Ownership).Works
      (s.destructNext id) := by
  unfold destructNext
  dsimp only
  split
  · exact Works.refl _
  · split
    · exact Works.connectionDestroy _ id
    · exact Works.queueInLoop rfl

/-- In another loop the pointer of the map goes with `connectionDestroy`. -/
lemma destructNext_released {j : ConnId} (hserver : s.server = .destructing) (id : ConnId)
    (hnone : (s.destructNext j).owners id = []) :
    (s.owners id).length ≤ s.released (.destructNext j) id := by
  have hrest :
      ({ s with connections := s.connections.filter (· ≠ j) } : Ownership).owners id = [] :=
    by_contra fun howned => (destructNext_works s j).passes id howned hnone
  have hleft := congrArg List.length hrest
  rw [length_owners] at hleft
  dsimp only [List.length_nil] at hleft
  have hconnections : s.connections.countP (· = id) ≤ s.released (.destructNext j) id := by
    unfold released
    dsimp only
    split_ifs with hgone
    · rw [List.count_eq_countP]
      exact List.countP_mono_left fun x _ hx => by simpa using hx
    · rw [Nat.le_zero, List.countP_eq_zero]
      intro x hx
      rw [decide_eq_true_eq]
      rintro rfl
      by_cases hid : j = x
      · -- then the connection is of another loop
        rw [hid] at hnone hgone
        unfold destructNext at hnone
        split at hnone
        next hconn => simp [hserver, hconn] at hgone
        next c hconn =>
          have hloop : c.loop ≠ serverLoop := by simpa [hserver, hconn] using hgone
          rw [if_neg hloop] at hnone
          refine owned_iff.mpr (Or.inr (Or.inr (Or.inl ?_))) hnone
          simp [queueInLoop, Deferred.holds]
      · have hkept : x ∈ s.connections.filter (· ≠ j) :=
          List.mem_filter.mpr ⟨hx, by simpa using Ne.symm hid⟩
        exact owned_iff.mpr (Or.inl hkept) hrest
  rw [length_owners]
  omega

lemma mem_waiting_of_filter {p : Queued → Bool} {id : ConnId}
    (h : id ∈ ({ s with functors := s.functors.filter p } : Ownership).waiting) :
    id ∈ s.waiting := by
  rw [mem_waiting] at h ⊢
  obtain ⟨q, hq, hq'⟩ := h
  exact ⟨q, List.mem_of_mem_filter hq, hq'⟩

lemma step_inv (h : s.Inv) {i : OwnerInput} (hi : s.OwnersStay i) (hstep : s.step i = .ok t) :
    t.Inv := by
  unfold step at hstep
  split at hstep
  · split at hstep <;> rw [Except.ok.injEq] at hstep <;> subst hstep
    · exact h.works (Works.newConnection s _)
    · exact h
  · split at hstep <;> rw [Except.ok.injEq] at hstep <;> subst hstep
    · exact h.works (Works.of_subset (List.Subset.refl _) (List.subset_append_left _ _) rfl
        (List.Subset.refl _) rfl rfl)
    · exact h
  next n id =>
    split at hstep <;> rw [Except.ok.injEq] at hstep <;> subst hstep
    next hidle =>
      refine h.release hi (drop_released hidle) (fun _ hid => hid) (fun m c j hm => ?_) rfl
      -- the thread that lets go is in no call
      have hne : (m, j) ≠ (n, id) := by
        intro heq
        have hmn := (Prod.mk.inj heq).1
        rw [hmn] at hm
        rw [hidle] at hm
        exact nomatch hm
      exact (List.mem_erase_of_ne hne).mpr (h.calling m c j hm)
    · exact h
  · split at hstep <;> rw [Except.ok.injEq] at hstep <;> subst hstep
    next hcopy => exact h.call hcopy.1
    · exact h
  · rw [Except.ok.injEq] at hstep
    exact hstep ▸ h.push _
  · split at hstep <;> rw [Except.ok.injEq] at hstep <;> subst hstep
    · exact h.works (Works.of_subset (List.Subset.refl _) (List.Subset.refl _) rfl
        (List.subset_append_left _ _) rfl rfl)
    · exact h
  · split at hstep <;> rw [Except.ok.injEq] at hstep <;> subst hstep
    · exact h
    next hl => exact h.release hi (eventDone_released hl) (fun _ hid => hid) h.calling rfl
  · split at hstep
    · exact h.works (Works.closeIfOpen hstep)
    · rw [Except.ok.injEq] at hstep
      exact hstep ▸ h
  · split at hstep <;> rw [Except.ok.injEq] at hstep <;> subst hstep
    · exact h.works (Works.setState s _ _)
    · exact h
  · split at hstep <;> rw [Except.ok.injEq] at hstep <;> subst hstep
    · exact h.works (Works.queueInLoop rfl)
    · exact h
  · split at hstep <;> rw [Except.ok.injEq] at hstep <;> subst hstep
    · exact h
    · exact h.works (Works.swap s _)
  · split at hstep
    · rw [Except.ok.injEq] at hstep
      exact hstep ▸ h
    · exact h.runFunctor hstep
  · split at hstep <;> rw [Except.ok.injEq] at hstep <;> subst hstep
    · exact h
    next hl =>
      exact h.release hi (endBatch_released hl) (fun _ hid => mem_waiting_of_filter hid)
        h.calling rfl
  · split at hstep <;> rw [Except.ok.injEq] at hstep <;> subst hstep
    · exact h.works (Works.of_subset (List.Subset.refl _) (List.Subset.refl _) rfl
        (List.Subset.refl _) rfl rfl)
    · exact h
  next id =>
    split at hstep <;> rw [Except.ok.injEq] at hstep <;> subst hstep
    next hserver =>
      have hworks := destructNext_works s id
      refine h.release hi (destructNext_released hserver.1) hworks.waiting (fun m c j hm => ?_)
        hworks.ran
      rw [hworks.callers] at hm
      exact hworks.copies _ (h.calling m c j hm)
    · exact h
  · split at hstep <;> rw [Except.ok.injEq] at hstep <;> subst hstep
    · exact h.works (Works.of_subset (List.Subset.refl _) (List.Subset.refl _) rfl
        (List.Subset.refl _) rfl rfl)
    · exact h

/-! ## Every run -/

/-- **Deferred calls run on a live connection** in every run in which nobody lets go of the last
pointer to a connection while a functor waits that has its address alone. -/
theorem calls_live {is : List OwnerInput} (hstay : machine.Along OwnersStay start is) :
    machine.Meets Live start is := by
  refine machine.meets_of_along (I := Inv) (fun s h => h.ran) ?_ ?_ start_inv hstay
  · exact fun s i t h hi hstep => ⟨step_inv h hi hstep, trivial⟩
  · exact fun s i e _ _ _ => trivial

/-- The user keeps the copy until its `send` has run, after the peer has closed. -/
theorem calls_live_kept : machine.Meets Live start
    [.newConnection 1, .swap 1, .runFunctor 1, .endBatch 1, .copy 7 0, .call 7 .send 0,
      .handleEvent 1 0, .handleClose 1 0, .eventDone 1, .swap 0, .runFunctor 0, .endBatch 0,
      .swap 1, .push 7, .runFunctor 1, .endBatch 1, .swap 1, .runFunctor 1, .endBatch 1,
      .drop 7 0] :=
  calls_live (by decide +kernel)

/-- The user has tested the state when the peer closes, and pushes `sendInLoop` while the batch
with `connectionDestroy` runs; then it lets go, the batch ends, and the functor runs in the next
one.  `startRead` does not even test the state. -/
theorem calls_live_fails :
    (∃ s, machine.run start
        [.newConnection 1, .swap 1, .runFunctor 1, .endBatch 1, .copy 7 0, .call 7 .send 0,
          .handleEvent 1 0, .handleClose 1 0, .eventDone 1, .swap 0, .runFunctor 0, .endBatch 0,
          .swap 1, .push 7, .drop 7 0, .runFunctor 1, .endBatch 1, .swap 1, .runFunctor 1] = .ok s ∧
        s.owners 0 = [] ∧ s.ran = [⟨.send, 0, false⟩]) ∧
      ∃ s, machine.run start
        [.newConnection 0, .copy 7 0, .handleEvent 0 0, .handleClose 0 0, .eventDone 0, .swap 0,
          .runFunctor 0, .endBatch 0, .call 7 .startRead 0, .push 7, .drop 7 0, .swap 0,
          .runFunctor 0] = .ok s ∧ s.owners 0 = [] ∧ s.ran = [⟨.startRead, 0, false⟩] := by
  decide +kernel

end Ownership

end Firey
