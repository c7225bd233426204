import Firey.Net.Calls
import Firey.Net.EventLoop

/-!
# The life cycle of the connections of a loop

What a connection owes its user is said by `IsLife`: it calls back UP, then messages, then
DOWN.  `EventLoop.Inv` is what keeps the promise.  It ties the callbacks of each connection to
its state, and what `handleClose` has begun to what the server still has to do about it: the
number of closings is the number of erasures, plus the `closeCallback` items on the stack.

The invariant does not look at the events of a batch, and it must: an event read from the
kernel before a callback closed the connection is handled all the same after it.  A read that
fails is then harmless, one that delivers octets calls back after DOWN, and one that delivers
none runs into the assertion of `handleClose`.  `life_cycle_iff` says that this is the only
way the promise is broken.
-/

set_option autoImplicit false

namespace Firey

/-- UP, then messages, then DOWN, as far as it has come. -/
def IsLife (tr : List Callback) : Prop :=
  ∃ n, tr <+: .up :: (List.replicate n .message ++ [.down])

/-- DOWN comes last. -/
lemma not_message_after_down (n m : ℕ) :
    ¬ List.replicate n Callback.message ++ [.down, .message] <+:
      List.replicate m .message ++ [.down] := by
  induction n generalizing m with
  | zero =>
    cases m with
    | zero => simp
    | succ m => simp [List.replicate_succ]
  | succ n ih =>
    cases m with
    | zero => simp [List.replicate_succ]
    | succ m =>
      simp only [List.replicate_succ, List.cons_append, List.cons_prefix_cons, true_and]
      exact ih m

/-- The callbacks and the number of closings of a connection in this state. -/
inductive Lived (c : TcpConnection) : List Callback → ℕ → Prop
  | running (n : ℕ) (ho : c.isOpen = true) : Lived c (.up :: List.replicate n .message) 0
  | closed (n : ℕ) (hs : c.state = .kDisconnected) :
      Lived c (.up :: (List.replicate n .message ++ [.down])) 1

namespace Lived

variable {c : TcpConnection} {tr : List Callback} {k : ℕ}

lemma isLife (h : Lived c tr k) : IsLife tr := by
  cases h with
  | running n _ => exact ⟨n, List.cons_prefix_cons.mpr ⟨rfl, List.prefix_append _ _⟩⟩
  | closed n _ => exact ⟨n, List.prefix_refl _⟩

lemma closes_le (h : Lived c tr k) : k ≤ 1 := by
  cases h <;> decide

lemma closes_of_closed (h : Lived c tr k) (hs : c.state = .kDisconnected) : k = 1 := by
  cases h with
  | running n ho => exact absurd hs (TcpConnection.ne_closed_of_isOpen ho)
  | closed n _ => rfl

lemma not_connecting (h : Lived c tr k) : c.state ≠ .kConnecting := by
  intro hs
  cases h with
  | running n ho =>
    rw [TcpConnection.isOpen_iff, hs] at ho
    simp at ho
  | closed n hs' =>
    rw [hs] at hs'
    cases hs'

/-- A message after DOWN is not a life. -/
lemma not_isLife_message (h : Lived c tr k) (hs : c.state = .kDisconnected) :
    ¬ IsLife (tr ++ [.message]) := by
  rintro ⟨m, hm⟩
  cases h with
  | running n ho => exact absurd hs (TcpConnection.ne_closed_of_isOpen ho)
  | closed n _ =>
    simp only [List.cons_append, List.append_assoc, List.cons_prefix_cons, true_and] at hm
    exact not_message_after_down n m hm

end Lived

namespace EventLoop

open TcpConnection

/-! ## What the effects of a step come to -/

lemma callbacksOf_of_noCalls {es : List Effect} (h : NoCalls es) : callbacksOf es = [] := by
  rw [callbacksOf, List.filterMap_eq_nil_iff]
  intro e he
  have hcall := h e he
  cases e <;> first | rfl | cases hcall

lemma count_closeCallback_of_noCalls {es : List Effect} (h : NoCalls es) :
    es.count .closeCallback = 0 := by
  rw [List.count_eq_zero]
  exact fun hmem => absurd (h _ hmem) (by decide)

/-- Each `closeCallback` of the connection is left to do once. -/
lemma count_workOf (id j : ConnId) (es : List Effect) :
    (workOf id es).count (.closeCallback j) = if j = id then es.count .closeCallback else 0 := by
  induction es with
  | nil => simp [workOf]
  | cons e es ih =>
    unfold workOf at ih ⊢
    by_cases hj : j = id
    · subst hj
      rw [if_pos rfl] at ih ⊢
      cases e <;> simp [ih]
    · rw [if_neg hj] at ih ⊢
      cases e <;> simp [ih, Ne.symm hj]

lemma destroy_notMem_workOf (id j : ConnId) (es : List Effect) :
    .task (.connectionDestroy j) ∉ workOf id es := by
  rw [workOf, List.mem_filterMap]
  rintro ⟨e, -, he⟩
  cases e <;> cases he

lemma destroy_notMem_tasksOf (id j : ConnId) (es : List Effect) :
    .connectionDestroy j ∉ tasksOf id es := by
  rw [tasksOf, List.mem_filterMap]
  rintro ⟨e, -, he⟩
  cases e <;> cases he

/-- The step is one the loop may ask for: it destroys only what is closed, and reads only from
what is not. -/
structure Permitted (c : TcpConnection) (i : Input) : Prop where
  destroy : i = .connectionDestroy → c.state = .kDisconnected
  read : ∀ data, i = .handleRead (.got data) → c.state ≠ .kDisconnected

lemma permitted_toInput (c : TcpConnection) (inLoop : Bool) (a : Action) :
    Permitted c (a.toInput inLoop) := by
  cases a <;> exact ⟨nofun, nofun⟩

/-- A permitted step leads on along the life of the connection. -/
lemma lived_step {c c' : TcpConnection} {i : Input} {es : List Effect} {tr : List Callback}
    {k : ℕ} (h : Lived c tr k) (hsum : Summary c i c' es) (hi : Permitted c i) :
    Lived c' (tr ++ callbacksOf es) (k + es.count .closeCallback) := by
  cases hsum.life with
  | stays hs hes =>
    rw [callbacksOf_of_noCalls hes, count_closeCallback_of_noCalls hes, List.append_nil]
    cases h with
    | running n ho =>
      refine .running n ?_
      rcases hs with hs | ⟨-, hs⟩
      · rwa [isOpen, hs]
      · exact isOpen_iff.mpr (Or.inr hs)
    | closed n hcl =>
      refine .closed n ?_
      rcases hs with hs | ⟨ho, -⟩
      · rw [hs, hcl]
      · exact absurd hcl (ne_closed_of_isOpen ho)
  | opens hs _ _ => exact absurd hs h.not_connecting
  | message x xs hread hs hes =>
    subst hes
    cases h with
    | running n ho =>
      have hmsgs : (.up :: List.replicate n Callback.message) ++ [.message] =
          .up :: List.replicate (n + 1) .message := by
        rw [List.replicate_succ', List.cons_append]
      change Lived c' ((.up :: List.replicate n Callback.message) ++ [.message]) 0
      rw [hmsgs]
      exact .running (n + 1) (by rwa [isOpen, hs])
    | closed n hcl => exact absurd hcl (hi.read _ hread)
  | closes ho hs' hes =>
    subst hes
    cases h with
    | running n _ => exact .closed n hs'
    | closed n hcl => exact absurd hcl (ne_closed_of_isOpen ho)
  | destroys hdes hs _ _ =>
    have hcl := hi.destroy hdes
    rw [hs] at hcl
    cases hcl

/-- A closed connection stays closed, whatever is done to it. -/
lemma closed_step {c c' : TcpConnection} {i : Input} {es : List Effect}
    (hsum : Summary c i c' es) (hs : c.state = .kDisconnected) : c'.state = .kDisconnected := by
  cases hsum.life with
  | stays hs' _ =>
    rcases hs' with hs' | ⟨ho, -⟩
    · rw [hs', hs]
    · exact absurd hs (ne_closed_of_isOpen ho)
  | opens hc _ _ => rw [hs] at hc; cases hc
  | message _ _ _ hs' _ => rw [hs', hs]
  | closes _ hs' _ => exact hs'
  | destroys _ _ hs' _ => exact hs'

/-! ## The invariant of the loop -/

def IsClosed (s : EventLoop) (id : ConnId) : Prop :=
  ∃ p, s.peers[id]? = some p ∧ p.conn.state = .kDisconnected

/-- `connectionDestroy` of the connection has been queued and has not run. -/
def DestroyDue (s : EventLoop) (id : ConnId) : Prop :=
  .connectionDestroy id ∈ s.pendingFunctors ∨ .task (.connectionDestroy id) ∈ s.stack

/-- The invariant of the loop. -/
structure Inv (s : EventLoop) : Prop where
  peer : ∀ (id : ConnId) (p : Peer), s.peers[id]? = some p →
    p.conn.Inv ∧ Lived p.conn p.trace p.closes
  erase : ∀ (id : ConnId) (p : Peer), s.peers[id]? = some p →
    p.closes = p.erased + s.stack.count (.closeCallback id) ∧
      (id ∈ s.connections ↔ p.erased = 0)
  known : ∀ id, .closeCallback id ∈ s.stack ∨ id ∈ s.connections → id < s.peers.length
  destroy : ∀ id, s.DestroyDue id → s.IsClosed id

lemma start_inv (wc : Bool) : (start wc).Inv where
  peer := by simp [start]
  erase := by simp [start]
  known := by simp [start]
  destroy := by simp [start, DestroyDue]

/-- Closed connections stay closed. -/
def KeepsClosed (s t : EventLoop) : Prop := ∀ id, s.IsClosed id → t.IsClosed id

/-- A change of what is left to do, with no more and no fewer `closeCallback` items, and no
new `connectionDestroy`. -/
lemma Inv.reschedule {s t : EventLoop} (h : s.Inv) (hpeers : t.peers = s.peers)
    (hconns : t.connections = s.connections)
    (hclose : ∀ id, t.stack.count (.closeCallback id) = s.stack.count (.closeCallback id))
    (hdestroy : ∀ id, t.DestroyDue id → s.DestroyDue id) : t.Inv ∧ s.KeepsClosed t := by
  refine ⟨⟨?_, ?_, ?_, ?_⟩, ?_⟩
  · rw [hpeers]
    exact h.peer
  · intro id p hp
    rw [hclose, hconns]
    exact h.erase id p (hpeers ▸ hp)
  · intro id hid
    rw [hconns, ← List.count_pos_iff, hclose, List.count_pos_iff] at hid
    rw [hpeers]
    exact h.known id hid
  · intro id hid
    rw [IsClosed, hpeers]
    exact h.destroy id (hdestroy id hid)
  · intro id hid
    rw [IsClosed, hpeers]
    exact hid

/-- A change of one connection, of its own `closeCallback` items and its own entry in the
server's map. -/
lemma Inv.update {s t : EventLoop} {id : ConnId} {p q : Peer} (h : s.Inv)
    (hp : s.peers[id]? = some p) (hpeers : t.peers = s.peers.set id q) (hconn : q.conn.Inv)
    (hlived : Lived q.conn q.trace q.closes)
    (hcl : p.conn.state = .kDisconnected → q.conn.state = .kDisconnected)
    (hcount : q.closes = q.erased + t.stack.count (.closeCallback id))
    (hmem : id ∈ t.connections ↔ q.erased = 0)
    (hframe : ∀ j, j ≠ id →
      t.stack.count (.closeCallback j) = s.stack.count (.closeCallback j) ∧
        (j ∈ t.connections ↔ j ∈ s.connections))
    (hdestroy : ∀ j, t.DestroyDue j →
      s.DestroyDue j ∨ j = id ∧ q.conn.state = .kDisconnected) :
    t.Inv ∧ s.KeepsClosed t := by
  have hlt : id < s.peers.length := (List.getElem?_eq_some_iff.mp hp).1
  have hself : t.peers[id]? = some q := by rw [hpeers, List.getElem?_set_self hlt]
  have hother (j : ConnId) (hj : j ≠ id) : t.peers[j]? = s.peers[j]? := by
    rw [hpeers, List.getElem?_set_ne (Ne.symm hj)]
  have hkeeps : s.KeepsClosed t := by
    rintro j ⟨r, hr, hs⟩
    by_cases hj : j = id
    · subst hj
      cases hp.symm.trans hr
      exact ⟨q, hself, hcl hs⟩
    · exact ⟨r, (hother j hj).trans hr, hs⟩
  refine ⟨⟨?_, ?_, ?_, ?_⟩, hkeeps⟩
  · intro j r hr
    by_cases hj : j = id
    · subst hj
      cases hself.symm.trans hr
      exact ⟨hconn, hlived⟩
    · exact h.peer j r ((hother j hj).symm.trans hr)
  · intro j r hr
    by_cases hj : j = id
    · subst hj
      cases hself.symm.trans hr
      exact ⟨hcount, hmem⟩
    · obtain ⟨hclose, hconns⟩ := hframe j hj
      rw [hclose, hconns]
      exact h.erase j r ((hother j hj).symm.trans hr)
  · intro j hin
    rw [hpeers, List.length_set]
    by_cases hj : j = id
    · exact hj ▸ hlt
    · obtain ⟨hclose, hconns⟩ := hframe j hj
      rw [hconns, ← List.count_pos_iff, hclose, List.count_pos_iff] at hin
      exact h.known j hin
  · intro j hdue
    rcases hdestroy j hdue with hold | ⟨rfl, hs⟩
    · exact hkeeps j (h.destroy j hold)
    · exact ⟨q, hself, hs⟩

/-! ## Calling a connection -/

lemma exec_of_some {s : EventLoop} {id : ConnId} {i : Input} {p : Peer} {c : TcpConnection}
    {es : List Effect} (hp : s.peers[id]? = some p) (hstep : p.conn.step i = .ok (c, es)) :
    s.exec id i = .ok { s with
      peers := s.peers.set id (p.after c es)
      pendingFunctors := s.pendingFunctors ++ tasksOf id es
      stack := workOf id es ++ s.stack } := by
  rw [exec, hp]
  simp only [hstep, ok_bind]

lemma exec_eq_ok {s t : EventLoop} {id : ConnId} {i : Input} (h : s.exec id i = .ok t) :
    s.peers[id]? = none ∧ t = s ∨
      ∃ p c es, s.peers[id]? = some p ∧ p.conn.step i = .ok (c, es) ∧
        t = { s with
          peers := s.peers.set id (p.after c es)
          pendingFunctors := s.pendingFunctors ++ tasksOf id es
          stack := workOf id es ++ s.stack } := by
  rw [exec] at h
  cases hp : s.peers[id]? with
  | none =>
    rw [hp] at h
    cases h
    exact Or.inl ⟨rfl, rfl⟩
  | some p =>
    rw [hp] at h
    obtain ⟨⟨c, es⟩, hstep, h⟩ := bind_eq_ok h
    cases h
    exact Or.inr ⟨p, c, es, rfl, hstep, rfl⟩

/-- A call queues no `connectionDestroy`: only the server does. -/
lemma destroyDue_of_exec {s : EventLoop} {id j : ConnId} {es : List Effect} {ps : List Peer}
    (h : DestroyDue { s with
      peers := ps
      pendingFunctors := s.pendingFunctors ++ tasksOf id es
      stack := workOf id es ++ s.stack } j) : s.DestroyDue j := by
  rcases h with hmem | hmem
  · rcases List.mem_append.mp hmem with hold | hnew
    · exact Or.inl hold
    · exact absurd hnew (destroy_notMem_tasksOf id j es)
  · rcases List.mem_append.mp hmem with hnew | hold
    · exact absurd hnew (destroy_notMem_workOf id j es)
    · exact Or.inr hold

/-- **Calling a connection.**  A permitted call keeps the invariant. -/
lemma exec_inv {s t : EventLoop} (h : s.Inv) {id : ConnId} {i : Input}
    (hi : ∀ p, s.peers[id]? = some p → Permitted p.conn i) (hexec : s.exec id i = .ok t) :
    t.Inv ∧ s.KeepsClosed t := by
  rcases exec_eq_ok hexec with ⟨-, rfl⟩ | ⟨p, c, es, hp, hstep, rfl⟩
  · exact ⟨h, fun _ hid => hid⟩
  · obtain ⟨hconn, hlived⟩ := h.peer id p hp
    obtain ⟨hcount, hmem⟩ := h.erase id p hp
    have hsum := step_summary hconn hstep
    refine h.update hp rfl hsum.inv (lived_step hlived hsum (hi p hp)) (closed_step hsum) ?_ hmem
      ?_ (fun j hj => Or.inl (destroyDue_of_exec hj))
    · rw [List.count_append, count_workOf, if_pos rfl]
      change p.closes + _ = p.erased + _
      omega
    · intro j hj
      rw [List.count_append, count_workOf, if_neg hj, Nat.zero_add]
      exact ⟨rfl, Iff.rfl⟩

/-! ## The server -/

/-- A new connection, which has called back UP. -/
lemma Inv.add {s t : EventLoop} {q : Peer} (h : s.Inv) (hpeers : t.peers = s.peers ++ [q])
    (hconns : t.connections = s.peers.length :: s.connections)
    (hclose : ∀ id, t.stack.count (.closeCallback id) = s.stack.count (.closeCallback id))
    (hdestroy : ∀ id, t.DestroyDue id → s.DestroyDue id) (hconn : q.conn.Inv)
    (ho : q.conn.isOpen = true) (htrace : q.trace = [.up]) (hcloses : q.closes = 0)
    (herased : q.erased = 0) : t.Inv ∧ s.KeepsClosed t := by
  have hcases (id : ConnId) (p : Peer) (hp : t.peers[id]? = some p) :
      id < s.peers.length ∧ s.peers[id]? = some p ∨ id = s.peers.length ∧ p = q := by
    rw [hpeers] at hp
    rcases Nat.lt_or_ge id s.peers.length with hlt | hge
    · rw [List.getElem?_append_left hlt] at hp
      exact Or.inl ⟨hlt, hp⟩
    · rw [List.getElem?_append_right hge, List.getElem?_singleton] at hp
      split_ifs at hp with hzero
      exact Or.inr ⟨Nat.le_antisymm (Nat.sub_eq_zero_iff_le.mp hzero) hge,
        (Option.some.inj hp).symm⟩
  have hkeeps : s.KeepsClosed t := by
    rintro id ⟨p, hp, hs⟩
    have hlt : id < s.peers.length := (List.getElem?_eq_some_iff.mp hp).1
    refine ⟨p, ?_, hs⟩
    rw [hpeers, List.getElem?_append_left hlt, hp]
  refine ⟨⟨?_, ?_, ?_, fun id hid => hkeeps id (h.destroy id (hdestroy id hid))⟩, hkeeps⟩
  · intro id p hp
    rcases hcases id p hp with ⟨-, hold⟩ | ⟨-, rfl⟩
    · exact h.peer id p hold
    · refine ⟨hconn, ?_⟩
      rw [htrace, hcloses]
      exact .running 0 ho
  · intro id p hp
    rw [hclose, hconns, List.mem_cons]
    rcases hcases id p hp with ⟨hlt, hold⟩ | ⟨rfl, rfl⟩
    · obtain ⟨hcount, hmem⟩ := h.erase id p hold
      refine ⟨hcount, ?_⟩
      rw [← hmem]
      exact or_iff_right (Nat.ne_of_lt hlt)
    · have hnone : s.stack.count (.closeCallback s.peers.length) = 0 := by
        rw [List.count_eq_zero]
        exact fun hin => Nat.lt_irrefl _ (h.known _ (Or.inl hin))
      rw [hnone, hcloses, herased]
      exact ⟨rfl, iff_of_true (Or.inl rfl) rfl⟩
  · intro id hin
    rw [hconns, List.mem_cons, ← List.count_pos_iff, hclose, List.count_pos_iff] at hin
    rw [hpeers, List.length_append, List.length_singleton]
    rcases hin with hin | rfl | hin
    · exact Nat.lt_succ_of_lt (h.known id (Or.inl hin))
    · exact Nat.lt_succ_self _
    · exact Nat.lt_succ_of_lt (h.known id (Or.inr hin))

/-- **Accepting.**  A new connection is established at once. -/
lemma newConnection_inv {s : EventLoop} (h : s.Inv) :
    ∃ t, s.newConnection = .ok t ∧ t.Inv ∧ s.KeepsClosed t := by
  have hfresh : ({ ctor with writeCompleteCallback := s.writeCompleteCallback } :
      TcpConnection).Inv :=
    ctor_inv.of_frame ctor_inv.input_wf rfl ctor_inv.channel_ok rfl Iff.rfl
  obtain ⟨c, hest, hconn, hs, -⟩ := connectionEstablished_spec hfresh rfl
  have hnew : s.newConnection = .ok { s with
      peers := s.peers ++ [⟨c, [.up], 0, 0⟩]
      connections := s.peers.length :: s.connections
      stack := .user :: s.stack } := by
    have hstep : (Peer.mk { ctor with writeCompleteCallback := s.writeCompleteCallback } [] 0
        0).conn.step .connectionEstablished = .ok (c, [.callback .up]) := hest
    refine (exec_of_some List.getElem?_concat_length hstep).trans ?_
    simp [Peer.after, callbacksOf, tasksOf, workOf]
  refine ⟨_, hnew, h.add rfl rfl ?_ ?_ hconn (isOpen_iff.mpr (Or.inl hs)) rfl rfl rfl⟩
  · exact fun id => List.count_cons_of_ne (by simp)
  · exact fun id hdue => hdue.imp_right fun hmem => List.mem_of_ne_of_mem (by simp) hmem

/-- **Erasing.**  The connection is in the server's map when its `closeCallback` runs. -/
lemma removeConnectionInLoop_inv {s : EventLoop} {rest : List Work} {id : ConnId} (h : s.Inv)
    (hst : s.stack = .closeCallback id :: rest) :
    ∃ t, removeConnectionInLoop { s with stack := rest } id = .ok t ∧ t.Inv ∧
      s.KeepsClosed t := by
  have hlt : id < s.peers.length := h.known id (Or.inl (hst ▸ List.mem_cons_self))
  obtain ⟨p, hp⟩ : ∃ p, s.peers[id]? = some p := ⟨_, List.getElem?_eq_getElem hlt⟩
  obtain ⟨hconn, hlived⟩ := h.peer id p hp
  obtain ⟨hcount, hmem⟩ := h.erase id p hp
  rw [hst, List.count_cons_self] at hcount
  have hle := hlived.closes_le
  have hone : p.closes = 1 := by omega
  have hzero : p.erased = 0 := by omega
  have hclosed : p.conn.state = .kDisconnected := by
    rw [hone] at hlived
    generalize htr : p.trace = tr at hlived
    cases hlived with
    | closed n hs => exact hs
  have hmodify : s.peers.modify id (fun p => { p with erased := p.erased + 1 }) =
      s.peers.set id { p with erased := p.erased + 1 } := by
    apply List.ext_getElem?
    intro j
    by_cases hj : id = j
    · subst hj
      rw [List.getElem?_modify_eq, List.getElem?_set_self hlt, hp]
      rfl
    · rw [List.getElem?_modify_ne _ _ hj, List.getElem?_set_ne hj]
  have hrem : removeConnectionInLoop { s with stack := rest } id = .ok { s with
      peers := s.peers.modify id fun p => { p with erased := p.erased + 1 }
      connections := s.connections.filter (· ≠ id)
      pendingFunctors := s.pendingFunctors ++ [.connectionDestroy id]
      stack := rest } := by
    rw [removeConnectionInLoop, check_true (hmem.mpr hzero), ok_bind]
  refine ⟨_, hrem, h.update hp hmodify hconn hlived (fun _ => hclosed) ?_ ?_ ?_ ?_⟩
  · change p.closes = p.erased + 1 + rest.count (.closeCallback id)
    omega
  · simp
  · intro j hj
    rw [hst, List.count_cons_of_ne (by simp [Ne.symm hj])]
    simp [hj]
  · intro j hdue
    rcases hdue with hin | hin
    · rcases List.mem_append.mp hin with hold | hnew
      · exact Or.inl (Or.inl hold)
      · simp only [List.mem_singleton, Task.connectionDestroy.injEq] at hnew
        exact Or.inr ⟨hnew, hclosed⟩
    · exact Or.inl (Or.inr (hst ▸ List.mem_cons_of_mem _ hin))

/-! ## Every step of the loop -/

/-- What the promise asks of a run.  In every state each connection has called back along its
life, has been closed and erased at most once, and once it is closed, and its `handleClose`
is through, it is erased; closed connections stay closed; and neither of the two assertions
fails. -/
def lifeCycle : RunSpec EventLoop Fault where
  good s := ∀ (id : ConnId) (p : Peer), s.peers[id]? = some p →
    IsLife p.trace ∧ p.closes ≤ 1 ∧ p.erased ≤ 1 ∧
      (p.conn.state = .kDisconnected → .closeCallback id ∉ s.stack →
        p.erased = 1 ∧ id ∉ s.connections)
  move s t := s.KeepsClosed t
  stop e := e ≠ .assertion .handleClose ∧ e ≠ .assertion .removeConnectionInLoop

/-- When the next thing to do is the read callback of a connection that is closed, the read
fails. -/
def NoStaleRead (s : EventLoop) : LoopInput → Prop
  | .next a => ∀ id rest, s.stack = .readCallback (.connection id) :: rest → s.IsClosed id →
      ∃ e, a.read = .failed e
  | _ => True

lemma Inv.good {s : EventLoop} (h : s.Inv) : lifeCycle.good s := by
  intro id p hp
  obtain ⟨-, hlived⟩ := h.peer id p hp
  obtain ⟨hcount, hmem⟩ := h.erase id p hp
  have hle := hlived.closes_le
  refine ⟨hlived.isLife, hle, by omega, fun hs hdone => ?_⟩
  have hone := hlived.closes_of_closed hs
  have hzero := List.count_eq_zero.mpr hdone
  have herased : p.erased = 1 := by omega
  exact ⟨herased, fun hin => by rw [hmem.mp hin] at herased; cases herased⟩

/-- A step that does what the promise asks. -/
def Sound (s : EventLoop) : Except Fault EventLoop → Prop
  | .ok t => t.Inv ∧ s.KeepsClosed t
  | .error e => lifeCycle.stop e

/-- A permitted call fails by none of the two assertions: the open connections of the loop
have no end of stream to run into. -/
lemma exec_sound {s : EventLoop} (h : s.Inv) {id : ConnId} {i : Input}
    (hi : ∀ p, s.peers[id]? = some p → Permitted p.conn i) : s.Sound (s.exec id i) := by
  cases hexec : s.exec id i with
  | ok t => exact exec_inv h hi hexec
  | error e =>
    rw [exec] at hexec
    cases hp : s.peers[id]? with
    | none =>
      rw [hp] at hexec
      cases hexec
    | some p =>
      rw [hp] at hexec
      obtain ⟨hconn, hlived⟩ := h.peer id p hp
      cases hstep : p.conn.step i with
      | ok r =>
        simp only [hstep, ok_bind] at hexec
        cases hexec
      | error e' =>
        simp only [hstep, error_bind] at hexec
        cases hexec
        cases step_failure hconn hstep with
        | handleClose hread ho =>
          have hopen : p.conn.isOpen = true := by
            generalize p.trace = tr at hlived
            generalize p.closes = k at hlived
            cases hlived with
            | running n hrun => exact hrun
            | closed n hs => exact absurd hs ((hi p hp).read _ hread)
          rw [ho] at hopen
          cases hopen
        | sendInLoop => exact ⟨nofun, nofun⟩
        | connectionEstablished => exact ⟨nofun, nofun⟩
        | channelRemove => exact ⟨nofun, nofun⟩
        | removeChannel => exact ⟨nofun, nofun⟩
        | retrieve => exact ⟨nofun, nofun⟩

/-- Work that closes and destroys nothing by itself. -/
def Quiet (w : Work) : Prop :=
  (∀ id, w ≠ .closeCallback id) ∧ ∀ id, w ≠ .task (.connectionDestroy id)

lemma push_sound {s : EventLoop} (h : s.Inv) {ws : List Work} (hws : ∀ w ∈ ws, Quiet w) :
    s.Sound (.ok { s with stack := ws ++ s.stack }) := by
  refine h.reschedule rfl rfl (fun id => ?_) (fun id hdue => hdue.imp_right fun hmem => ?_)
  · have hzero : ws.count (.closeCallback id) = 0 :=
      List.count_eq_zero.mpr fun hmem => (hws _ hmem).1 id rfl
    rw [List.count_append, hzero, Nat.zero_add]
  · rcases List.mem_append.mp hmem with hnew | hold
    · exact absurd rfl ((hws _ hnew).2 id)
    · exact hold

lemma handleEventWithGuard_quiet (r : Ready) : ∀ w ∈ handleEventWithGuard r, Quiet w := by
  intro w hw
  simp only [handleEventWithGuard, List.mem_append] at hw
  rcases hw with (hw | hw) | hw <;>
  · split at hw
    · cases List.mem_singleton.mp hw
      exact ⟨nofun, nofun⟩
    · cases hw

lemma poll_sound {s : EventLoop} (h : s.Inv) (batch : List Ready) :
    s.Sound (.ok (s.poll batch)) := by
  unfold poll
  split
  · next hpoll =>
    have hquiet : ∀ w ∈ batch.map Work.handleEvent ++ [.doPendingFunctors], Quiet w := by
      intro w hw
      rcases List.mem_append.mp hw with hw | hw
      · obtain ⟨r, -, rfl⟩ := List.mem_map.mp hw
        exact ⟨nofun, nofun⟩
      · cases List.mem_singleton.mp hw
        exact ⟨nofun, nofun⟩
    have hsound := push_sound h hquiet
    rwa [hpoll.1, List.append_nil] at hsound
  · exact ⟨h, fun _ hid => hid⟩

/-- Taking up work that is not a `closeCallback`. -/
lemma pop_inv {s : EventLoop} (h : s.Inv) {w : Work} {rest : List Work}
    (hst : s.stack = w :: rest) (hw : ∀ id, w ≠ .closeCallback id) :
    EventLoop.Inv { s with stack := rest } := by
  refine (h.reschedule (t := { s with stack := rest }) rfl rfl (fun id => ?_)
    (fun id hdue => ?_)).1
  · rw [hst, List.count_cons_of_ne (hw id)]
  · exact hdue.imp_right fun hmem => hst ▸ List.mem_cons_of_mem _ hmem

lemma swap_sound {s : EventLoop} (h : s.Inv) :
    s.Sound (.ok { s with
      stack := s.pendingFunctors.map .task ++ s.stack, pendingFunctors := [] }) := by
  refine h.reschedule rfl rfl (fun id => ?_) (fun id hdue => ?_)
  · have hzero : (s.pendingFunctors.map Work.task).count (.closeCallback id) = 0 := by
      rw [List.count_eq_zero]
      simp
    rw [List.count_append, hzero, Nat.zero_add]
  · rcases hdue with hmem | hmem
    · cases hmem
    · rcases List.mem_append.mp hmem with hnew | hold
      · obtain ⟨t, ht, heq⟩ := List.mem_map.mp hnew
        cases heq
        exact Or.inl ht
      · exact Or.inr hold

lemma user_sound {s : EventLoop} (h : s.Inv) :
    s.Sound (.ok { s with stack := .user :: s.stack }) := by
  have hquiet : ∀ w ∈ [Work.user], Quiet w := by simp [Quiet]
  exact push_sound h hquiet

lemma runTask_sound {s : EventLoop} (h : s.Inv) (a : Answers) (t : Task)
    (ht : ∀ id, t = .connectionDestroy id → s.IsClosed id) : s.Sound (s.runTask a t) := by
  cases t with
  | connectionDestroy id =>
    refine exec_sound h fun p hp => ⟨fun _ => ?_, nofun⟩
    obtain ⟨q, hq, hs⟩ := ht id rfl
    cases hp.symm.trans hq
    exact hs
  | connection id f =>
    cases f with
    | writeComplete => exact user_sound h
    | highWater => exact user_sound h
    | sendInLoop len => exact exec_sound h fun p hp => ⟨nofun, nofun⟩
    | shutdownInLoop => exact exec_sound h fun p hp => ⟨nofun, nofun⟩
    | forceCloseInLoop => exact exec_sound h fun p hp => ⟨nofun, nofun⟩
    | startReadInLoop => exact exec_sound h fun p hp => ⟨nofun, nofun⟩
    | stopReadInLoop => exact exec_sound h fun p hp => ⟨nofun, nofun⟩

lemma next_sound {s : EventLoop} (h : s.Inv) {a : Answers} (hfresh : s.NoStaleRead (.next a)) :
    s.Sound (s.next a) := by
  unfold next
  cases hst : s.stack with
  | nil => exact ⟨h, fun _ hid => hid⟩
  | cons w rest =>
    dsimp only
    cases w with
    | closeCallback id =>
      obtain ⟨t, ht, hsound⟩ := removeConnectionInLoop_inv h hst
      rw [perform, ht]
      exact hsound
    | handleEvent r => exact push_sound (pop_inv h hst nofun) (handleEventWithGuard_quiet r)
    | user => exact user_sound (pop_inv h hst nofun)
    | doPendingFunctors => exact swap_sound (pop_inv h hst nofun)
    | channelRemove id =>
      exact exec_sound (pop_inv h hst nofun) fun p hp => ⟨nofun, nofun⟩
    | task t =>
      refine runTask_sound (pop_inv h hst nofun) a t fun id hid => ?_
      exact h.destroy id (Or.inr (hid ▸ hst ▸ List.mem_cons_self))
    | errorCallback ch =>
      cases ch with
      | connection id => exact exec_sound (pop_inv h hst nofun) fun p hp => ⟨nofun, nofun⟩
      | acceptor => exact ⟨pop_inv h hst nofun, fun _ hid => hid⟩
      | timer => exact ⟨pop_inv h hst nofun, fun _ hid => hid⟩
    | writeCallback ch =>
      cases ch with
      | connection id => exact exec_sound (pop_inv h hst nofun) fun p hp => ⟨nofun, nofun⟩
      | acceptor => exact ⟨pop_inv h hst nofun, fun _ hid => hid⟩
      | timer => exact ⟨pop_inv h hst nofun, fun _ hid => hid⟩
    | readCallback ch =>
      cases ch with
      | timer => exact user_sound (pop_inv h hst nofun)
      | acceptor =>
        rw [perform]
        split
        · obtain ⟨t, ht, hsound⟩ := newConnection_inv (pop_inv h hst nofun)
          rw [ht]
          exact hsound
        · exact ⟨pop_inv h hst nofun, fun _ hid => hid⟩
      | connection id =>
        -- the one place where the run has to be looked at
        refine exec_sound (pop_inv h hst nofun) fun p hp => ⟨nofun, fun data hdata hs => ?_⟩
        obtain ⟨e, he⟩ := hfresh id rest hst ⟨p, hp, hs⟩
        rw [he] at hdata
        cases hdata

/-- **A step without a stale read** does what the promise asks. -/
theorem step_sound {s : EventLoop} (h : s.Inv) {i : LoopInput} (hi : s.NoStaleRead i) :
    s.Sound (s.step i) := by
  cases i with
  | poll batch => exact poll_sound h batch
  | next a => exact next_sound h hi
  | call id a =>
    rw [step]
    split
    · exact exec_sound h fun p hp => permitted_toInput p.conn true a
    · exact ⟨h, fun _ hid => hid⟩
  | consume id len =>
    rw [step]
    split
    · exact exec_sound h fun p hp => ⟨nofun, nofun⟩
    · exact ⟨h, fun _ hid => hid⟩
  | ret =>
    rw [step]
    split
    · next huser =>
      obtain ⟨rest, hst⟩ : ∃ rest, s.stack = .user :: rest := by
        unfold inUser at huser
        cases hs : s.stack with
        | nil =>
          rw [hs] at huser
          cases huser
        | cons w rest =>
          rw [hs, List.head?_cons, beq_iff_eq, Option.some.injEq] at huser
          exact ⟨rest, by rw [huser]⟩
      have hinv := pop_inv h hst nofun
      rw [hst, List.tail_cons]
      exact ⟨hinv, fun _ hid => hid⟩
    · exact ⟨h, fun _ hid => hid⟩
  | remote id a => exact exec_sound h fun p hp => permitted_toInput p.conn false a

/-- **A stale read** that does not fail breaks the promise at once. -/
theorem step_unsound {s : EventLoop} (h : s.Inv) {i : LoopInput} (hi : ¬ s.NoStaleRead i) :
    s.step i = .error (.assertion .handleClose) ∨
      ∃ t, s.step i = .ok t ∧ ¬ lifeCycle.good t := by
  cases i with
  | next a =>
    simp only [NoStaleRead] at hi
    push Not at hi
    obtain ⟨id, rest, hst, ⟨p, hp, hs⟩, hread⟩ := hi
    obtain ⟨hconn, hlived⟩ := h.peer id p hp
    have hnext : s.step (.next a) = exec { s with stack := rest } id (.handleRead a.read) := by
      change s.next a = _
      rw [next, hst]
      rfl
    rw [hnext]
    cases hr : a.read with
    | failed e => exact absurd hr (hread e)
    | got data =>
      cases data with
      | nil =>
        left
        have hfail : p.conn.step (.handleRead (.got [])) = .error (.assertion .handleClose) :=
          handleRead_fails hconn (isOpen_eq_false_of_closed hs)
        rw [exec, hp]
        simp only [hfail, error_bind]
      | cons x xs =>
        right
        obtain ⟨b, -, heq⟩ := handleRead_eq hconn (.got (x :: xs))
        refine ⟨_, exec_of_some hp heq, fun hgood => ?_⟩
        have hlt : id < s.peers.length := (List.getElem?_eq_some_iff.mp hp).1
        have hlife := (hgood id _ (List.getElem?_set_self hlt)).1
        exact hlived.not_isLife_message hs hlife
  | poll _ => exact absurd trivial hi
  | call _ _ => exact absurd trivial hi
  | consume _ _ => exact absurd trivial hi
  | ret => exact absurd trivial hi
  | remote _ _ => exact absurd trivial hi

/-- **The life cycle.**  A run of the loop keeps its promise to every connection if and only
if no read callback, when its connection is closed already, reads anything but an error. -/
theorem life_cycle_iff (writeComplete : Bool) (is : List LoopInput) :
    machine.Meets lifeCycle (start writeComplete) is ↔
      machine.Along NoStaleRead (start writeComplete) is := by
  refine machine.meets_iff_of_sound (I := EventLoop.Inv) (fun s h => h.good) ?_ ?_
    (start_inv writeComplete)
  · intro s i h hi
    have hsound := step_sound h hi
    change lifeCycle.Sound _ s (s.step i)
    cases hstep : s.step i with
    | ok t => rwa [hstep] at hsound
    | error e => rwa [hstep] at hsound
  · intro s i h hi
    change lifeCycle.Seen s (s.step i)
    rcases step_unsound h hi with hfail | ⟨t, ht, hbad⟩
    · rw [hfail]
      exact fun hstops => hstops.1 rfl
    · rw [ht]
      exact fun hgood => hbad hgood.2

/-- One turn of the loop in which a connection is accepted and the user's UP callback returns. -/
def acceptOne : List LoopInput :=
  [.poll [⟨.acceptor, EPOLLIN⟩], .next {}, .next {}, .ret, .next {}]

/-- Two connections are ready in one batch, and the message callback of the first closes the
second; the read callback of the second is what is left of the batch. -/
def closeInBatch : List LoopInput :=
  acceptOne ++ acceptOne ++
    [.poll [⟨.connection 0, EPOLLIN⟩, ⟨.connection 1, EPOLLIN⟩], .next {},
      .next { read := .got [1] }, .call 1 .forceClose, .ret, .next {}, .ret, .next {}]

/-- Octets that arrived for the second connection are delivered after DOWN, and an end of
stream there ends the process. -/
theorem life_cycle_fails_closeInBatch :
    machine.run (start false) (closeInBatch ++ [.next { read := .got [] }]) =
        .error (.assertion .handleClose) ∧
      ∃ t, machine.run (start false) (closeInBatch ++ [.next { read := .got [2] }]) = .ok t ∧
        (t.peers[1]?.map Peer.trace) = some [.up, .down, .message] ∧ ¬ lifeCycle.good t := by
  have hrun : ∃ t, machine.run (start false) (closeInBatch ++ [.next { read := .got [2] }]) =
      .ok t ∧ (t.peers[1]?.map Peer.trace) = some [.up, .down, .message] := by
    decide +kernel
  obtain ⟨t, ht, htrace⟩ := hrun
  refine ⟨by decide +kernel, t, ht, htrace, fun hgood => ?_⟩
  obtain ⟨p, hp, hptrace⟩ := Option.map_eq_some_iff.mp htrace
  obtain ⟨n, hlife⟩ := (hgood 1 p hp).1
  rw [hptrace, List.cons_prefix_cons] at hlife
  exact not_message_after_down 0 n hlife.2

end EventLoop

end Firey
