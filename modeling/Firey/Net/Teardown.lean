import Firey.Net.Removal

/-!
# The destructor of the server, and every open connection

`stay` projects the server on one connection (`Firey.Net.Removal`).  A step changes the stay of
one connection at most, and the rest of the invariant is about who is told what: the functors and
frames of a connection are those of its own loop, the destructor has all entries of the map
before it, and a loop that has been left has no connection that was not removed.
-/

set_option autoImplicit false

namespace Firey

/-- What `connectionDestroy` should leave. -/
structure TornDown (conn : TcpConnection) (trace : List Callback) : Prop where
  state : conn.state = .kDisconnected
  channel : conn.connChannel.Removed
  down : trace.count .down = 1

/-- The assertions on the way. -/
def Fault.IsTeardown (e : Fault) : Prop :=
  e = .assertion .channelRemove ∨ e = .assertion .removeChannel ∨
    e = .assertion .connectionDestructor

instance (e : Fault) : Decidable e.IsTeardown :=
  inferInstanceAs (Decidable (_ ∨ _ ∨ _))

namespace TcpServer

/-- The functors a loop has yet to run. -/
def tasks (s : TcpServer) (l : LoopId) : List ServerTask :=
  (s.loops l).batch ++ (s.loops l).pendingFunctors

/-- `connectionDestroy` is queued, or waits for its callback to return. -/
def ToBeRemoved (s : TcpServer) (id : ConnId) (p : ServerConn) : Prop :=
  (s.loops p.loop).exited = false ∧
    (.connectionDestroy id ∈ s.tasks p.loop ∨ .channelRemove id ∈ (s.loops p.loop).frames)

/-- When the destructor has returned, each connection is closed and removed or will be; where
`connectionDestroy` returns, the connection is torn down; and no assertion fails on the way. -/
def teardown : RunSpec TcpServer Fault where
  good s := s.phase = .dead → ∀ id p, s.peers[id]? = some p →
    p.removed = true ∧ p.conn.state = .kDisconnected ∧ p.trace.count .down = 1 ∨
      p.removed = false ∧ s.ToBeRemoved id p
  move s t := ∀ (id : ConnId) (p q : ServerConn), s.peers[id]? = some p → t.peers[id]? = some q →
    p.removed = false → q.removed = true → TornDown q.conn q.trace
  stop e := ¬ e.IsTeardown

/-! ## The condition -/

/-- `shutdown` or `forceCloseWithDelay` has been called, and the connection is still open. -/
def halfClosed (s : TcpServer) (id : ConnId) : Bool :=
  s.peers[id]?.any fun p => p.conn.state = .kDisconnecting

/-- The connection is closed, and its channel is not removed yet. -/
def closing (s : TcpServer) (id : ConnId) : Bool :=
  s.peers[id]?.any fun p => p.conn.state = .kDisconnected ∧ p.removed = false

/-- `connectionDestroy` is not entered with the connection half closed, `startReadInLoop` is not
run on a closed connection, and no loop is left with a connection that was not removed. -/
def tidy (s : TcpServer) : ServerInput → Bool
  | .next l _ =>
      match (s.loops l).frames with
      | .destructor (id :: _) :: _ =>
          ¬ (id ∈ s.connections ∧ s.loopOf id = some serverLoop ∧ s.halfClosed id)
      | [] =>
          match (s.loops l).batch with
          | .connectionDestroy id :: _ => !s.halfClosed id
          | .connection id .startReadInLoop :: _ => !s.closing id
          | _ => true
      | _ => true
  | .call l id .startRead => ¬ (s.inUser l ∧ s.loopOf id = some l ∧ s.closing id)
  | .exit l =>
      ¬ (s.idle l ∧ (l = serverLoop → s.phase = .dead) ∧
        ∃ p ∈ s.peers, p.loop = l ∧ p.removed = false)
  | _ => true

/-! ## The stay of a connection -/

open TcpConnection

def stayOf (s : TcpServer) (id : ConnId) (p : ServerConn) : Stay where
  conn := p.conn
  trace := p.trace
  removed := p.removed
  entries := s.connections.count id
  due := (s.tasks p.loop).filter (·.ofConn = some id)
  removing := (s.loops p.loop).frames.count (.channelRemove id)

def stay (s : TcpServer) (id : ConnId) : Option Stay := s.peers[id]?.map (s.stayOf id)

variable {s t u : TcpServer} {id j : ConnId} {l : LoopId}

lemma stay_congr (hpeer : t.peers[j]? = s.peers[j]?)
    (hentries : t.connections.count j = s.connections.count j)
    (hdue : ∀ l, s.loopOf j = some l →
      (t.tasks l).filter (·.ofConn = some j) = (s.tasks l).filter (·.ofConn = some j))
    (hremoving : ∀ l, s.loopOf j = some l →
      (t.loops l).frames.count (.channelRemove j) = (s.loops l).frames.count (.channelRemove j)) :
    t.stay j = s.stay j := by
  unfold stay
  rw [hpeer]
  rcases hp : s.peers[j]? with _ | p
  · rfl
  · have hl : s.loopOf j = some p.loop := by
      unfold loopOf
      rw [hp]
      rfl
    simp only [Option.map_some, stayOf, hentries, hdue p.loop hl, hremoving p.loop hl]

lemma stay_eq_some {v : Stay} :
    s.stay id = some v ↔ ∃ p, s.peers[id]? = some p ∧ s.stayOf id p = v := by
  unfold stay
  rw [Option.map_eq_some_iff]

lemma loopOf_eq_some {l : LoopId} :
    s.loopOf id = some l ↔ ∃ p, s.peers[id]? = some p ∧ p.loop = l := by
  unfold loopOf
  rw [Option.map_eq_some_iff]

/-! ### What the parts of a step do to it -/

lemma loops_setLoop (s : TcpServer) (l m : LoopId) (x : LoopThread) :
    (s.setLoop l x).loops m = if m = l then x else s.loops m :=
  Function.update_apply s.loops l x m

lemma tasks_setLoop (s : TcpServer) (l m : LoopId) (x : LoopThread) :
    (s.setLoop l x).tasks m = if m = l then x.batch ++ x.pendingFunctors else s.tasks m := by
  unfold tasks
  rw [loops_setLoop]
  split_ifs <;> rfl

lemma frames_setLoop (s : TcpServer) (l m : LoopId) (x : LoopThread) :
    ((s.setLoop l x).loops m).frames = if m = l then x.frames else (s.loops m).frames := by
  rw [loops_setLoop, apply_ite LoopThread.frames]

lemma exited_setLoop (s : TcpServer) (l m : LoopId) (x : LoopThread) :
    ((s.setLoop l x).loops m).exited = if m = l then x.exited else (s.loops m).exited := by
  rw [loops_setLoop, apply_ite LoopThread.exited]

/-! A loop whose stack changes keeps its functors, and goes on. -/

lemma tasks_setFrames (s : TcpServer) (l m : LoopId) (fs : List Frame) :
    (s.setFrames l fs).tasks m = s.tasks m := by
  unfold setFrames
  rw [tasks_setLoop]
  split_ifs with hm
  · rw [hm]
    rfl
  · rfl

lemma frames_setFrames (s : TcpServer) (l m : LoopId) (fs : List Frame) :
    ((s.setFrames l fs).loops m).frames = if m = l then fs else (s.loops m).frames :=
  frames_setLoop s l m _

lemma exited_setFrames (s : TcpServer) (l m : LoopId) (fs : List Frame) :
    ((s.setFrames l fs).loops m).exited = (s.loops m).exited := by
  unfold setFrames
  rw [exited_setLoop]
  split_ifs with hm
  · rw [hm]
  · rfl

/-- Frames that count the same change nothing. -/
lemma stay_setFrames {fs : List Frame}
    (hcount : fs.count (.channelRemove j) = (s.loops l).frames.count (.channelRemove j)) :
    (s.setFrames l fs).stay j = s.stay j := by
  refine stay_congr rfl rfl (fun m _ => ?_) fun m _ => ?_
  · rw [tasks_setFrames]
  · rw [frames_setFrames]
    split_ifs with hm
    · rw [hm]
      exact hcount
    · rfl

/-- User code is entered. -/
lemma stay_user (s : TcpServer) (l : LoopId) :
    (s.setFrames l (.user :: (s.loops l).frames)).stay j = s.stay j :=
  stay_setFrames (by simp)

/-- A functor is taken from the batch. -/
lemma stay_popBatch_of_ne {x : ServerTask} {xs : List ServerTask} (hb : (s.loops l).batch = x :: xs)
    (hx : x.ofConn ≠ some j) : (s.setLoop l { s.loops l with batch := xs }).stay j = s.stay j := by
  refine stay_congr rfl rfl (fun m _ => ?_) fun m _ => ?_
  · rw [tasks_setLoop]
    split_ifs with hm
    · unfold tasks
      rw [hm, hb, List.cons_append, List.filter_cons_of_neg (by simpa using hx)]
    · rfl
  · rw [frames_setLoop]
    split_ifs with hm
    · rw [hm]
    · rfl

lemma stay_popBatch {x : ServerTask} {xs : List ServerTask} {v : Stay}
    (hb : (s.loops l).batch = x :: xs) (hx : x.ofConn = some id) (hl : s.loopOf id = some l)
    (hv : (s.setLoop l { s.loops l with batch := xs }).stay id = some v) :
    ∃ w, s.stay id = some w ∧ w.due = x :: v.due ∧ v = { w with due := v.due } := by
  obtain ⟨p, hp, rfl⟩ := stay_eq_some.mp hv
  obtain ⟨q, hq, rfl⟩ := loopOf_eq_some.mp hl
  rw [show p = q from Option.some.inj (hp.symm.trans hq)]
  refine ⟨s.stayOf id q, stay_eq_some.mpr ⟨q, hq, rfl⟩, ?_, ?_⟩
  · unfold stayOf
    dsimp only
    rw [tasks_setLoop, if_pos rfl]
    unfold tasks
    rw [hb, List.cons_append, List.filter_cons_of_pos (by simpa using hx)]
  · unfold stayOf
    dsimp only
    rw [frames_setLoop, if_pos rfl]
    rfl

/-- A functor is queued. -/
lemma stay_queueInLoop_of_ne {x : ServerTask} (hx : x.ofConn ≠ some j) :
    (s.queueInLoop l x).stay j = s.stay j := by
  unfold queueInLoop
  refine stay_congr rfl rfl (fun m _ => ?_) fun m _ => ?_
  · rw [tasks_setLoop]
    split_ifs with hm
    · unfold tasks
      rw [hm, ← List.append_assoc, List.filter_append, List.filter_cons_of_neg (by simpa using hx),
        List.filter_nil, List.append_nil]
    · rfl
  · rw [frames_setLoop]
    split_ifs with hm
    · rw [hm]
    · rfl

lemma stay_queueInLoop {x : ServerTask} {v : Stay} (hx : x.ofConn = some id)
    (hl : s.loopOf id = some l) (hv : (s.queueInLoop l x).stay id = some v) :
    ∃ w, s.stay id = some w ∧ v = { w with due := w.due ++ [x] } := by
  obtain ⟨p, hp, rfl⟩ := stay_eq_some.mp hv
  obtain ⟨q, hq, rfl⟩ := loopOf_eq_some.mp hl
  rw [show p = q from Option.some.inj (hp.symm.trans hq)]
  refine ⟨s.stayOf id q, stay_eq_some.mpr ⟨q, hq, rfl⟩, ?_⟩
  unfold stayOf queueInLoop
  dsimp only
  rw [tasks_setLoop, if_pos rfl, frames_setLoop, if_pos rfl]
  unfold tasks
  simp [setLoop, hx]

/-- An entry of the map goes. -/
lemma stay_erase_of_ne (hj : j ≠ id) :
    ({ s with connections := s.connections.filter (· ≠ id) } : TcpServer).stay j = s.stay j := by
  refine stay_congr rfl ?_ (fun _ _ => rfl) fun _ _ => rfl
  exact List.count_filter (by simpa using hj)

lemma stay_erase {v : Stay}
    (hv : ({ s with connections := s.connections.filter (· ≠ id) } : TcpServer).stay id = some v) :
    ∃ w, s.stay id = some w ∧ w.entries = s.connections.count id ∧ v = { w with entries := 0 } := by
  obtain ⟨p, hp, rfl⟩ := stay_eq_some.mp hv
  refine ⟨s.stayOf id p, stay_eq_some.mpr ⟨p, hp, rfl⟩, rfl, ?_⟩
  have hcount : (s.connections.filter (· ≠ id)).count id = 0 :=
    List.count_eq_zero.mpr (by simp)
  unfold stayOf
  dsimp only
  rw [hcount]
  rfl

/-! ### Calls -/

lemma exec_eq_ok {i : Input} (h : s.exec id i = .ok t) :
    s.peers[id]? = none ∧ t = s ∨ ∃ p c es, s.peers[id]? = some p ∧ p.conn.step i = .ok (c, es) ∧
      t = { s with
        peers := s.peers.set id (p.after i c es)
        loops := Function.update s.loops p.loop ((s.loops p.loop).after id es) } := by
  unfold exec at h
  rcases hp : s.peers[id]? with _ | p
  · rw [hp, Except.ok.injEq] at h
    exact Or.inl ⟨rfl, h.symm⟩
  · rw [hp] at h
    dsimp only at h
    split at h
    · exact nomatch h
    · obtain ⟨⟨c, es⟩, hstep, h⟩ := bind_eq_ok h
      rw [Except.ok.injEq] at h
      exact Or.inr ⟨p, c, es, rfl, hstep, h.symm⟩

lemma exec_of_some {i : Input} {p : ServerConn} {c : TcpConnection} {es : List Effect}
    (hp : s.peers[id]? = some p) (hdeleted : p.deleted = false)
    (hstep : p.conn.step i = .ok (c, es)) : s.exec id i = .ok { s with
      peers := s.peers.set id (p.after i c es)
      loops := Function.update s.loops p.loop ((s.loops p.loop).after id es) } := by
  unfold exec
  rw [hp]
  simp only [hdeleted, hstep, ok_bind]
  rfl

lemma ofConn_of_mem_functorsOf {es : List Effect} {x : ServerTask} (hx : x ∈ functorsOf id es) :
    x.ofConn = some id := by
  obtain ⟨e, -, he⟩ := List.mem_filterMap.mp hx
  split at he
  · rw [Option.some.injEq] at he
    exact he ▸ rfl
  · exact nomatch he

lemma filter_functorsOf (id j : ConnId) (es : List Effect) :
    (functorsOf id es).filter (·.ofConn = some j) = if j = id then functorsOf id es else [] := by
  split_ifs with hj
  · rw [List.filter_eq_self]
    intro x hx
    rw [ofConn_of_mem_functorsOf hx, hj]
    exact decide_eq_true rfl
  · rw [List.filter_eq_nil_iff]
    intro x hx
    rw [ofConn_of_mem_functorsOf hx]
    simpa using Ne.symm hj

lemma count_framesOf (id j : ConnId) (es : List Effect) :
    (framesOf id es).count (.channelRemove j) = if j = id then es.count .channelRemove else 0 := by
  induction es with
  | nil => simp [framesOf]
  | cons e es ih =>
    unfold framesOf at ih ⊢
    by_cases hj : j = id
    · subst hj
      rw [if_pos rfl] at ih ⊢
      rcases e <;> simp [ih]
    · rw [if_neg hj] at ih ⊢
      rcases e <;> simp [ih, Ne.symm hj]

lemma tasks_after (x : LoopThread) (id j : ConnId) (es : List Effect) :
    ((x.after id es).batch ++ (x.after id es).pendingFunctors).filter (·.ofConn = some j) =
      (x.batch ++ x.pendingFunctors).filter (·.ofConn = some j) ++
        if j = id then functorsOf id es else [] := by
  unfold LoopThread.after
  dsimp only
  rw [← List.append_assoc, List.filter_append, filter_functorsOf]

lemma frames_after (x : LoopThread) (id j : ConnId) (es : List Effect) :
    (x.after id es).frames.count (.channelRemove j) =
      x.frames.count (.channelRemove j) + if j = id then es.count .channelRemove else 0 := by
  unfold LoopThread.after
  dsimp only
  rw [List.count_append, count_framesOf, Nat.add_comm]

lemma stay_exec_of_ne {i : Input} (h : s.exec id i = .ok t) (hj : j ≠ id) :
    t.stay j = s.stay j := by
  rcases exec_eq_ok h with ⟨-, rfl⟩ | ⟨p, c, es, hp, -, rfl⟩
  · rfl
  · refine stay_congr (List.getElem?_set_ne (Ne.symm hj)) rfl (fun m _ => ?_) fun m _ => ?_
    · change ((s.setLoop p.loop ((s.loops p.loop).after id es)).tasks m).filter _ = _
      rw [tasks_setLoop]
      split_ifs with hm
      · rw [tasks_after, if_neg hj, List.append_nil, hm]
        rfl
      · rfl
    · change ((s.setLoop p.loop ((s.loops p.loop).after id es)).loops m).frames.count _ = _
      rw [frames_setLoop]
      split_ifs with hm
      · rw [frames_after, if_neg hj, Nat.add_zero, hm]
      · rfl

lemma stay_exec {i : Input} {v : Stay} (h : s.exec id i = .ok t) (hv : t.stay id = some v) :
    ∃ w c es, s.stay id = some w ∧ w.conn.step i = .ok (c, es) ∧ v = w.after id i c es := by
  rcases exec_eq_ok h with ⟨hnone, rfl⟩ | ⟨p, c, es, hp, hstep, rfl⟩
  · obtain ⟨p, hp, -⟩ := stay_eq_some.mp hv
    exact nomatch hnone.symm.trans hp
  · refine ⟨s.stayOf id p, c, es, stay_eq_some.mpr ⟨p, hp, rfl⟩, hstep, ?_⟩
    obtain ⟨q, hq, rfl⟩ := stay_eq_some.mp hv
    have hlt : id < s.peers.length := (List.getElem?_eq_some_iff.mp hp).1
    rw [List.getElem?_set_self hlt, Option.some.injEq] at hq
    subst hq
    have hdue := tasks_after (s.loops p.loop) id id es
    have hremoving := frames_after (s.loops p.loop) id id es
    rw [if_pos rfl] at hdue hremoving
    unfold stayOf tasks Stay.after
    dsimp only
    change Stay.mk _ _ _ _ ((((Function.update s.loops p.loop _) p.loop).batch ++
      ((Function.update s.loops p.loop _) p.loop).pendingFunctors).filter _)
      (((Function.update s.loops p.loop _) p.loop).frames.count _) = _
    rw [Function.update_self, hdue, hremoving]
    rfl

/-! ## What a step leaves alone -/

/-- New functors and frames of a connection are given to its own loop; no connection comes into
the map, and the destructor does not pass over one that is in it. -/
structure Keeps (s t : TcpServer) : Prop where
  loopOf : t.loopOf = s.loopOf
  tasks : ∀ l, ∀ x ∈ t.tasks l, x ∈ s.tasks l ∨ ∀ id, x.ofConn = some id → s.loopOf id = some l
  frames : ∀ l id, .channelRemove id ∈ (t.loops l).frames →
    .channelRemove id ∈ (s.loops l).frames ∨ s.loopOf id = some l
  destructor : ∀ l order, .destructor order ∈ (t.loops l).frames →
    ∃ order', .destructor order' ∈ (s.loops l).frames ∧
      ∀ id ∈ t.connections, id ∈ order' → id ∈ order
  connections : t.connections ⊆ s.connections
  phase : t.phase = s.phase
  exited : ∀ l, (t.loops l).exited = (s.loops l).exited

namespace Keeps

lemma refl (s : TcpServer) : s.Keeps s :=
  ⟨rfl, fun _ _ h => Or.inl h, fun _ _ h => Or.inl h, fun _ order h => ⟨order, h, fun _ _ h => h⟩,
    List.Subset.refl _, rfl, fun _ => rfl⟩

lemma trans (h : s.Keeps t) (h' : t.Keeps u) : s.Keeps u where
  loopOf := h'.loopOf.trans h.loopOf
  tasks l x hx := by
    rcases h'.tasks l x hx with hx | hx
    · exact h.tasks l x hx
    · exact Or.inr (h.loopOf ▸ hx)
  frames l id hf := by
    rcases h'.frames l id hf with hf | hf
    · exact h.frames l id hf
    · exact Or.inr (h.loopOf ▸ hf)
  destructor l order hf := by
    obtain ⟨order', hf, horder⟩ := h'.destructor l order hf
    obtain ⟨order'', hf, horder'⟩ := h.destructor l order' hf
    exact ⟨order'', hf, fun id hid hmem => horder id hid (horder' id (h'.connections hid) hmem)⟩
  connections := List.Subset.trans h'.connections h.connections
  phase := h'.phase.trans h.phase
  exited l := (h'.exited l).trans (h.exited l)

/-- One loop goes on. -/
lemma setLoop {x : LoopThread} (hexited : x.exited = (s.loops l).exited)
    (htasks : ∀ y ∈ x.batch ++ x.pendingFunctors,
      y ∈ s.tasks l ∨ ∀ id, y.ofConn = some id → s.loopOf id = some l)
    (hframes : ∀ f ∈ x.frames, f ∈ (s.loops l).frames ∨
      (∀ id, f = .channelRemove id → s.loopOf id = some l) ∧ ∀ order, f ≠ .destructor order) :
    s.Keeps (s.setLoop l x) where
  loopOf := rfl
  tasks m y hy := by
    rw [tasks_setLoop] at hy
    split_ifs at hy with hm
    · exact hm ▸ htasks y hy
    · exact Or.inl hy
  frames m id hf := by
    rw [frames_setLoop] at hf
    split_ifs at hf with hm
    · exact hm ▸ (hframes _ hf).imp_right fun h => h.1 id rfl
    · exact Or.inl hf
  destructor m order hf := by
    rw [frames_setLoop] at hf
    refine ⟨order, ?_, fun _ _ h => h⟩
    split_ifs at hf with hm
    · exact hm ▸ (hframes _ hf).resolve_right fun h => h.2 order rfl
    · exact hf
  connections := List.Subset.refl _
  phase := rfl
  exited m := by
    rw [exited_setLoop]
    split_ifs with hm
    · rw [hm, hexited]
    · rfl

lemma setFrames {fs : List Frame} (hfs : ∀ f ∈ fs, f ∈ (s.loops l).frames ∨ f = .user) :
    s.Keeps (s.setFrames l fs) := by
  refine setLoop rfl (fun y hy => Or.inl hy) fun f hf => (hfs f hf).imp_right ?_
  rintro rfl
  exact ⟨nofun, nofun⟩

lemma user (s : TcpServer) (l : LoopId) :
    s.Keeps (s.setFrames l (.user :: (s.loops l).frames)) :=
  setFrames fun _ hf => (List.mem_cons.mp hf).symm

lemma popBatch {x : ServerTask} {xs : List ServerTask} (hb : (s.loops l).batch = x :: xs) :
    s.Keeps (s.setLoop l { s.loops l with batch := xs }) := by
  refine setLoop rfl (fun y hy => Or.inl ?_) fun f hf => Or.inl hf
  unfold TcpServer.tasks
  rw [hb]
  exact List.mem_cons_of_mem x hy

lemma queueInLoop {x : ServerTask} (hx : ∀ id, x.ofConn = some id → s.loopOf id = some l) :
    s.Keeps (s.queueInLoop l x) := by
  refine setLoop rfl (fun y hy => ?_) fun f hf => Or.inl hf
  rw [← List.append_assoc] at hy
  rcases List.mem_append.mp hy with hy | hy
  · exact Or.inl hy
  · exact Or.inr (List.mem_singleton.mp hy ▸ hx)

lemma erase (s : TcpServer) (id : ConnId) :
    s.Keeps { s with connections := s.connections.filter (· ≠ id) } :=
  ⟨rfl, fun _ _ h => Or.inl h, fun _ _ h => Or.inl h, fun _ order h => ⟨order, h, fun _ _ h => h⟩,
    List.filter_subset_self _, rfl, fun _ => rfl⟩

/-- The destructor goes past a connection that is not in the map. -/
lemma passOver {ids : List ConnId} {rest : List Frame}
    (hf : (s.loops l).frames = .destructor (id :: ids) :: rest) (hid : id ∉ s.connections) :
    s.Keeps (s.setFrames l (.destructor ids :: rest)) where
  loopOf := rfl
  tasks m y hy := Or.inl (tasks_setFrames s l m _ ▸ hy)
  frames m id hm := by
    refine Or.inl ?_
    rw [frames_setFrames] at hm
    split_ifs at hm with hl
    · rw [hl, hf]
      exact List.mem_cons_of_mem _ ((List.mem_cons.mp hm).resolve_left nofun)
    · exact hm
  destructor m order hm := by
    rw [frames_setFrames] at hm
    split_ifs at hm with hl
    · rcases List.mem_cons.mp hm with hm | hm
      · rw [Frame.destructor.injEq] at hm
        refine ⟨id :: ids, by rw [hl, hf]; exact List.mem_cons_self, fun j hj hmem => ?_⟩
        rw [hm]
        refine (List.mem_cons.mp hmem).resolve_left ?_
        rintro rfl
        exact hid hj
      · exact ⟨order, by rw [hl, hf]; exact List.mem_cons_of_mem _ hm, fun _ _ h => h⟩
    · exact ⟨order, hm, fun _ _ h => h⟩
  connections := List.Subset.refl _
  phase := rfl
  exited m := exited_setFrames s l m _

/-- A connection object is put into another state. -/
lemma setPeer {p q : ServerConn} {ids : List ConnId} (hp : s.peers[id]? = some p)
    (hq : q.loop = p.loop) : s.Keeps { s with peers := s.peers.set id q, delayed := ids } := by
  refine ⟨?_, fun _ _ h => Or.inl h, fun _ _ h => Or.inl h,
    fun _ order h => ⟨order, h, fun _ _ h => h⟩, List.Subset.refl _, rfl, fun _ => rfl⟩
  funext j
  unfold TcpServer.loopOf
  dsimp only
  by_cases hj : j = id
  · rw [hj, List.getElem?_set_self (List.getElem?_eq_some_iff.mp hp).1, hp, Option.map_some,
      Option.map_some, hq]
  · rw [List.getElem?_set_ne (Ne.symm hj)]

lemma exec {i : Input} (h : s.exec id i = .ok t) : s.Keeps t := by
  rcases exec_eq_ok h with ⟨-, rfl⟩ | ⟨p, c, es, hp, -, rfl⟩
  · exact refl _
  · have hset : s.Keeps { s with peers := s.peers.set id (p.after i c es) } := setPeer hp rfl
    have hl : s.loopOf id = some p.loop := loopOf_eq_some.mpr ⟨p, hp, rfl⟩
    refine hset.trans (setLoop rfl (fun y hy => ?_) fun f hf => ?_)
    · unfold LoopThread.after at hy
      dsimp only at hy
      rw [← List.append_assoc] at hy
      rcases List.mem_append.mp hy with hy | hy
      · exact Or.inl hy
      · refine Or.inr fun j hj => ?_
        rw [ofConn_of_mem_functorsOf hy, Option.some.injEq] at hj
        rw [hset.loopOf, ← hj, hl]
    · rcases List.mem_append.mp hf with hf | hf
      · refine Or.inr ⟨fun j hj => ?_, fun order horder => ?_⟩
        · have hcount := count_framesOf id j es
          rw [hj] at hf
          split_ifs at hcount with hid
          · rw [hset.loopOf, hid, hl]
          · exact absurd hf (List.count_eq_zero.mp hcount)
        · rw [horder] at hf
          obtain ⟨e, -, he⟩ := List.mem_filterMap.mp hf
          split at he <;> exact nomatch he
      · exact Or.inl hf

end Keeps

/-! ## The invariant -/

structure Inv (s : TcpServer) : Prop where
  sound : ∀ id v, s.stay id = some v → v.Sound id 1
  tasks : ∀ l, ∀ x ∈ s.tasks l, ∀ id, x.ofConn = some id → s.loopOf id = some l
  frames : ∀ l id, .channelRemove id ∈ (s.loops l).frames → s.loopOf id = some l
  entries : ∀ id ∈ s.connections, s.loopOf id ≠ none
  destructor : ∀ l order, .destructor order ∈ (s.loops l).frames →
    s.phase ≠ .alive ∧ s.connections ⊆ order
  dead : s.phase = .dead → s.connections = []
  exited : ∀ id l v, s.loopOf id = some l → s.stay id = some v → (s.loops l).exited = true →
    v.removed = true
  base : ∀ id v, s.loopOf id = some serverLoop → s.stay id = some v →
    v.conn.state ≠ .kConnecting

lemma start_inv : start.Inv where
  sound _ _ h := nomatch h
  tasks _ _ h := nomatch h
  frames _ _ h := nomatch h
  entries _ h := nomatch h
  destructor _ _ h := nomatch h
  dead _ := rfl
  exited _ _ _ h := nomatch h
  base _ _ h := nomatch h

/-- What becomes of a connection in one step. -/
structure Turn (id : ConnId) (v w : Stay) : Prop where
  sound : w.Sound id 1
  connecting : w.conn.state = .kConnecting → v.conn.state = .kConnecting
  removed : v.removed = true → w.removed = true
  tornDown : v.removed = false → w.removed = true → TornDown w.conn w.trace

lemma Turn.of_eq {v w : Stay} (h : w.Sound id 1)
    (hconnecting : w.conn.state = .kConnecting → v.conn.state = .kConnecting)
    (hremoved : w.removed = v.removed) : Turn id v w :=
  ⟨h, hconnecting, fun hv => hremoved.trans hv,
    fun hv hw => nomatch hv.symm.trans (hremoved.symm.trans hw)⟩

/-- A step from `s` is fine. -/
def Fine (s : TcpServer) : Except Fault TcpServer → Prop
  | .ok t => t.Inv ∧ teardown.move s t
  | .error e => ¬ e.IsTeardown

namespace Inv

/-- Each connection takes its turn, and the rest is kept. -/
lemma fine (h : s.Inv) (hk : s.Keeps t)
    (hturn : ∀ id w, t.stay id = some w → ∃ v, s.stay id = some v ∧ Turn id v w) :
    s.Fine (.ok t) := by
  refine ⟨⟨?_, ?_, ?_, ?_, ?_, ?_, ?_, ?_⟩, ?_⟩
  · intro id w hw
    obtain ⟨v, -, hvw⟩ := hturn id w hw
    exact hvw.sound
  · intro l x hx id hid
    rw [hk.loopOf]
    rcases hk.tasks l x hx with hx | hx
    · exact h.tasks l x hx id hid
    · exact hx id hid
  · intro l id hf
    rw [hk.loopOf]
    rcases hk.frames l id hf with hf | hf
    · exact h.frames l id hf
    · exact hf
  · intro id hid
    rw [hk.loopOf]
    exact h.entries id (hk.connections hid)
  · intro l order hf
    obtain ⟨order', hf, horder⟩ := hk.destructor l order hf
    obtain ⟨hphase, hsub⟩ := h.destructor l order' hf
    exact ⟨hk.phase ▸ hphase, fun id hid => horder id hid (hsub (hk.connections hid))⟩
  · intro hphase
    have hnone := h.dead (hk.phase ▸ hphase)
    exact List.eq_nil_of_subset_nil (hnone ▸ hk.connections)
  · intro id l w hl hw hexited
    obtain ⟨v, hv, hvw⟩ := hturn id w hw
    rw [hk.loopOf] at hl
    rw [hk.exited] at hexited
    exact hvw.removed (h.exited id l v hl hv hexited)
  · intro id w hl hw hs
    obtain ⟨v, hv, hvw⟩ := hturn id w hw
    rw [hk.loopOf] at hl
    exact h.base id v hl hv (hvw.connecting hs)
  · intro id p q hp hq hremoved hremoved'
    obtain ⟨v, hv, hvw⟩ := hturn id _ (stay_eq_some.mpr ⟨q, hq, rfl⟩)
    have hv' : v = s.stayOf id p :=
      Option.some.inj (hv.symm.trans (stay_eq_some.mpr ⟨p, hp, rfl⟩))
    rw [hv'] at hvw
    exact hvw.tornDown hremoved hremoved'

/-- One connection takes its turn. -/
lemma fine_of_ne (h : s.Inv) (id : ConnId) (hk : s.Keeps t)
    (hothers : ∀ j, j ≠ id → t.stay j = s.stay j)
    (hid : ∀ w, t.stay id = some w → ∃ v, s.stay id = some v ∧ Turn id v w) :
    s.Fine (.ok t) := by
  refine h.fine hk fun j w hw => ?_
  by_cases hj : j = id
  · exact hj ▸ hid w (hj ▸ hw)
  · rw [hothers j hj] at hw
    exact ⟨w, hw, .of_eq (h.sound j w hw) (fun hs => hs) rfl⟩

lemma fine_of_eq (h : s.Inv) (hk : s.Keeps t) (hsame : ∀ j, t.stay j = s.stay j) :
    s.Fine (.ok t) := by
  refine h.fine hk fun j w hw => ?_
  rw [hsame] at hw
  exact ⟨w, hw, .of_eq (h.sound j w hw) (fun hs => hs) rfl⟩

lemma fine_refl (h : s.Inv) : s.Fine (.ok s) := h.fine_of_eq (.refl s) fun _ => rfl

end Inv

lemma not_isTeardown_of_failure {c : TcpConnection} {i : Input} {e : Fault} (h : Failure c i e)
    (hi : i ≠ .channelRemove) : ¬ e.IsTeardown := by
  unfold Fault.IsTeardown
  rcases h with _ | _ | hremove | hremove | _ | _
  · simp
  · simp
  · exact absurd hremove hi
  · exact absurd hremove hi
  · simp
  · simp

/-- A function of a connection is called, after the step has done something else. -/
lemma exec_fine {i : Input} (h : s.Inv) (hk : s.Keeps t)
    (hothers : ∀ j, j ≠ id → t.stay j = s.stay j)
    (hid : ∀ w, t.stay id = some w → w.conn.Inv ∧
      (i = .channelRemove → ∃ r, w.conn.step i = .ok r) ∧
      ∃ v, s.stay id = some v ∧ ∀ c es, w.conn.step i = .ok (c, es) →
        Turn id v (w.after id i c es)) :
    s.Fine (t.exec id i) := by
  rcases hexec : t.exec id i with e | u
  · change ¬ e.IsTeardown
    unfold exec at hexec
    rcases hp : t.peers[id]? with _ | p
    · rw [hp] at hexec
      exact nomatch hexec
    · obtain ⟨hconn, hremove, -⟩ := hid _ (stay_eq_some.mpr ⟨p, hp, rfl⟩)
      change p.conn.Inv at hconn
      rw [hp] at hexec
      dsimp only at hexec
      split at hexec
      · rw [Except.error.injEq] at hexec
        rw [← hexec]
        decide
      · rcases hstep : p.conn.step i with e' | r
        · rw [hstep, error_bind, Except.error.injEq] at hexec
          rw [← hexec]
          refine not_isTeardown_of_failure (step_failure hconn hstep) fun hi => ?_
          obtain ⟨r, hr⟩ := hremove hi
          exact nomatch hr.symm.trans hstep
        · rw [hstep, ok_bind] at hexec
          exact nomatch hexec
  · refine h.fine_of_ne id (hk.trans (.exec hexec)) (fun j hj => ?_) fun w hw => ?_
    · rw [stay_exec_of_ne hexec hj, hothers j hj]
    · obtain ⟨w', c, es, hw', hstep, rfl⟩ := stay_exec hexec hw
      obtain ⟨-, -, v, hv, hturn⟩ := hid w' hw'
      exact ⟨v, hv, hturn c es hstep⟩

/-- A call that has nothing to do with the two ends. -/
lemma call_fine {i : Input} (h : s.Inv) (hk : s.Keeps t)
    (hothers : ∀ j, j ≠ id → t.stay j = s.stay j)
    (hid : ∀ w, t.stay id = some w → w.Sound id 1 ∧
      (w.removed = false → w.conn.state = .kDisconnected → i.startsRead = false) ∧
      ∃ v, s.stay id = some v ∧ w.conn = v.conn ∧ w.removed = v.removed)
    (hdestroy : i ≠ .connectionDestroy) (hremove : i ≠ .channelRemove)
    (hestablish : i ≠ .connectionEstablished) : s.Fine (t.exec id i) := by
  refine exec_fine h hk hothers fun w hw => ?_
  obtain ⟨hsound, hread, v, hv, hconn, hremoved⟩ := hid w hw
  refine ⟨hsound.conn, fun hi => absurd hi hremove, v, hv, fun c es hstep => ?_⟩
  refine .of_eq (hsound.call hdestroy hremove hestablish hread hstep) (fun hs => ?_) ?_
  · rw [← hconn]
    exact (step_summary hsound.conn hstep).connecting hs
  · rw [← hremoved]
    simp [Stay.after, hremove]

/-! ## The server -/

lemma removeConnectionInLoop_fine (h : s.Inv) (hk : s.Keeps t)
    (hsame : ∀ j, t.stay j = s.stay j) : s.Fine (t.removeConnectionInLoop id) := by
  unfold removeConnectionInLoop
  split
  · change ¬ Fault.IsTeardown _
    decide
  · by_cases hid : id ∈ t.connections
    · rw [check_true hid, ok_bind]
      rcases hl : t.loopOf id with _ | l
      · exact absurd (hk.loopOf ▸ hl) (h.entries id (hk.connections hid))
      · have hl' : ({ t with connections := t.connections.filter (· ≠ id) } : TcpServer).loopOf id =
            some l := hl
        have hkeeps := (Keeps.erase t id).trans (.queueInLoop (x := .connectionDestroy id)
          fun j hj => Option.some.inj hj ▸ hl')
        refine h.fine_of_ne id (hk.trans hkeeps)
          (fun j hj => ?_) fun w hw => ?_
        · rw [stay_queueInLoop_of_ne (by simpa [ServerTask.ofConn] using Ne.symm hj),
            stay_erase_of_ne hj, hsame]
        · obtain ⟨v, hv, rfl⟩ := stay_queueInLoop (x := .connectionDestroy id) rfl hl' hw
          obtain ⟨u, hu, hentries, rfl⟩ := stay_erase hv
          rw [hsame] at hu
          have hpos : 0 < u.entries := hentries ▸ List.count_pos_iff.mpr hid
          exact ⟨u, hu, .of_eq ((h.sound id u hu).erase hpos).queue (fun hs => hs) rfl⟩
    · rw [check_false hid, error_bind]
      change ¬ Fault.IsTeardown _
      decide

lemma removeConnection_fine (h : s.Inv) (hk : s.Keeps t) (hsame : ∀ j, t.stay j = s.stay j) :
    s.Fine (t.removeConnection l id) := by
  unfold removeConnection
  split
  · exact removeConnectionInLoop_fine h hk hsame
  · refine h.fine_of_eq (hk.trans (.queueInLoop nofun)) fun j => ?_
    rw [stay_queueInLoop_of_ne (by simp [ServerTask.ofConn]), hsame]

lemma halfClosed_eq {v : Stay} (hv : s.stay id = some v) :
    s.halfClosed id = decide (v.conn.state = .kDisconnecting) := by
  obtain ⟨p, hp, rfl⟩ := stay_eq_some.mp hv
  unfold halfClosed
  rw [hp]
  rfl

lemma closing_eq {v : Stay} (hv : s.stay id = some v) :
    s.closing id = decide (v.conn.state = .kDisconnected ∧ v.removed = false) := by
  obtain ⟨p, hp, rfl⟩ := stay_eq_some.mp hv
  unfold closing
  rw [hp]
  rfl

/-- `connectionDestroy`, in the loop of the connection. -/
lemma destroy_turn {v w : Stay} {c : TcpConnection} {es : List Effect} (hw : w.Sound id 0)
    (hconn : w.conn = v.conn) (hremoved : w.removed = v.removed)
    (hconnecting : v.conn.state ≠ .kConnecting) (hhalf : v.conn.state ≠ .kDisconnecting)
    (hstep : w.conn.step .connectionDestroy = .ok (c, es)) :
    Turn id v (w.after id .connectionDestroy c es) := by
  refine .of_eq (hw.destroy (hconn ▸ hconnecting) (hconn ▸ hhalf) hstep) (fun hs => ?_) ?_
  · rw [← hconn]
    exact (step_summary hw.conn hstep).connecting hs
  · rw [← hremoved]
    simp [Stay.after]

/-- The next functor of the batch is called. -/
lemma runTask_fine {x : ServerTask} {xs : List ServerTask} (h : s.Inv)
    (hb : (s.loops l).batch = x :: xs) (a : Answers)
    (hhalf : ∀ id, x = .connectionDestroy id → s.halfClosed id = false)
    (hread : ∀ id, x = .connection id .startReadInLoop → s.closing id = false) :
    s.Fine ((s.setLoop l { s.loops l with batch := xs }).runTask l a x) := by
  have hk : s.Keeps (s.setLoop l { s.loops l with batch := xs }) := .popBatch hb
  have hl (id : ConnId) (hid : x.ofConn = some id) : s.loopOf id = some l :=
    h.tasks l x (by unfold tasks; rw [hb]; exact List.mem_cons_self) id hid
  have hothers (id : ConnId) (hid : x.ofConn = some id) (j : ConnId) (hj : j ≠ id) :
      (s.setLoop l { s.loops l with batch := xs }).stay j = s.stay j :=
    stay_popBatch_of_ne hb (by rw [hid]; simpa using Ne.symm hj)
  rcases x with ⟨id, f⟩ | id | id | id
  · -- the functor is taken, and then at most a function of the connection is called
    have hid (i : Input) (hi : f = .startReadInLoop ∨ i.startsRead = false) (w : Stay)
        (hw : (s.setLoop l { s.loops l with batch := xs }).stay id = some w) :
        w.Sound id 1 ∧ (w.removed = false → w.conn.state = .kDisconnected → i.startsRead = false) ∧
          ∃ v, s.stay id = some v ∧ w.conn = v.conn ∧ w.removed = v.removed := by
      obtain ⟨v, hv, hdue, hwv⟩ := stay_popBatch hb rfl (hl id rfl) hw
      have hsound := (h.sound id v hv).pop hdue (by simp) (by simp)
      rw [← hwv] at hsound
      refine ⟨hsound, fun hr hs => ?_, v, hv, by rw [hwv], by rw [hwv]⟩
      rcases hi with hi | hi
      · have hclosing := closing_eq hv
        rw [hread id (by rw [hi]), eq_comm, decide_eq_false_iff_not] at hclosing
        rw [hwv] at hr hs
        exact absurd ⟨hs, hr⟩ hclosing
      · exact hi
    have hcall (i : Input) (hi : f = .startReadInLoop ∨ i.startsRead = false)
        (hdestroy : i ≠ .connectionDestroy) (hremove : i ≠ .channelRemove)
        (hestablish : i ≠ .connectionEstablished) :
        s.Fine ((s.setLoop l { s.loops l with batch := xs }).exec id i) :=
      call_fine h hk (hothers id rfl) (hid i hi) hdestroy hremove hestablish
    have huser : s.Fine (.ok ((s.setLoop l { s.loops l with batch := xs }).setFrames l
        (.user :: ((s.setLoop l { s.loops l with batch := xs }).loops l).frames))) := by
      refine h.fine_of_ne id (hk.trans (.user _ l))
        (fun j hj => (stay_user _ l).trans (hothers id rfl j hj)) fun w hw => ?_
      rw [stay_user] at hw
      obtain ⟨hsound, -, v, hv, hconn, hremoved⟩ := hid .handleError (Or.inr rfl) w hw
      exact ⟨v, hv, .of_eq hsound (fun hs => hconn ▸ hs) hremoved⟩
    rcases f
    · exact hcall _ (Or.inr rfl) (by simp) (by simp) (by simp)
    · exact hcall _ (Or.inr rfl) (by simp) (by simp) (by simp)
    · exact hcall _ (Or.inr rfl) (by simp) (by simp) (by simp)
    · exact hcall _ (Or.inl rfl) (by simp) (by simp) (by simp)
    · exact hcall _ (Or.inr rfl) (by simp) (by simp) (by simp)
    · exact huser
    · exact huser
  · refine exec_fine h hk (hothers id rfl) fun w hw => ?_
    obtain ⟨v, hv, hdue, hwv⟩ := stay_popBatch hb rfl (hl id rfl) hw
    have hsound := h.sound id v hv
    have hconn : w.conn = v.conn := by rw [hwv]
    refine ⟨hconn ▸ hsound.conn, by simp, v, hv, fun c es hstep => ?_⟩
    rw [hconn] at hstep
    have hafter := hsound.establish hdue hstep
    rw [← hwv] at hafter
    refine .of_eq hafter (fun hs => (step_summary hsound.conn hstep).connecting hs) ?_
    rw [hwv]
    simp [Stay.after]
  · refine exec_fine h hk (hothers id rfl) fun w hw => ?_
    obtain ⟨v, hv, hdue, hwv⟩ := stay_popBatch hb rfl (hl id rfl) hw
    obtain ⟨hsound, hconnecting⟩ := (h.sound id v hv).popDestroy hdue
    have hdisconnecting : v.conn.state ≠ .kDisconnecting := by
      simpa [halfClosed_eq hv] using hhalf id rfl
    rw [← hwv] at hsound
    have hconn : w.conn = v.conn := by rw [hwv]
    have hremoved : w.removed = v.removed := by rw [hwv]
    exact ⟨hsound.conn, by simp, v, hv, fun c es hstep =>
      destroy_turn hsound hconn hremoved hconnecting hdisconnecting hstep⟩
  · exact removeConnectionInLoop_fine h hk fun j =>
      stay_popBatch_of_ne hb (by simp [ServerTask.ofConn])

/-- `connectionDestroy` goes on after its callback. -/
lemma stay_popRemove {rest : List Frame} {w : Stay}
    (hf : (s.loops l).frames = .channelRemove id :: rest) (hl : s.loopOf id = some l)
    (hw : (s.setFrames l rest).stay id = some w) :
    ∃ v, s.stay id = some v ∧ v.removing = w.removing + 1 ∧
      w = { v with removing := w.removing } := by
  obtain ⟨p, hp, rfl⟩ := stay_eq_some.mp hw
  obtain ⟨q, hq, rfl⟩ := loopOf_eq_some.mp hl
  rw [show p = q from Option.some.inj (hp.symm.trans hq)]
  refine ⟨s.stayOf id q, stay_eq_some.mpr ⟨q, hq, rfl⟩, ?_, ?_⟩
  · unfold stayOf
    dsimp only
    rw [frames_setFrames, if_pos rfl, hf, List.count_cons_self]
  · unfold stayOf
    dsimp only
    rw [tasks_setFrames]
    rfl

lemma channelRemove_fine {rest : List Frame} (h : s.Inv)
    (hf : (s.loops l).frames = .channelRemove id :: rest) :
    s.Fine ((s.setFrames l rest).exec id .channelRemove) := by
  have hl : s.loopOf id = some l := h.frames l id (by rw [hf]; exact List.mem_cons_self)
  have hk : s.Keeps (s.setFrames l rest) :=
    .setFrames fun f hmem => Or.inl (by rw [hf]; exact List.mem_cons_of_mem _ hmem)
  refine exec_fine h hk (fun j hj => stay_setFrames ?_) fun w hw => ?_
  · rw [hf, List.count_cons_of_ne (by simpa using Ne.symm hj)]
  · obtain ⟨v, hv, hremoving, hwv⟩ := stay_popRemove hf hl hw
    obtain ⟨c, hstep, hstate, hchannel, hsound⟩ := (h.sound id v hv).remove hremoving
    rw [← hwv] at hsound
    have hconn : w.conn = v.conn := by rw [hwv]
    rw [hconn]
    refine ⟨(h.sound id v hv).conn, fun _ => ⟨_, hstep⟩, v, hv, fun c' es hstep' => ?_⟩
    rw [hstep, Except.ok.injEq, Prod.mk.injEq] at hstep'
    obtain ⟨rfl, rfl⟩ := hstep'
    have hremoved : (w.after id .channelRemove c []).removed = true := by simp [Stay.after]
    refine ⟨hsound, fun hs => ?_, fun _ => hremoved, fun _ _ => ?_⟩
    · cases hs.symm.trans hstate
    · exact ⟨hstate, hchannel, hsound.down.trans (if_pos hstate)⟩

/-- Of a connection of its own loop the destructor calls `connectionDestroy`. -/
lemma destructNext_here (hl : s.loopOf id = some serverLoop) :
    s.destructNext id =
      ({ s with connections := s.connections.filter (· ≠ id) } : TcpServer).exec id
        .connectionDestroy := by
  rw [destructNext, hl]
  exact if_pos rfl

/-- Of one in another loop it queues it there. -/
lemma destructNext_away (hl : s.loopOf id = some l) (hother : l ≠ serverLoop) :
    s.destructNext id =
      .ok (({ s with connections := s.connections.filter (· ≠ id) } : TcpServer).queueInLoop l
        (.connectionDestroy id)) := by
  rw [destructNext, hl]
  exact if_neg hother

/-- The destructor comes to a connection that is in the map. -/
lemma destructNext_fine {ids : List ConnId} {rest : List Frame} (h : s.Inv)
    (hf : (s.loops l).frames = .destructor (id :: ids) :: rest) (hmem : id ∈ s.connections)
    (hhalf : s.loopOf id = some serverLoop → s.halfClosed id = false) :
    s.Fine ((s.setFrames l (.destructor ids :: rest)).destructNext id) := by
  obtain ⟨t, ht⟩ : ∃ t, t = ({ s with connections := s.connections.filter (· ≠ id) } :
    TcpServer).setFrames l (.destructor ids :: rest) := ⟨_, rfl⟩
  have hk : s.Keeps t := ht ▸ (Keeps.erase s id).trans (.passOver hf (by simp))
  have hframes (j : ConnId) : t.stay j =
      ({ s with connections := s.connections.filter (· ≠ id) } : TcpServer).stay j := by
    rw [ht]
    refine stay_setFrames ?_
    change _ = (s.loops l).frames.count _
    rw [hf, List.count_cons_of_ne (by simp), List.count_cons_of_ne (by simp)]
  have hothers (j : ConnId) (hj : j ≠ id) := (hframes j).trans (stay_erase_of_ne hj)
  have hid (w : Stay) (hw : t.stay id = some w) : ∃ v, s.stay id = some v ∧ w.Sound id 0 ∧
      w.conn = v.conn ∧ w.removed = v.removed := by
    rw [hframes] at hw
    obtain ⟨v, hv, hentries, rfl⟩ := stay_erase hw
    have hpos : 0 < v.entries := hentries ▸ List.count_pos_iff.mpr hmem
    exact ⟨v, hv, (h.sound id v hv).erase hpos, rfl, rfl⟩
  cases hm : s.loopOf id with
  | none => exact absurd hm (h.entries id hmem)
  | some m =>
    by_cases hserver : m = serverLoop
    · subst hserver
      have hnext : (s.setFrames l (.destructor ids :: rest)).destructNext id =
          t.exec id .connectionDestroy := ht ▸ destructNext_here hm
      rw [hnext]
      refine exec_fine h hk hothers fun w hw => ?_
      obtain ⟨v, hv, hsound, hconn, hremoved⟩ := hid w hw
      have hconnecting := h.base id v hm hv
      have hdisconnecting : v.conn.state ≠ .kDisconnecting := by
        simpa [halfClosed_eq hv] using hhalf hm
      exact ⟨hsound.conn, by simp, v, hv, fun c es hstep =>
        destroy_turn hsound hconn hremoved hconnecting hdisconnecting hstep⟩
    · have hnext : (s.setFrames l (.destructor ids :: rest)).destructNext id =
          .ok (t.queueInLoop m (.connectionDestroy id)) := ht ▸ destructNext_away hm hserver
      rw [hnext]
      have hl : t.loopOf id = some m := hk.loopOf ▸ hm
      refine h.fine_of_ne id (hk.trans (.queueInLoop fun j hj => Option.some.inj hj ▸ hl))
        (fun j hj => ?_) fun w hw => ?_
      · rw [stay_queueInLoop_of_ne (by simpa [ServerTask.ofConn] using Ne.symm hj), hothers j hj]
      · obtain ⟨w', hw', rfl⟩ := stay_queueInLoop (x := .connectionDestroy id) rfl hl hw
        obtain ⟨v, hv, hsound, hconn, hremoved⟩ := hid w' hw'
        exact ⟨v, hv, .of_eq hsound.queue (fun hs => hconn ▸ hs) hremoved⟩

/-- The phase goes on. -/
lemma Inv.setPhase (h : s.Inv) {phase : ServerPhase} (halive : phase ≠ .alive)
    (hdead : phase = .dead → s.connections = []) : ({ s with phase := phase } : TcpServer).Inv where
  sound := h.sound
  tasks := h.tasks
  frames := h.frames
  entries := h.entries
  destructor l order hf := ⟨halive, (h.destructor l order hf).2⟩
  dead := hdead
  exited := h.exited
  base := h.base

/-- A thread goes on. -/
lemma next_fine (h : s.Inv) {a : Answers} (hi : s.tidy (.next l a) = true) :
    s.Fine (s.next l a) := by
  unfold next
  unfold tidy at hi
  dsimp only at hi
  rcases hf : (s.loops l).frames with _ | ⟨_ | id | id | order, rest⟩
  · rw [hf] at hi
    dsimp only at hi ⊢
    rcases hb : (s.loops l).batch with _ | ⟨x, xs⟩
    · exact h.fine_refl
    · rw [hb] at hi
      refine runTask_fine h hb a (fun id hx => ?_) fun id hx => ?_
      · rw [hx] at hi
        simpa using hi
      · rw [hx] at hi
        simpa using hi
  · exact h.fine_refl
  · refine removeConnection_fine h (.setFrames fun f hmem => Or.inl ?_) fun j => stay_setFrames ?_
    · rw [hf]
      exact List.mem_cons_of_mem _ hmem
    · rw [hf, List.count_cons_of_ne (by simp)]
  · exact channelRemove_fine h hf
  · rw [hf] at hi
    dsimp only at hi ⊢
    rcases order with _ | ⟨id, ids⟩
    · have hpop : s.Fine (.ok (s.setFrames l rest)) := by
        refine h.fine_of_eq (.setFrames fun f hmem => Or.inl ?_) fun j => stay_setFrames ?_
        · rw [hf]
          exact List.mem_cons_of_mem _ hmem
        · rw [hf, List.count_cons_of_ne (by simp)]
      have hnone : s.connections = [] := by
        have hdestructor := h.destructor l [] (by rw [hf]; exact List.mem_cons_self)
        exact List.eq_nil_of_subset_nil hdestructor.2
      exact ⟨hpop.1.setPhase nofun fun _ => hnone, hpop.2⟩
    · dsimp only
      split
      next hmem =>
        refine destructNext_fine h hf hmem fun hl => ?_
        simpa [hmem, hl] using hi
      next hmem =>
        refine h.fine_of_eq (.passOver hf hmem) fun j => stay_setFrames ?_
        rw [hf, List.count_cons_of_ne (by simp), List.count_cons_of_ne (by simp)]

/-! ## Connections that come and go -/

/-- Calls that are not the server's own. -/
lemma call_step_fine {i : Input} (h : s.Inv) {ids : List ConnId}
    (hread : i.startsRead = true → s.closing id = false) (hdestroy : i ≠ .connectionDestroy)
    (hremove : i ≠ .channelRemove) (hestablish : i ≠ .connectionEstablished) :
    s.Fine (({ s with delayed := ids } : TcpServer).exec id i) := by
  have hk : s.Keeps { s with delayed := ids } :=
    ⟨rfl, fun _ _ h => Or.inl h, fun _ _ h => Or.inl h,
      fun _ order h => ⟨order, h, fun _ _ h => h⟩, List.Subset.refl _, rfl, fun _ => rfl⟩
  refine call_fine h hk (fun _ _ => rfl) (fun w hw => ?_) hdestroy hremove hestablish
  refine ⟨h.sound id w hw, fun hr hs => ?_, w, hw, rfl, rfl⟩
  rcases hi : i.startsRead
  · rfl
  · have hclosing := closing_eq (s := s) hw
    rw [hread hi, eq_comm, decide_eq_false_iff_not] at hclosing
    exact absurd ⟨hs, hr⟩ hclosing

/-- The server with one more connection, whose loop is left as `x`. -/
def add (s : TcpServer) (q : ServerConn) (x : LoopThread) : TcpServer := { s with
  peers := s.peers ++ [q]
  connections := s.peers.length :: s.connections
  loops := Function.update s.loops q.loop x }

section Add

variable {q : ServerConn} {x : LoopThread} {fs : List Frame} {new : List ServerTask}

lemma getElem?_add (hj : j ≠ s.peers.length) : (s.add q x).peers[j]? = s.peers[j]? := by
  unfold add
  dsimp only
  rcases Nat.lt_or_gt_of_ne hj with hlt | hgt
  · exact List.getElem?_append_left hlt
  · rw [List.getElem?_append_right (by omega), List.getElem?_eq_none (by simp; omega),
      List.getElem?_eq_none (by omega)]

lemma getElem?_add_self (s : TcpServer) (q : ServerConn) (x : LoopThread) :
    (s.add q x).peers[s.peers.length]? = some q := by
  simp [add]

lemma loopOf_add (hj : j ≠ s.peers.length) : (s.add q x).loopOf j = s.loopOf j := by
  unfold loopOf
  rw [getElem?_add hj]

lemma loopOf_add_self (s : TcpServer) (q : ServerConn) (x : LoopThread) :
    (s.add q x).loopOf s.peers.length = some q.loop := by
  unfold loopOf
  rw [getElem?_add_self]
  rfl

lemma loopOf_length (s : TcpServer) : s.loopOf s.peers.length = none := by simp [loopOf]

lemma tasks_add (htasks : x.batch ++ x.pendingFunctors = s.tasks q.loop ++ new) (m : LoopId) :
    (s.add q x).tasks m = if m = q.loop then s.tasks m ++ new else s.tasks m := by
  refine (tasks_setLoop s q.loop m x).trans ?_
  split_ifs with hm
  · exact hm ▸ htasks
  · rfl

lemma frames_add (hframes : x.frames = fs ++ (s.loops q.loop).frames) (m : LoopId) :
    ((s.add q x).loops m).frames =
      if m = q.loop then fs ++ (s.loops m).frames else (s.loops m).frames := by
  refine (frames_setLoop s q.loop m x).trans ?_
  split_ifs with hm
  · exact hm ▸ hframes
  · rfl

lemma stay_add (hframes : x.frames = fs ++ (s.loops q.loop).frames) (hfs : ∀ f ∈ fs, f = .user)
    (htasks : x.batch ++ x.pendingFunctors = s.tasks q.loop ++ new)
    (hnew : ∀ y ∈ new, y.ofConn = some s.peers.length) (hj : j ≠ s.peers.length) :
    (s.add q x).stay j = s.stay j := by
  refine stay_congr (getElem?_add hj) (List.count_cons_of_ne (Ne.symm hj)) (fun m _ => ?_)
    fun m _ => ?_
  · rw [tasks_add htasks]
    split_ifs
    · have hnone : new.filter (·.ofConn = some j) = [] := by
        rw [List.filter_eq_nil_iff]
        intro y hy
        rw [hnew y hy]
        simpa using Ne.symm hj
      rw [List.filter_append, hnone, List.append_nil]
    · rfl
  · rw [frames_add hframes]
    split_ifs
    · have hnone : fs.count (.channelRemove j) = 0 :=
        List.count_eq_zero.mpr fun hmem => nomatch hfs _ hmem
      rw [List.count_append, hnone, Nat.zero_add]
    · rfl

lemma stay_add_self (h : s.Inv) (hframes : x.frames = fs ++ (s.loops q.loop).frames)
    (hfs : ∀ f ∈ fs, f = .user) (htasks : x.batch ++ x.pendingFunctors = s.tasks q.loop ++ new)
    (hnew : ∀ y ∈ new, y.ofConn = some s.peers.length) :
    (s.add q x).stay s.peers.length = some ⟨q.conn, q.trace, q.removed, 1, new, 0⟩ := by
  have hfresh := loopOf_length s
  have hentries : (s.add q x).connections.count s.peers.length = 1 := by
    unfold add
    rw [List.count_cons_self, List.count_eq_zero.mpr fun hmem => h.entries _ hmem hfresh]
  have hdue : ((s.add q x).tasks q.loop).filter (·.ofConn = some s.peers.length) = new := by
    rw [tasks_add htasks, if_pos rfl, List.filter_append, List.filter_eq_nil_iff.mpr,
      List.filter_eq_self.mpr, List.nil_append]
    · intro y hy
      rw [hnew y hy]
      exact decide_eq_true rfl
    · intro y hy hy'
      exact nomatch hfresh.symm.trans (h.tasks _ y hy _ (of_decide_eq_true hy'))
  have hremoving : ((s.add q x).loops q.loop).frames.count (.channelRemove s.peers.length) = 0 := by
    rw [frames_add hframes, if_pos rfl, List.count_eq_zero, List.mem_append]
    rintro (hmem | hmem)
    · exact nomatch hfs _ hmem
    · exact nomatch hfresh.symm.trans (h.frames _ _ hmem)
  refine stay_eq_some.mpr ⟨q, getElem?_add_self s q x, ?_⟩
  unfold stayOf
  rw [hentries, hdue, hremoving]

/-- A connection is accepted, and its loop has been given its functors and frames. -/
lemma add_fine (fs : List Frame) (new : List ServerTask) (h : s.Inv) (halive : s.phase = .alive)
    (hexited : x.exited = false) (hframes : x.frames = fs ++ (s.loops q.loop).frames)
    (hfs : ∀ f ∈ fs, f = .user)
    (htasks : x.batch ++ x.pendingFunctors = s.tasks q.loop ++ new)
    (hnew : ∀ y ∈ new, y.ofConn = some s.peers.length)
    (hsound : Stay.Sound s.peers.length 1 ⟨q.conn, q.trace, q.removed, 1, new, 0⟩)
    (hbase : q.loop = serverLoop → q.conn.state ≠ .kConnecting) :
    s.Fine (.ok (s.add q x)) := by
  have hstay (j : ConnId) (hj : j ≠ s.peers.length) := stay_add hframes hfs htasks hnew hj
  have hstay' := stay_add_self h hframes hfs htasks hnew
  have hself := loopOf_add_self s q x
  -- what a loop knows about a connection that was there before
  have hloopOf {j : ConnId} {m : LoopId} (hm : s.loopOf j = some m) :
      (s.add q x).loopOf j = some m := by
    rw [loopOf_add, hm]
    rintro rfl
    exact nomatch (loopOf_length s).symm.trans hm
  refine ⟨⟨fun j v hv => ?_, fun m y hy j hj => ?_, fun m j hf => ?_, fun j hj => ?_,
    fun m order hf => ?_, fun hdead => ?_, fun j m v hm hv he => ?_, fun j v hl hv => ?_⟩, ?_⟩
  · by_cases hj : j = s.peers.length
    · rw [hj, hstay', Option.some.injEq] at hv
      exact hj ▸ hv ▸ hsound
    · exact h.sound j v (hstay j hj ▸ hv)
  · rw [tasks_add htasks] at hy
    split_ifs at hy with hm
    · rcases List.mem_append.mp hy with hy | hy
      · exact hloopOf (h.tasks m y hy j hj)
      · rw [hnew y hy, Option.some.injEq] at hj
        rw [← hj, hself, hm]
    · exact hloopOf (h.tasks m y hy j hj)
  · rw [frames_add hframes] at hf
    split_ifs at hf
    · rcases List.mem_append.mp hf with hf | hf
      · exact nomatch hfs _ hf
      · exact hloopOf (h.frames m j hf)
    · exact hloopOf (h.frames m j hf)
  · by_cases hnew : j = s.peers.length
    · rw [hnew, hself]
      simp
    · rw [loopOf_add hnew]
      exact h.entries j ((List.mem_cons.mp hj).resolve_left hnew)
  · -- the destructor has not been entered
    rw [frames_add hframes] at hf
    split_ifs at hf
    · rcases List.mem_append.mp hf with hf | hf
      · exact nomatch hfs _ hf
      · exact absurd halive (h.destructor m order hf).1
    · exact absurd halive (h.destructor m order hf).1
  · exact nomatch hdead.symm.trans halive
  · have hopen (m : LoopId) (hm : ((s.add q x).loops m).exited = true) :
        (s.loops m).exited = true ∧ m ≠ q.loop := by
      unfold add at hm
      dsimp only at hm
      by_cases hmq : m = q.loop
      · rw [hmq, Function.update_self, hexited] at hm
        exact nomatch hm
      · rw [Function.update_of_ne hmq] at hm
        exact ⟨hm, hmq⟩
    obtain ⟨he, hne⟩ := hopen m he
    by_cases hj : j = s.peers.length
    · rw [hj, hself, Option.some.injEq] at hm
      exact absurd hm.symm hne
    · rw [loopOf_add hj] at hm
      exact h.exited j m v hm (hstay j hj ▸ hv) he
  · by_cases hj : j = s.peers.length
    · rw [hj, hself, Option.some.injEq] at hl
      rw [hj, hstay', Option.some.injEq] at hv
      exact hv ▸ hbase hl
    · rw [loopOf_add hj] at hl
      exact h.base j v hl (hstay j hj ▸ hv)
  · intro j p p' hp hp' hr hr'
    have hj : j ≠ s.peers.length := by
      rintro rfl
      rw [List.getElem?_eq_none (Nat.le_refl _)] at hp
      exact nomatch hp
    rw [getElem?_add hj, hp, Option.some.injEq] at hp'
    rw [← hp', hr] at hr'
    exact nomatch hr'

end Add

lemma newConnection_fine (h : s.Inv) (halive : s.phase = .alive)
    (hopen : (s.loops l).exited = false) (writeComplete : Bool) :
    s.Fine (s.newConnection l writeComplete) := by
  have hinv : ({ ctor with writeCompleteCallback := writeComplete } : TcpConnection).Inv :=
    ctor_inv.of_frame ctor_inv.input_wf rfl ctor_inv.channel_ok rfl Iff.rfl
  unfold newConnection
  dsimp only
  split
  next hserver =>
    obtain ⟨c, hest, hc, hstate, -⟩ := connectionEstablished_spec hinv rfl
    have hmapped :=
      (step_channel (i := .connectionEstablished) (by simp) (by simp) hest).established rfl
    have hadd := exec_of_some (i := .connectionEstablished) (s := { s with
        peers := s.peers ++ [(⟨{ ctor with writeCompleteCallback := writeComplete }, l, [], false,
          false⟩ : ServerConn)]
        connections := s.peers.length :: s.connections }) List.getElem?_concat_length rfl hest
    have hset : s.peers ++ [⟨c, l, [.up], false, false⟩] =
        (s.peers ++ [(⟨{ ctor with writeCompleteCallback := writeComplete }, l, [], false,
          false⟩ : ServerConn)]).set s.peers.length ⟨c, l, [.up], false, false⟩ := by simp
    have hfine : s.Fine (.ok (s.add ⟨c, l, [.up], false, false⟩
        ((s.loops l).after s.peers.length [.callback .up]))) := by
      refine add_fine [.user] [] h halive hopen rfl (by simp) ?_ (by simp) ?_
        fun _ hs => by cases hs.symm.trans hstate
      · simp [LoopThread.after, functorsOf, tasks]
      · have hopen : c.state ≠ .kDisconnected := by simp [hstate]
        refine ⟨hc, (if_neg hopen).symm, fun _ hs => absurd hs hopen, fun _ _ => hmapped, rfl,
          ?_, fun hs => (by cases hs.symm.trans hstate),
          fun _ _ _ hs => (by cases hs.symm.trans hstate)⟩
        rintro (hl | hl)
        · exact absurd hl (Nat.lt_irrefl 0)
        · cases hl
    unfold add at hfine
    rw [hset] at hfine
    rw [hadd]
    exact hfine
  next hother =>
    refine add_fine (q := ⟨{ ctor with writeCompleteCallback := writeComplete }, l, [], false,
      false⟩) [] [.connectionEstablished s.peers.length] h halive hopen rfl
      (by simp) ?_ (by simp [ServerTask.ofConn]) ?_ fun hl => absurd hl hother
    · unfold tasks
      rw [List.append_assoc]
    · refine ⟨hinv, rfl, fun _ hs => (by cases hs), fun _ hs => absurd rfl hs, rfl, ?_,
        fun _ => List.mem_cons_self, fun before rest hdue _ => ?_⟩
      · rintro (hl | hl)
        · exact absurd hl (Nat.lt_irrefl 0)
        · cases hl
      · have hmem : ServerTask.connectionDestroy s.peers.length ∈
            [ServerTask.connectionEstablished s.peers.length] := by
          rw [show [ServerTask.connectionEstablished s.peers.length] = _ from hdue]
          simp
        simp at hmem

/-- Of a connection that nobody holds, the channel has been removed. -/
lemma closed_of_unheld (h : s.Inv) {p : ServerConn} (hp : s.peers[id]? = some p)
    (hfree : s.unheld id p = true) : p.conn.state = .kDisconnected := by
  obtain ⟨hentry, -, htasks, hframes⟩ := of_decide_eq_true hfree
  have hsound := h.sound id _ (stay_eq_some.mpr ⟨p, hp, rfl⟩)
  have hdue : .connectionDestroy id ∉ (s.tasks p.loop).filter (·.ofConn = some id) :=
    fun hmem => htasks p.loop List.mem_cons_self _ (List.mem_of_mem_filter hmem) rfl
  have hremoving : .channelRemove id ∉ (s.loops p.loop).frames :=
    fun hmem => (hframes _ hmem).2 rfl
  exact hsound.leaving (Or.inr (hsound.removed_of_free (List.count_eq_zero.mpr hentry) hdue
    (List.count_eq_zero.mpr hremoving)))

lemma release_fine (h : s.Inv) : s.Fine (s.release id) := by
  unfold release
  split
  · exact h.fine_refl
  next p hp =>
    split
    next hguard =>
      rw [check_true (closed_of_unheld h hp hguard.2), ok_bind]
      by_cases hchannel : p.conn.connChannel.addToLoop = false
      · rw [check_true hchannel, ok_bind]
        refine h.fine_of_eq (.setPeer hp rfl) fun j => ?_
        unfold stay
        dsimp only
        by_cases hj : j = id
        · rw [hj, List.getElem?_set_self (List.getElem?_eq_some_iff.mp hp).1, hp]
          rfl
        · rw [List.getElem?_set_ne (Ne.symm hj)]
          rfl
      · rw [check_false hchannel, error_bind]
        change ¬ Fault.IsTeardown _
        decide
    next => exact h.fine_refl

/-- The destructor is entered, with all of the map before it. -/
lemma destroyServer_fine (h : s.Inv) (halive : s.phase = .alive) {order : List ConnId}
    (horder : order.Perm s.connections) :
    s.Fine (.ok { s.setFrames serverLoop (.destructor order :: (s.loops serverLoop).frames) with
      phase := .destructing }) := by
  obtain ⟨t, ht⟩ : ∃ t, t = s.setFrames serverLoop
    (.destructor order :: (s.loops serverLoop).frames) := ⟨_, rfl⟩
  have hstay (j : ConnId) : t.stay j = s.stay j := ht ▸ stay_setFrames (by simp)
  have hframes (m : LoopId) (f : Frame) (hf : f ∈ (t.loops m).frames) :
      f = .destructor order ∨ f ∈ (s.loops m).frames := by
    rw [ht, frames_setFrames] at hf
    split_ifs at hf with hm
    · exact (List.mem_cons.mp hf).imp_right (hm ▸ ·)
    · exact Or.inr hf
  have htasks (m : LoopId) : t.tasks m = s.tasks m := by rw [ht, tasks_setFrames]
  have hexited (m : LoopId) : (t.loops m).exited = (s.loops m).exited := by
    rw [ht, exited_setFrames]
  have hpeers : t.peers = s.peers := by rw [ht]; rfl
  have hloopOf : t.loopOf = s.loopOf := by rw [ht]; rfl
  have hconnections : t.connections = s.connections := by rw [ht]; rfl
  rw [← ht]
  refine ⟨⟨fun j w hw => h.sound j w ((hstay j).symm.trans hw), fun m x hx j hj => ?_,
    fun m j hf => ?_, fun j hj => ?_, fun m order' hf => ⟨nofun, ?_⟩, nofun,
    fun j m w hm hw he => ?_, fun j w hl hw => ?_⟩, fun j p q hp hq hr hr' => ?_⟩
  · exact hloopOf ▸ h.tasks m x (htasks m ▸ hx) j hj
  · exact hloopOf ▸ h.frames m j ((hframes m _ hf).resolve_left nofun)
  · exact hloopOf ▸ h.entries j (hconnections ▸ hj)
  · rcases hframes m _ hf with hf | hf
    · rw [Frame.destructor.injEq] at hf
      intro j hj
      exact hf ▸ horder.mem_iff.mpr (hconnections ▸ hj)
    · exact absurd halive (h.destructor m order' hf).1
  · exact h.exited j m w (hloopOf ▸ hm) ((hstay j).symm.trans hw) (hexited m ▸ he)
  · exact h.base j w (hloopOf ▸ hl) ((hstay j).symm.trans hw)
  · change t.peers[j]? = some q at hq
    rw [hpeers, hp, Option.some.injEq] at hq
    rw [← hq, hr] at hr'
    exact nomatch hr'

/-- A loop is left with nothing but connections that have been removed. -/
lemma exit_fine (h : s.Inv) (hbatch : (s.loops l).batch = [])
    (hleft : ∀ p ∈ s.peers, p.loop = l → p.removed = true) (ids : List ConnId) :
    s.Fine (.ok { s.setLoop l { s.loops l with pendingFunctors := [], exited := true } with
      delayed := ids }) := by
  obtain ⟨t, ht⟩ : ∃ t : TcpServer, t = { s.setLoop l { s.loops l with
    pendingFunctors := [], exited := true } with delayed := ids } := ⟨_, rfl⟩
  rw [← ht]
  have htasks (m : LoopId) : t.tasks m = if m = l then [] else s.tasks m := by
    have hset := tasks_setLoop s l m { s.loops l with pendingFunctors := [], exited := true }
    rw [hbatch, List.append_nil] at hset
    exact ht ▸ hset
  have hsameFrames (m : LoopId) : (t.loops m).frames = (s.loops m).frames := by
    have hset := frames_setLoop s l m { s.loops l with pendingFunctors := [], exited := true }
    rw [ht]
    refine hset.trans ?_
    split_ifs with hm
    · rw [hm]
    · rfl
  have hpeers : t.peers = s.peers := by rw [ht]; rfl
  have hloopOf : t.loopOf = s.loopOf := by
    funext j
    unfold loopOf
    rw [hpeers]
  have hconnections : t.connections = s.connections := by rw [ht]; rfl
  have hphase : t.phase = s.phase := by rw [ht]; rfl
  have hstay (j : ConnId) (w : Stay) (hw : t.stay j = some w) : ∃ v, s.stay j = some v ∧
      (w = v ∨ v.removed = true ∧ w = { v with due := [] }) := by
    obtain ⟨p, hp, rfl⟩ := stay_eq_some.mp hw
    rw [hpeers] at hp
    refine ⟨s.stayOf j p, stay_eq_some.mpr ⟨p, hp, rfl⟩, ?_⟩
    unfold stayOf
    dsimp only
    rw [hconnections, htasks, hsameFrames]
    split_ifs with hl
    · exact Or.inr ⟨hleft p (List.mem_of_getElem? hp) hl, rfl⟩
    · exact Or.inl rfl
  refine ⟨⟨fun j w hw => ?_, fun m x hx j hj => ?_, fun m j hf => ?_, fun j hj => ?_,
    fun m order hf => ?_, fun hdead => ?_, fun j m w hm hw hexited => ?_, fun j w hl hw => ?_⟩, ?_⟩
  · obtain ⟨v, hv, rfl | ⟨hremoved, rfl⟩⟩ := hstay j w hw
    · exact h.sound j w hv
    · exact (h.sound j v hv).drop hremoved
  · rw [htasks] at hx
    split_ifs at hx
    · exact nomatch hx
    · exact hloopOf ▸ h.tasks m x hx j hj
  · exact hloopOf ▸ h.frames m j (hsameFrames m ▸ hf)
  · exact hloopOf ▸ h.entries j (hconnections ▸ hj)
  · rw [hphase, hconnections]
    exact h.destructor m order (hsameFrames m ▸ hf)
  · rw [hconnections]
    exact h.dead (hphase ▸ hdead)
  · obtain ⟨p, hp, rfl⟩ := stay_eq_some.mp hw
    rw [hloopOf] at hm
    by_cases hml : m = l
    · obtain ⟨q, hq, hqm⟩ := loopOf_eq_some.mp hm
      rw [hpeers, hq, Option.some.injEq] at hp
      exact hp ▸ hleft q (List.mem_of_getElem? hq) (hqm.trans hml)
    · have hsame : (t.loops m).exited = (s.loops m).exited := by
        rw [ht]
        exact (exited_setLoop s l m _).trans (if_neg hml)
      rw [hpeers] at hp
      exact h.exited j m (s.stayOf j p) hm (stay_eq_some.mpr ⟨p, hp, rfl⟩) (hsame ▸ hexited)
  · obtain ⟨v, hv, hvw⟩ := hstay j w hw
    have hconn : w.conn = v.conn := by
      rcases hvw with rfl | ⟨-, rfl⟩ <;> rfl
    exact hconn ▸ h.base j v (hloopOf ▸ hl) hv
  · intro j p q hp hq hr hr'
    rw [hpeers, hp, Option.some.injEq] at hq
    rw [← hq, hr] at hr'
    exact nomatch hr'

lemma startsRead_toInput {inLoop : Bool} {a : Action}
    (h : (a.toInput inLoop).startsRead = true) : a = .startRead ∧ inLoop = true := by
  rcases a <;> first | exact ⟨rfl, h⟩ | exact nomatch h

lemma toInput_ne (inLoop : Bool) (a : Action) : a.toInput inLoop ≠ .connectionDestroy ∧
    a.toInput inLoop ≠ .channelRemove ∧ a.toInput inLoop ≠ .connectionEstablished := by
  rcases a <;> exact ⟨nofun, nofun, nofun⟩

/-- **Every step** along the condition keeps the invariant, tears down what it removes, and
fails with none of the assertions on the way. -/
theorem step_fine (h : s.Inv) {i : ServerInput} (hi : s.tidy i = true) : s.Fine (s.step i) := by
  rcases i with ⟨l, wc⟩ | ⟨id, e⟩ | l | ⟨l, a⟩ | l | ⟨l, id, a⟩ | ⟨l, id, len⟩ | l | ⟨id, a⟩ |
    id | id | order | l | id
  · unfold step
    dsimp only
    split
    next hguard => exact newConnection_fine h hguard.1 hguard.2.2 wc
    next => exact h.fine_refl
  · unfold step
    dsimp only
    split
    · rcases e <;> exact call_step_fine h nofun nofun nofun nofun
    · exact h.fine_refl
  · unfold step
    dsimp only
    split
    next hidle =>
      have hbatch : (s.loops l).batch = [] := (of_decide_eq_true hidle).2
      have hsame : (s.loops l).pendingFunctors ++ [] = s.tasks l := by
        unfold tasks
        rw [hbatch, List.append_nil, List.nil_append]
      refine h.fine_of_eq (.setLoop rfl (fun y hy => Or.inl (hsame ▸ hy)) fun f hf => Or.inl hf)
        fun j => stay_congr rfl rfl (fun m _ => ?_) fun m _ => ?_
      · rw [tasks_setLoop]
        split_ifs with hm
        · rw [hsame, hm]
        · rfl
      · rw [frames_setLoop]
        split_ifs with hm
        · rw [hm]
        · rfl
    next => exact h.fine_refl
  · exact next_fine h hi
  · unfold step
    dsimp only
    split
    next hrest =>
      have hframes : (s.loops l).frames = [] := (of_decide_eq_true hrest).1
      have huser := h.fine_of_eq (.user s l) fun j => stay_user s l
      rwa [hframes] at huser
    next => exact h.fine_refl
  · unfold step
    dsimp only
    split
    next hguard =>
      obtain ⟨hdestroy, hremove, hestablish⟩ := toInput_ne (decide (s.loopOf id = some l)) a
      refine call_step_fine h (fun hread => ?_) hdestroy hremove hestablish
      obtain ⟨rfl, hl⟩ := startsRead_toInput hread
      have hl' := of_decide_eq_true hl
      simpa [tidy, hguard.1, hl'] using hi
    next => exact h.fine_refl
  · unfold step
    dsimp only
    split
    · exact call_step_fine h nofun nofun nofun nofun
    · exact h.fine_refl
  · unfold step
    dsimp only
    split
    next huser =>
      have hhead : (s.loops l).frames.head? = some .user := of_decide_eq_true huser
      refine h.fine_of_eq (.setFrames fun f hf => Or.inl (List.mem_of_mem_tail hf)) fun j =>
        stay_setFrames ?_
      rcases hf : (s.loops l).frames with _ | ⟨f, rest⟩
      · rfl
      · rw [hf, List.head?_cons, Option.some.injEq] at hhead
        rw [hhead, List.tail_cons, List.count_cons_of_ne (by simp)]
    next => exact h.fine_refl
  · unfold step
    dsimp only
    split
    · obtain ⟨hdestroy, hremove, hestablish⟩ := toInput_ne false a
      refine call_step_fine h (fun hread => ?_) hdestroy hremove hestablish
      exact nomatch (startsRead_toInput hread).2
    · exact h.fine_refl
  · unfold step
    dsimp only
    split
    next p hp =>
      split
      next hguard =>
        refine h.fine_of_ne id (.setPeer hp rfl) (fun j hj => ?_) fun w hw => ?_
        · exact stay_congr (List.getElem?_set_ne (Ne.symm hj)) rfl (fun _ _ => rfl) fun _ _ => rfl
        · have hv : s.stay id = some (s.stayOf id p) := stay_eq_some.mpr ⟨p, hp, rfl⟩
          obtain ⟨q, hq, rfl⟩ := stay_eq_some.mp hw
          rw [List.getElem?_set_self (List.getElem?_eq_some_iff.mp hp).1, Option.some.injEq] at hq
          subst hq
          exact ⟨_, hv, .of_eq ((h.sound id _ hv).halfClose hguard.2) (fun hs => nomatch hs) rfl⟩
      next => exact h.fine_refl
    next => exact h.fine_refl
  · unfold step
    dsimp only
    split
    · exact call_step_fine h nofun nofun nofun nofun
    · exact h.fine_refl
  · unfold step
    dsimp only
    split
    next hguard => exact destroyServer_fine h hguard.1 hguard.2.2
    next => exact h.fine_refl
  · unfold step
    dsimp only
    split
    next hguard =>
      have hidle := of_decide_eq_true hguard.1
      refine exit_fine h hidle.2 (fun p hp hl => ?_) _
      by_contra hremoved
      have hopen : ∃ p ∈ s.peers, p.loop = l ∧ p.removed = false :=
        ⟨p, hp, hl, by simpa using hremoved⟩
      exact of_decide_eq_true hi ⟨hguard.1, hguard.2, hopen⟩
    next => exact h.fine_refl
  · exact release_fine h

/-! ## Every run -/

/-- When the destructor has returned, what is not removed is on its way. -/
lemma Inv.good (h : s.Inv) : teardown.good s := by
  intro hdead id p hp
  have hv : s.stay id = some (s.stayOf id p) := stay_eq_some.mpr ⟨p, hp, rfl⟩
  have hsound := h.sound id _ hv
  rcases hr : p.removed
  · refine Or.inr ⟨rfl, ?_, ?_⟩
    · have hexited := h.exited id p.loop _ (loopOf_eq_some.mpr ⟨p, hp, rfl⟩) hv
      rcases he : (s.loops p.loop).exited
      · rfl
      · exact nomatch hr.symm.trans (hexited he)
    · by_contra hnone
      rw [not_or] at hnone
      have hentry : id ∉ s.connections := by
        rw [h.dead hdead]
        exact List.not_mem_nil
      have hremoved := hsound.removed_of_free (List.count_eq_zero.mpr hentry)
        (fun hmem => hnone.1 (List.mem_of_mem_filter hmem)) (List.count_eq_zero.mpr hnone.2)
      exact nomatch hr.symm.trans hremoved
  · have hclosed := hsound.leaving (Or.inr hr)
    exact Or.inl ⟨rfl, hclosed, hsound.down.trans (if_pos hclosed)⟩

/-- **The destructor tears every connection down**, and so does everything that comes to
`connectionDestroy`, in every run in which it is not entered on a half closed connection,
nobody starts to read from a closed one, and no loop is left before its connections. -/
theorem teardown_meets {is : List ServerInput}
    (htidy : machine.Along (fun s i => s.tidy i = true) start is) :
    machine.Meets teardown start is := by
  refine machine.meets_of_sound (I := Inv) (fun s h => h.good) ?_ start_inv htidy
  intro s i h hi
  have hfine := step_fine h hi
  change teardown.Sound _ s (s.step i)
  cases hstep : s.step i with
  | ok t => rwa [hstep] at hfine
  | error e => rwa [hstep] at hfine

/-- Two connections, one of them in a loop of the pool, which ends after it has run what the
destructor queued. -/
theorem teardown_meets_two : machine.Meets teardown start
    [.accept 0 false, .ret 0, .accept 1 false, .swap 1, .next 1 {}, .ret 1, .destroyServer [1, 0],
      .next 0 {}, .next 0 {}, .ret 0, .next 0 {}, .next 0 {}, .swap 1, .next 1 {}, .ret 1,
      .next 1 {}, .exit 1, .release 0, .release 1] :=
  teardown_meets (by decide +kernel)

/-- After `shutdown` the connection is still reading, and `connectionDestroy` neither closes it
nor takes its interest away before `remove`; without an interest it is removed half closed, DOWN
is never called, and its destructor fails.  A DOWN callback that starts to read has `remove`
fail as well, and so does a loop that is left with `connectionDestroy` in its queue. -/
theorem teardown_fails :
    machine.run start [.accept 0 false, .call 0 0 .shutdown, .ret 0, .destroyServer [0],
        .next 0 {}, .next 0 {}] = .error (.assertion .channelRemove) ∧
      machine.run start [.accept 0 false, .call 0 0 .stopRead, .call 0 0 .shutdown, .ret 0,
        .destroyServer [0], .next 0 {}, .next 0 {}, .next 0 {}, .release 0] =
        .error (.assertion .connectionDestructor) ∧
      machine.run start [.accept 0 false, .ret 0, .destroyServer [0], .next 0 {},
        .call 0 0 .startRead, .ret 0, .next 0 {}] = .error (.assertion .channelRemove) ∧
      machine.run start [.accept 1 false, .swap 1, .next 1 {}, .ret 1, .destroyServer [0],
        .next 0 {}, .next 0 {}, .exit 1, .release 0] =
        .error (.assertion .connectionDestructor) := by
  decide +kernel

end TcpServer

end Firey
