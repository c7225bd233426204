import Firey.Net.Closing
import Firey.Net.Teardown

/-!
# The server and its connections, across the loops

A connection that its loop closes tells the server: `closeCallback_` goes to the loop of the server,
where `removeConnectionInLoop` takes the entry out of the map and sends `connectionDestroy` back.
The destructor takes the entries itself.  A connection must leave the map by one of the two ways
only, for the first asserts that the entry is there, and is called on a server that must be there.

`Leaving` is what is on its way to the server, and the invariant is that of each connection exactly
one such message is on its way if it is closed and still in the map, and none otherwise.  The
destructor does not look for it: `in_service_iff` says that all goes well exactly as long as it
takes no connection that is closed already, and none is closed that it has taken, and nothing is
read from a connection that is not open.
-/

set_option autoImplicit false

namespace Firey

namespace TcpServer

open TcpConnection

/-! ## What is asked -/

/-- The loop of the connection is about to call `removeConnection`, or has sent it on. -/
def Leaving (s : TcpServer) (id : ConnId) (p : ServerConn) : Prop :=
  .closeCallback id ∈ (s.loops p.loop).frames ∨
    .removeConnectionInLoop id ∈ s.tasks serverLoop

/-- Each connection calls back along its life.  What is on its way to the server finds it there with
the entry, and an entry of a closed connection does not stay; a server that is gone has left none
behind. -/
structure InService (s : TcpServer) : Prop where
  life : ∀ (id : ConnId) (p : ServerConn), s.peers[id]? = some p → IsLife p.trace
  leaving : ∀ (id : ConnId) (p : ServerConn), s.peers[id]? = some p →
    (s.Leaving id p ↔ id ∈ s.connections ∧ p.conn.state = .kDisconnected)
  dead : s.phase = .dead → s.connections = []

/-- Every state is in service, and no step fails the assertion of `removeConnectionInLoop` or that
of `handleClose`. -/
def Serving : RunSpec TcpServer Fault where
  good := InService
  move _ _ := True
  stop e := e ≠ .assertion .removeConnectionInLoop ∧ e ≠ .assertion .handleClose

/-! ## The condition -/

/-- The connection is there and open. -/
def isOpen (s : TcpServer) (id : ConnId) : Bool :=
  s.peers[id]?.any fun p => !p.deleted && p.conn.isOpen

def isClosed (s : TcpServer) (id : ConnId) : Bool :=
  s.peers[id]?.any fun p => p.conn.state = .kDisconnected

/-- If the connection is closed now, the server still has it. -/
def MayClose (s : TcpServer) (id : ConnId) : Prop := s.isOpen id = true → id ∈ s.connections

instance (s : TcpServer) (id : ConnId) : Decidable (s.MayClose id) :=
  inferInstanceAs (Decidable (_ → _))

/-- The condition on the functor that is next. -/
def TaskInTurn (s : TcpServer) : ServerTask → Prop
  | .connection id .forceCloseInLoop => s.MayClose id
  | _ => True

/-- The condition on what a thread goes on with. -/
def NextInTurn (s : TcpServer) (l : LoopId) : Prop :=
  match (s.loops l).frames with
  | .destructor (id :: _) :: _ => id ∈ s.connections → s.isClosed id = false
  | [] =>
      match (s.loops l).batch with
      | [] => True
      | t :: _ => s.TaskInTurn t
  | _ => True

/-- Octets are read from open connections only; what the server does not have any more is not
closed; and the destructor takes no connection that is closed. -/
def InTurn (s : TcpServer) : ServerInput → Prop
  | .handleEvent id (.read (.got data)) =>
      s.live id = true ∧ (s.loopOf id).any s.idle = true →
        s.isOpen id = true ∧ (data = [] → id ∈ s.connections)
  | .call l id .forceClose =>
      s.inUser l = true ∧ s.live id = true ∧ s.loopOf id = some l → s.MayClose id
  | .delayOver id => id ∈ s.delayed ∧ (s.loopOf id).any s.idle = true → s.MayClose id
  | .next l _ => s.NextInTurn l
  | _ => True

instance (s : TcpServer) (t : ServerTask) : Decidable (s.TaskInTurn t) := by
  unfold TaskInTurn
  split <;> infer_instance

instance (s : TcpServer) (l : LoopId) : Decidable (s.NextInTurn l) := by
  unfold NextInTurn
  split
  · infer_instance
  · split <;> infer_instance
  · infer_instance

instance (s : TcpServer) (i : ServerInput) : Decidable (s.InTurn i) := by
  unfold InTurn
  split <;> infer_instance

/-! ## The invariant -/

/-- The messages about the connection that are on their way to the server. -/
def leavings (s : TcpServer) (id : ConnId) (l : LoopId) : ℕ :=
  (s.loops l).frames.count (.closeCallback id) +
    (s.tasks serverLoop).count (.removeConnectionInLoop id)

/-- A connection fits in with the map and with what is on its way. -/
structure Fit (s : TcpServer) (id : ConnId) (p : ServerConn) : Prop where
  conn : p.conn.Inv
  served : Served p.conn p.trace
  held : id ∈ s.connections → p.deleted = false
  leaving : s.leavings id p.loop =
    if id ∈ s.connections ∧ p.conn.state = .kDisconnected then 1 else 0

structure Running (s : TcpServer) : Prop where
  fit : ∀ (id : ConnId) (p : ServerConn), s.peers[id]? = some p → s.Fit id p
  frame : ∀ l id, .closeCallback id ∈ (s.loops l).frames → s.loopOf id = some l
  task : ∀ l id, .removeConnectionInLoop id ∈ s.tasks l → l = serverLoop ∧ s.loopOf id ≠ none
  destroy : ∀ l id, .connectionDestroy id ∈ s.tasks l → id ∉ s.connections ∧ s.loopOf id ≠ none
  known : ∀ id ∈ s.connections, s.loopOf id ≠ none
  destructor : ∀ l order, .destructor order ∈ (s.loops l).frames →
    s.phase ≠ .alive ∧ s.connections ⊆ order
  dead : s.phase = .dead → s.connections = []

variable {s t : TcpServer} {id j : ConnId} {l : LoopId} {p q : ServerConn}

lemma start_running : start.Running where
  fit id p hp := by simp [start] at hp
  frame l id h := by simp [start] at h
  task l id h := by simp [start, tasks] at h
  destroy l id h := by simp [start, tasks] at h
  known id h := by simp [start] at h
  destructor l order h := by simp [start] at h
  dead _ := rfl

lemma leaving_iff (id : ConnId) (p : ServerConn) : s.Leaving id p ↔ 0 < s.leavings id p.loop := by
  unfold Leaving leavings
  rw [Nat.add_pos_iff_pos_or_pos, List.count_pos_iff, List.count_pos_iff]

lemma Running.inService (h : s.Running) : s.InService where
  life id p hp := (h.fit id p hp).served.isLife
  leaving id p hp := by
    rw [leaving_iff, (h.fit id p hp).leaving]
    split
    next hboth => exact iff_of_true Nat.one_pos hboth
    next hboth => exact iff_of_false (Nat.lt_irrefl 0) hboth
  dead := h.dead

/-! ## What a step keeps -/

lemma Fit.congr (h : s.Fit id p) (hentry : id ∈ t.connections ↔ id ∈ s.connections)
    (hleaving : t.leavings id p.loop = s.leavings id p.loop) : t.Fit id p where
  conn := h.conn
  served := h.served
  held hid := h.held (hentry.mp hid)
  leaving := by
    rw [hleaving, h.leaving]
    simp only [hentry]

/-- **The general step.**  `Keeps` says what a step may add; the rest is that each connection fits
in again. -/
lemma Running.keeps (h : s.Running) (hk : s.Keeps t)
    (hfit : ∀ id p, t.peers[id]? = some p → t.Fit id p)
    (hframe : ∀ l id, .closeCallback id ∈ (t.loops l).frames → s.loopOf id = some l)
    (htask : ∀ l id, .removeConnectionInLoop id ∈ t.tasks l → l = serverLoop ∧ s.loopOf id ≠ none)
    (hdestroy : ∀ l id, .connectionDestroy id ∈ t.tasks l →
      id ∉ t.connections ∧ s.loopOf id ≠ none) : t.Running where
  fit := hfit
  frame l id hf := hk.loopOf ▸ hframe l id hf
  task l id hx := hk.loopOf ▸ htask l id hx
  destroy l id hx := hk.loopOf ▸ hdestroy l id hx
  known id hid := hk.loopOf ▸ h.known id (hk.connections hid)
  destructor l order hf := by
    obtain ⟨order', hf, horder⟩ := hk.destructor l order hf
    obtain ⟨hphase, hsub⟩ := h.destructor l order' hf
    exact ⟨hk.phase ▸ hphase, fun id hid => horder id hid (hsub (hk.connections hid))⟩
  dead hphase := List.eq_nil_of_subset_nil (h.dead (hk.phase ▸ hphase) ▸ hk.connections)

/-- The step only changes what the threads go on with, and sends nothing to the server. -/
structure Reschedules (s t : TcpServer) : Prop where
  keeps : s.Keeps t
  peers : t.peers = s.peers
  connections : t.connections = s.connections
  frames : ∀ l id, (t.loops l).frames.count (.closeCallback id) =
    (s.loops l).frames.count (.closeCallback id)
  removals : ∀ l id, (t.tasks l).count (.removeConnectionInLoop id) =
    (s.tasks l).count (.removeConnectionInLoop id)
  destroys : ∀ l id, .connectionDestroy id ∈ t.tasks l → .connectionDestroy id ∈ s.tasks l

lemma Reschedules.leavings (hr : s.Reschedules t) (id : ConnId) (l : LoopId) :
    t.leavings id l = s.leavings id l := by
  rw [TcpServer.leavings, hr.frames, hr.removals]
  rfl

lemma Running.reschedules (h : s.Running) (hr : s.Reschedules t) : t.Running := by
  refine h.keeps hr.keeps (fun id p hp => ?_) (fun l id hf => ?_) (fun l id hx => ?_)
    fun l id hx => ?_
  · rw [hr.peers] at hp
    exact (h.fit id p hp).congr (by rw [hr.connections]) (hr.leavings id p.loop)
  · rw [← List.count_pos_iff, hr.frames, List.count_pos_iff] at hf
    exact h.frame l id hf
  · rw [← List.count_pos_iff, hr.removals, List.count_pos_iff] at hx
    exact h.task l id hx
  · rw [hr.connections]
    exact h.destroy l id (hr.destroys l id hx)

/-- A loop goes on with other frames. -/
lemma Reschedules.setFrames {fs : List Frame} (hk : s.Keeps (s.setFrames l fs))
    (hcount : ∀ id, fs.count (.closeCallback id) = (s.loops l).frames.count (.closeCallback id)) :
    s.Reschedules (s.setFrames l fs) where
  keeps := hk
  peers := rfl
  connections := rfl
  frames m id := by
    rw [frames_setFrames]
    split_ifs with hm
    · rw [hm]
      exact hcount id
    · rfl
  removals m id := by rw [tasks_setFrames]
  destroys m id hx := tasks_setFrames s l m fs ▸ hx

lemma Reschedules.user (s : TcpServer) (l : LoopId) :
    s.Reschedules (s.setFrames l (.user :: (s.loops l).frames)) :=
  .setFrames (.user s l) fun _ => List.count_cons_of_ne (by simp)

/-- The frame on top returns. -/
lemma Reschedules.popFrame {f : Frame} {rest : List Frame} (hf : (s.loops l).frames = f :: rest)
    (hclose : ∀ id, f ≠ .closeCallback id) : s.Reschedules (s.setFrames l rest) := by
  refine .setFrames (.setFrames fun g hg => Or.inl ?_) fun id => ?_
  · rw [hf]
    exact List.mem_cons_of_mem _ hg
  · rw [hf, List.count_cons_of_ne (hclose id)]

/-- The functors of a loop change, and none of them is for the server. -/
lemma Reschedules.setLoop {x : LoopThread} (hk : s.Keeps (s.setLoop l x))
    (hframes : x.frames = (s.loops l).frames)
    (hcount : ∀ id, (x.batch ++ x.pendingFunctors).count (.removeConnectionInLoop id) =
      (s.tasks l).count (.removeConnectionInLoop id))
    (hdestroys : ∀ id, .connectionDestroy id ∈ x.batch ++ x.pendingFunctors →
      .connectionDestroy id ∈ s.tasks l) : s.Reschedules (s.setLoop l x) where
  keeps := hk
  peers := rfl
  connections := rfl
  frames m id := by
    rw [frames_setLoop]
    split_ifs with hm
    · rw [hm, hframes]
    · rfl
  removals m id := by
    rw [tasks_setLoop]
    split_ifs with hm
    · rw [hm]
      exact hcount id
    · rfl
  destroys m id hx := by
    rw [tasks_setLoop] at hx
    split_ifs at hx with hm
    · rw [hm]
      exact hdestroys id hx
    · exact hx

/-- A functor is taken from the batch. -/
lemma Reschedules.popBatch {x : ServerTask} {xs : List ServerTask}
    (hb : (s.loops l).batch = x :: xs) (hx : ∀ id, x ≠ .removeConnectionInLoop id) :
    s.Reschedules (s.setLoop l { s.loops l with batch := xs }) := by
  refine .setLoop (.popBatch hb) rfl (fun id => ?_) fun id hmem => ?_
  · unfold tasks
    rw [hb, List.cons_append, List.count_cons_of_ne (hx id)]
  · unfold tasks
    rw [hb]
    exact List.mem_cons_of_mem x hmem

lemma Reschedules.queueInLoop {x : ServerTask} (hloop : ∀ id, x.ofConn = some id →
    s.loopOf id = some l) (hremove : ∀ id, x ≠ .removeConnectionInLoop id)
    (hdestroy : ∀ id, x ≠ .connectionDestroy id) : s.Reschedules (s.queueInLoop l x) := by
  refine .setLoop (.queueInLoop hloop) rfl (fun id => ?_) fun id hmem => ?_
  · dsimp only
    rw [← List.append_assoc, List.count_append, List.count_singleton, if_neg]
    · rfl
    · simpa using hremove id
  · dsimp only at hmem
    rw [← List.append_assoc] at hmem
    rcases List.mem_append.mp hmem with hmem | hmem
    · exact hmem
    · exact absurd (List.mem_singleton.mp hmem).symm (hdestroy id)

/-! ## Calling a connection -/

lemma count_closeCallback_framesOf (id j : ConnId) (es : List Effect) :
    (framesOf id es).count (.closeCallback j) = if j = id then es.count .closeCallback else 0 := by
  induction es with
  | nil => simp [framesOf]
  | cons e es ih =>
    unfold framesOf at ih ⊢
    by_cases hj : j = id
    · subst hj
      rw [if_pos rfl] at ih ⊢
      cases e <;> simp [ih]
    · rw [if_neg hj] at ih ⊢
      cases e <;> simp [ih, Ne.symm hj]

lemma isOpen_eq (hp : s.peers[id]? = some p) :
    s.isOpen id = (!p.deleted && p.conn.isOpen) := by
  rw [isOpen, hp]
  rfl

/-- What a call must heed. -/
structure Allowed (s : TcpServer) (id : ConnId) (i : Input) : Prop where
  read : ∀ data, i = .handleRead (.got data) → s.isOpen id = true
  destroy : i = .connectionDestroy → id ∉ s.connections
  close : i.closes = true → s.MayClose id

/-- A call that delivers nothing, closes nothing and does not destroy. -/
def isPlain : Input → Bool
  | .handleRead (.got _) => false
  | .connectionDestroy => false
  | i => !i.closes

lemma allowed_of_plain {i : Input} (hi : isPlain i = true) : s.Allowed id i where
  read data he := by
    rw [he] at hi
    cases hi
  destroy he := by
    rw [he] at hi
    cases hi
  close hc := by
    unfold isPlain at hi
    split at hi
    · cases hi
    · cases hi
    · rw [hc] at hi
      cases hi

lemma tasks_exec (id : ConnId) (es : List Effect) (l m : LoopId) (x : ServerTask)
    (hx : x.ofConn ≠ some id) :
    ((s.setLoop l ((s.loops l).after id es)).tasks m).count x = (s.tasks m).count x := by
  rw [tasks_setLoop]
  split_ifs with hm
  · have hnone : (functorsOf id es).count x = 0 :=
      List.count_eq_zero.mpr fun hmem => hx (ofConn_of_mem_functorsOf hmem)
    unfold LoopThread.after
    dsimp only
    rw [← List.append_assoc, List.count_append, hnone, Nat.add_zero, hm]
    rfl
  · rfl

/-- A connection object that is gone is not called. -/
lemma there_of_exec {i : Input} (hexec : s.exec id i = .ok t) (hp : s.peers[id]? = some p) :
    p.deleted = false := by
  unfold exec at hexec
  rw [hp] at hexec
  dsimp only at hexec
  split at hexec
  · cases hexec
  next hdeleted => exact Bool.eq_false_iff.mpr hdeleted

/-- **A call of a member function**, by whatever thread. -/
lemma exec_running {i : Input} (h : s.Running) (hi : s.Allowed id i)
    (hexec : s.exec id i = .ok t) : t.Running := by
  have hk := Keeps.exec hexec
  rcases exec_eq_ok hexec with ⟨-, rfl⟩ | ⟨p, c, es, hp, hstep, rfl⟩
  · exact h
  have hfit := h.fit id p hp
  have hsum := step_summary hfit.conn hstep
  have hlt : id < s.peers.length := (List.getElem?_eq_some_iff.mp hp).1
  have hopen : s.isOpen id = p.conn.isOpen := by
    rw [isOpen_eq hp, there_of_exec hexec hp]
    rfl
  have hloop : s.loopOf id = some p.loop := loopOf_eq_some.mpr ⟨p, hp, rfl⟩
  have hframes (m : LoopId) (j : ConnId) :
      ((Function.update s.loops p.loop ((s.loops p.loop).after id es)) m).frames.count
          (.closeCallback j) =
        (s.loops m).frames.count (.closeCallback j) +
          if m = p.loop ∧ j = id then es.count .closeCallback else 0 := by
    have hset := frames_setLoop s p.loop m ((s.loops p.loop).after id es)
    unfold setLoop at hset
    rw [hset]
    by_cases hm : m = p.loop
    · unfold LoopThread.after
      rw [if_pos hm, List.count_append, count_closeCallback_framesOf, Nat.add_comm, hm]
      simp only [true_and]
    · rw [if_neg hm, if_neg fun hboth => hm hboth.1, Nat.add_zero]
  have htasks (m : LoopId) (x : ServerTask) (hx : x.ofConn ≠ some id) :=
    tasks_exec (s := s) id es p.loop m x hx
  refine h.keeps hk (fun j q hq => ?_) (fun m j hf => ?_) (fun m j hx => ?_) fun m j hx => ?_
  · have hleavings (m : LoopId) : leavings { s with
        peers := s.peers.set id (p.after i c es)
        loops := Function.update s.loops p.loop ((s.loops p.loop).after id es) } j m =
        s.leavings j m + if m = p.loop ∧ j = id then es.count .closeCallback else 0 := by
      have hremovals := htasks serverLoop (.removeConnectionInLoop j) (by simp [ServerTask.ofConn])
      unfold leavings
      rw [hframes, Nat.add_right_comm]
      exact congrArg (_ + · + _) hremovals
    by_cases hj : j = id
    · subst hj
      have hq : q = p.after i c es := by
        rw [List.getElem?_set_self hlt] at hq
        exact (Option.some.inj hq).symm
      subst hq
      refine ⟨hsum.inv, hfit.served.step hsum fun data hdata => ?_, hfit.held, ?_⟩
      · exact hopen ▸ hi.read data hdata
      · change leavings _ j p.loop = if j ∈ s.connections ∧ c.state = .kDisconnected then 1 else 0
        rw [hleavings, if_pos ⟨rfl, rfl⟩, hfit.leaving]
        rcases hsum.closing with ⟨hcount, hstate⟩ | ⟨hcount, ho, hclosed⟩ | ⟨hcount, ho, hdestroy⟩
        · simp only [hcount, hstate, Nat.add_zero]
        · -- The connection is closed, and the server is told.
          have hentry : j ∈ s.connections := by
            refine hi.close ?_ (hopen ▸ ho)
            by_contra hcloses
            refine stays_open hfit.conn ho (Bool.eq_false_iff.mpr hcloses) ?_ hstep hclosed
            rintro rfl
            exact absurd (hcount.symm.trans (count_of_destroy hstep)) (by decide)
          have hnot := ne_closed_of_isOpen ho
          rw [hcount, if_neg fun hboth => hnot hboth.2, if_pos ⟨hentry, hclosed⟩]
        · have hentry := hi.destroy hdestroy
          rw [hcount, if_neg fun hboth => hentry hboth.1, if_neg fun hboth => hentry hboth.1]
    · dsimp only at hq
      rw [List.getElem?_set_ne (Ne.symm hj)] at hq
      refine (h.fit j q hq).congr Iff.rfl ?_
      rw [hleavings, if_neg fun hboth => hj hboth.2, Nat.add_zero]
  · rw [← List.count_pos_iff, hframes] at hf
    by_cases hboth : m = p.loop ∧ j = id
    · rw [hboth.1, hboth.2]
      exact hloop
    · rw [if_neg hboth, Nat.add_zero, List.count_pos_iff] at hf
      exact h.frame m j hf
  · rw [← List.count_pos_iff] at hx
    have hcount := htasks m (.removeConnectionInLoop j) (by simp [ServerTask.ofConn])
    exact h.task m j (List.count_pos_iff.mp (hcount ▸ hx))
  · refine h.destroy m j ?_
    change _ ∈ (s.setLoop p.loop ((s.loops p.loop).after id es)).tasks m at hx
    rw [tasks_setLoop] at hx
    split_ifs at hx with hm
    · unfold LoopThread.after at hx
      dsimp only at hx
      rw [← List.append_assoc] at hx
      rw [hm]
      exact (List.mem_append.mp hx).resolve_right (Stay.destroy_notMem_functorsOf id j es)
    · exact hx

lemma exec_sound {u : TcpServer} {i : Input} (h : s.Running) (hi : s.Allowed id i) :
    Serving.Sound Running u (s.exec id i) := by
  cases hexec : s.exec id i with
  | ok t => exact ⟨exec_running h hi hexec, trivial⟩
  | error e =>
    unfold exec at hexec
    cases hp : s.peers[id]? with
    | none =>
      rw [hp] at hexec
      cases hexec
    | some p =>
      rw [hp] at hexec
      dsimp only at hexec
      split at hexec
      · cases hexec
        exact ⟨by decide, by decide⟩
      · cases hstep : p.conn.step i with
        | ok r =>
          rw [hstep, ok_bind] at hexec
          cases hexec
        | error e' =>
          rw [hstep, error_bind] at hexec
          cases hexec
          cases step_failure (h.fit id p hp).conn hstep with
          | handleClose hread ho =>
            have hopen := hi.read [] hread
            rw [isOpen_eq hp, ho, Bool.and_false] at hopen
            cases hopen
          | sendInLoop => exact ⟨by decide, by decide⟩
          | connectionEstablished => exact ⟨by decide, by decide⟩
          | channelRemove => exact ⟨by decide, by decide⟩
          | removeChannel => exact ⟨by decide, by decide⟩
          | retrieve => exact ⟨by decide, by decide⟩

/-! ## The two ways out of the map -/

/-- **An entry is taken out of the map**, and no message about the connection is on its way. -/
lemma Running.erase (h : s.Running) (hk : s.Keeps t) (hpeers : t.peers = s.peers)
    (hentries : t.connections = s.connections.filter (· ≠ id))
    (hleavings : ∀ j p, s.peers[j]? = some p →
      t.leavings j p.loop = if j = id then 0 else s.leavings j p.loop)
    (hframes : ∀ l j, .closeCallback j ∈ (t.loops l).frames →
      .closeCallback j ∈ (s.loops l).frames)
    (htasks : ∀ l, t.tasks l ⊆ s.tasks l) : t.Running := by
  have hentry (j : ConnId) (hj : j ≠ id) : j ∈ t.connections ↔ j ∈ s.connections := by
    rw [hentries, List.mem_filter]
    exact and_iff_left (decide_eq_true hj)
  have hgone : id ∉ t.connections := by
    rw [hentries, List.mem_filter]
    exact fun hmem => of_decide_eq_true hmem.2 rfl
  refine h.keeps hk (fun j p hp => ?_) (fun l j hf => ?_) (fun l j hx => ?_) fun l j hx => ?_
  · rw [hpeers] at hp
    have hfit := h.fit j p hp
    have hleft := hleavings j p hp
    by_cases hj : j = id
    · subst hj
      rw [if_pos rfl] at hleft
      refine ⟨hfit.conn, hfit.served, fun hmem => absurd hmem hgone, ?_⟩
      rw [hleft, if_neg fun hboth => hgone hboth.1]
    · rw [if_neg hj] at hleft
      exact hfit.congr (hentry j hj) hleft
  · exact h.frame l j (hframes l j hf)
  · exact h.task l j (htasks l hx)
  · obtain ⟨hnot, hknown⟩ := h.destroy l j (htasks l hx)
    exact ⟨fun hmem => hnot (hk.connections hmem), hknown⟩

lemma leavings_queueInLoop (s : TcpServer) (l : LoopId) (x : ServerTask) (j : ConnId)
    (m : LoopId) : (s.queueInLoop l x).leavings j m = s.leavings j m +
      if l = serverLoop ∧ x = .removeConnectionInLoop j then 1 else 0 := by
  have hframes : ((s.queueInLoop l x).loops m).frames = (s.loops m).frames := by
    unfold queueInLoop
    rw [frames_setLoop]
    split_ifs with hm
    · rw [hm]
    · rfl
  have htasks : (s.queueInLoop l x).tasks serverLoop =
      s.tasks serverLoop ++ if l = serverLoop then [x] else [] := by
    unfold queueInLoop
    rw [tasks_setLoop]
    by_cases hl : l = serverLoop
    · rw [if_pos hl.symm, if_pos hl, ← List.append_assoc, hl]
      rfl
    · rw [if_neg (Ne.symm hl), if_neg hl, List.append_nil]
  unfold leavings
  rw [hframes, htasks, List.count_append, ← Nat.add_assoc]
  congr 1
  by_cases hl : l = serverLoop
  · rw [if_pos hl, List.count_singleton]
    simp only [hl, true_and, beq_iff_eq]
  · rw [if_neg hl, if_neg fun hboth => hl hboth.1, List.count_nil]

/-- `connectionDestroy` is sent to the loop of a connection that the map does not hold. -/
lemma Running.queueDestroy (h : s.Running) (hid : id ∉ s.connections)
    (hl : s.loopOf id = some l) : (s.queueInLoop l (.connectionDestroy id)).Running := by
  have hk : s.Keeps (s.queueInLoop l (.connectionDestroy id)) :=
    .queueInLoop fun j hj => Option.some.inj hj ▸ hl
  have hmem (m : LoopId) (x : ServerTask)
      (hx : x ∈ (s.queueInLoop l (.connectionDestroy id)).tasks m) :
      x ∈ s.tasks m ∨ x = .connectionDestroy id := by
    unfold queueInLoop at hx
    rw [tasks_setLoop] at hx
    split_ifs at hx with hm
    · rw [← List.append_assoc] at hx
      rcases List.mem_append.mp hx with hx | hx
      · exact Or.inl (hm ▸ hx)
      · exact Or.inr (List.mem_singleton.mp hx)
    · exact Or.inl hx
  refine h.keeps hk (fun j p hp => ?_) (fun m j hf => ?_) (fun m j hx => ?_) fun m j hx => ?_
  · refine (h.fit j p hp).congr Iff.rfl ?_
    rw [leavings_queueInLoop, if_neg (by simp), Nat.add_zero]
  · refine h.frame m j ?_
    unfold queueInLoop at hf
    rw [frames_setLoop] at hf
    split_ifs at hf with hm
    · rw [hm]
      exact hf
    · exact hf
  · exact h.task m j ((hmem m _ hx).resolve_right (by simp))
  · rcases hmem m _ hx with hx | hx
    · exact h.destroy m j hx
    · cases hx
      exact ⟨hid, by rw [hl]; simp⟩

/-- A message about `id` is taken up, from the frames of its loop or from the loop of the server. -/
structure TakesUp (s t : TcpServer) (id : ConnId) : Prop where
  keeps : s.Keeps t
  peers : t.peers = s.peers
  connections : t.connections = s.connections
  known : s.loopOf id ≠ none
  leavings : ∀ j p, s.peers[j]? = some p →
    t.leavings j p.loop + (if j = id then 1 else 0) = s.leavings j p.loop
  frames : ∀ l, (t.loops l).frames ⊆ (s.loops l).frames
  tasks : ∀ l, t.tasks l ⊆ s.tasks l

/-- **Whatever is on its way to the server finds the entry**, of a closed connection. -/
lemma TakesUp.finds (hu : s.TakesUp t id) (h : s.Running) (hp : s.peers[id]? = some p) :
    id ∈ s.connections ∧ p.conn.state = .kDisconnected ∧ t.leavings id p.loop = 0 := by
  have hleavings := hu.leavings id p hp
  have hfit := (h.fit id p hp).leaving
  rw [if_pos rfl] at hleavings
  by_cases hboth : id ∈ s.connections ∧ p.conn.state = .kDisconnected
  · rw [if_pos hboth] at hfit
    exact ⟨hboth.1, hboth.2, by omega⟩
  · rw [if_neg hboth] at hfit
    omega

lemma TakesUp.peer (hu : s.TakesUp t id) : ∃ p, s.peers[id]? = some p := by
  cases hl : s.loopOf id with
  | none => exact absurd hl hu.known
  | some l =>
    obtain ⟨p, hp, -⟩ := loopOf_eq_some.mp hl
    exact ⟨p, hp⟩

lemma removeConnectionInLoop_sound {u : TcpServer} (h : s.Running) (hu : s.TakesUp t id) :
    Serving.Sound Running u (t.removeConnectionInLoop id) := by
  obtain ⟨p, hp⟩ := hu.peer
  obtain ⟨hentry, -, hnone⟩ := hu.finds h hp
  have hphase : ¬ t.phase = .dead := by
    intro hdead
    rw [h.dead (hu.keeps.phase ▸ hdead)] at hentry
    cases hentry
  have hl : t.loopOf id = some p.loop := hu.keeps.loopOf ▸ loopOf_eq_some.mpr ⟨p, hp, rfl⟩
  have herased : Running { t with connections := t.connections.filter (· ≠ id) } := by
    refine @Running.erase s _ id h (hu.keeps.trans (.erase t id)) hu.peers ?_ (fun j q hq => ?_)
      (fun l j hf => hu.frames l hf) hu.tasks
    · dsimp only
      rw [hu.connections]
    · change t.leavings j q.loop = _
      have hleavings := hu.leavings j q hq
      by_cases hj : j = id
      · subst hj
        rw [hp] at hq
        cases hq
        rw [if_pos rfl]
        exact hnone
      · rw [if_neg hj, Nat.add_zero] at hleavings
        rw [if_neg hj, hleavings]
  unfold removeConnectionInLoop
  rw [if_neg hphase, check_true (hu.connections ▸ hentry), ok_bind, hl]
  refine ⟨herased.queueDestroy ?_ hl, trivial⟩
  dsimp only
  rw [List.mem_filter]
  exact fun hmem => of_decide_eq_true hmem.2 rfl

lemma removeConnection_sound {u : TcpServer} (h : s.Running) (hu : s.TakesUp t id) (l : LoopId) :
    Serving.Sound Running u (t.removeConnection l id) := by
  unfold removeConnection
  split
  · exact removeConnectionInLoop_sound h hu
  refine ⟨?_, trivial⟩
  have hk : t.Keeps (t.queueInLoop serverLoop (.removeConnectionInLoop id)) :=
    .queueInLoop fun j hj => by simp [ServerTask.ofConn] at hj
  have hmem (m : LoopId) (x : ServerTask)
      (hx : x ∈ (t.queueInLoop serverLoop (.removeConnectionInLoop id)).tasks m) :
      x ∈ s.tasks m ∨ x = .removeConnectionInLoop id ∧ m = serverLoop := by
    unfold queueInLoop at hx
    rw [tasks_setLoop] at hx
    split_ifs at hx with hm
    · rw [← List.append_assoc] at hx
      rcases List.mem_append.mp hx with hx | hx
      · exact Or.inl (hu.tasks m (hm ▸ hx))
      · exact Or.inr ⟨List.mem_singleton.mp hx, hm⟩
    · exact Or.inl (hu.tasks m hx)
  refine h.keeps (hu.keeps.trans hk) (fun j p hp => ?_) (fun m j hf => ?_) (fun m j hx => ?_)
    fun m j hx => ?_
  · change t.peers[j]? = some p at hp
    rw [hu.peers] at hp
    refine (h.fit j p hp).congr ?_ ?_
    · change j ∈ t.connections ↔ _
      rw [hu.connections]
    · rw [leavings_queueInLoop, ← hu.leavings j p hp]
      congr 1
      simp only [true_and, ServerTask.removeConnectionInLoop.injEq, eq_comm]
  · refine h.frame m j (hu.frames m ?_)
    unfold queueInLoop at hf
    rw [frames_setLoop] at hf
    split_ifs at hf with hm
    · rw [hm]
      exact hf
    · exact hf
  · rcases hmem m _ hx with hx | ⟨hx, hm⟩
    · exact h.task m j hx
    · cases hx
      exact ⟨hm, hu.known⟩
  · change j ∉ t.connections ∧ _
    rw [hu.connections]
    exact h.destroy m j ((hmem m _ hx).resolve_right (by simp))

/-- The rest of `handleClose`. -/
lemma Running.popClose {rest : List Frame} (h : s.Running)
    (hf : (s.loops l).frames = .closeCallback id :: rest) : s.TakesUp (s.setFrames l rest) id := by
  have hl : s.loopOf id = some l := h.frame l id (by rw [hf]; exact List.mem_cons_self)
  have hsub : rest ⊆ (s.loops l).frames := by
    rw [hf]
    exact List.subset_cons_self _ _
  refine ⟨.setFrames fun f hmem => Or.inl (hsub hmem), rfl, rfl, by rw [hl]; simp,
    fun j p hp => ?_, fun m => ?_, fun m => ?_⟩
  · unfold leavings
    rw [tasks_setFrames, frames_setFrames]
    by_cases hm : p.loop = l
    · rw [if_pos hm, hm, hf, List.count_cons]
      simp only [beq_iff_eq, Frame.closeCallback.injEq, eq_comm (a := id)]
      omega
    · have hj : j ≠ id := by
        rintro rfl
        obtain ⟨q, hq, hloop⟩ := loopOf_eq_some.mp hl
        rw [hp] at hq
        cases hq
        exact hm hloop
      rw [if_neg hm, if_neg hj, Nat.add_zero]
  · rw [frames_setFrames]
    split_ifs with hm
    · rw [hm]
      exact hsub
    · exact List.Subset.refl _
  · rw [tasks_setFrames]
    exact List.Subset.refl _

/-- A functor of `removeConnection` is taken from the batch, and it is that of the server. -/
lemma Running.popRemoval {xs : List ServerTask} (h : s.Running)
    (hb : (s.loops l).batch = .removeConnectionInLoop id :: xs) :
    s.TakesUp (s.setLoop l { s.loops l with batch := xs }) id := by
  have htasks : s.tasks l = .removeConnectionInLoop id :: (xs ++ (s.loops l).pendingFunctors) := by
    unfold tasks
    rw [hb]
    rfl
  obtain ⟨hl, hknown⟩ := h.task l id (by rw [htasks]; exact List.mem_cons_self)
  refine ⟨.popBatch hb, rfl, rfl, hknown, fun j p _ => ?_, fun m => ?_, fun m => ?_⟩
  · have hframes : ((s.setLoop l { s.loops l with batch := xs }).loops p.loop).frames =
        (s.loops p.loop).frames := by
      rw [frames_setLoop]
      split_ifs with hm
      · rw [hm]
      · rfl
    unfold leavings
    rw [hframes, tasks_setLoop, if_pos hl.symm, ← hl, htasks, List.count_cons]
    simp only [beq_iff_eq, ServerTask.removeConnectionInLoop.injEq, eq_comm (a := id)]
    omega
  · rw [frames_setLoop]
    split_ifs with hm
    · rw [hm]
      exact List.Subset.refl _
    · exact List.Subset.refl _
  · rw [tasks_setLoop]
    split_ifs with hm
    · rw [hm, htasks]
      exact List.subset_cons_self _ _
    · exact List.Subset.refl _

lemma isClosed_eq (hp : s.peers[id]? = some p) :
    s.isClosed id = decide (p.conn.state = .kDisconnected) := by
  rw [isClosed, hp]
  rfl

/-- **The destructor takes a connection** that is not closed. -/
lemma destructNext_sound {u : TcpServer} {ids : List ConnId} {rest : List Frame} (h : s.Running)
    (hf : (s.loops l).frames = .destructor (id :: ids) :: rest) (hmem : id ∈ s.connections)
    (hclosed : s.isClosed id = false) :
    Serving.Sound Running u ((s.setFrames l (.destructor ids :: rest)).destructNext id) := by
  obtain ⟨t, ht⟩ : ∃ t, t = ({ s with connections := s.connections.filter (· ≠ id) } :
    TcpServer).setFrames l (.destructor ids :: rest) := ⟨_, rfl⟩
  have hk : s.Keeps t := ht ▸ (Keeps.erase s id).trans (.passOver hf (by simp))
  have hcount (m : LoopId) (j : ConnId) : (t.loops m).frames.count (.closeCallback j) =
      (s.loops m).frames.count (.closeCallback j) := by
    rw [ht, frames_setFrames]
    split_ifs with hm
    · rw [hm, hf, List.count_cons_of_ne (by simp), List.count_cons_of_ne (by simp)]
    · rfl
  have htasks (m : LoopId) : t.tasks m = s.tasks m := by
    rw [ht, tasks_setFrames]
    rfl
  have hleavings (j : ConnId) (m : LoopId) : t.leavings j m = s.leavings j m := by
    unfold leavings
    rw [hcount, htasks]
  have hentries : t.connections = s.connections.filter (· ≠ id) := by
    rw [ht]
    rfl
  have hgone : id ∉ t.connections := by
    rw [hentries, List.mem_filter]
    exact fun hmem => of_decide_eq_true hmem.2 rfl
  have herased : t.Running := by
    refine @Running.erase s t id h hk (by rw [ht]; rfl) hentries (fun j p hp => ?_) (fun m j hj => ?_)
      fun m => by rw [htasks]; exact List.Subset.refl _
    · rw [hleavings]
      by_cases hj : j = id
      · subst hj
        rw [isClosed_eq hp, decide_eq_false_iff_not] at hclosed
        rw [if_pos rfl, (h.fit j p hp).leaving, if_neg fun hboth => hclosed hboth.2]
      · rw [if_neg hj]
    · rw [← List.count_pos_iff, hcount, List.count_pos_iff] at hj
      exact hj
  cases hm : s.loopOf id with
  | none => exact absurd hm (h.known id hmem)
  | some m =>
    by_cases hserver : m = serverLoop
    · subst hserver
      have hnext : (s.setFrames l (.destructor ids :: rest)).destructNext id =
          t.exec id .connectionDestroy := ht ▸ destructNext_here hm
      rw [hnext]
      exact exec_sound herased ⟨fun data hi => Input.noConfusion hi, fun _ => hgone,
        fun hi => Bool.noConfusion hi⟩
    · have hnext : (s.setFrames l (.destructor ids :: rest)).destructNext id =
          .ok (t.queueInLoop m (.connectionDestroy id)) := ht ▸ destructNext_away hm hserver
      rw [hnext]
      exact ⟨herased.queueDestroy hgone (hk.loopOf ▸ hm), trivial⟩

/-! ## Connections that come and go -/

/-- A connection is accepted. -/
lemma Running.accept (h : s.Running) (halive : s.phase = .alive) (l : LoopId)
    (writeComplete : Bool) : Running { s with
      peers := s.peers ++ [⟨{ ctor with writeCompleteCallback := writeComplete }, l, [], false,
        false⟩]
      connections := s.peers.length :: s.connections } := by
  have hinv : ({ ctor with writeCompleteCallback := writeComplete } : TcpConnection).Inv :=
    ctor_inv.of_frame ctor_inv.input_wf rfl ctor_inv.channel_ok rfl Iff.rfl
  have hfresh := loopOf_length s
  obtain ⟨t, ht⟩ : ∃ t : TcpServer, t = { s with
      peers := s.peers ++ [⟨{ ctor with writeCompleteCallback := writeComplete }, l, [], false,
        false⟩]
      connections := s.peers.length :: s.connections } := ⟨_, rfl⟩
  have hold (j : ConnId) (hj : j < s.peers.length) : t.peers[j]? = s.peers[j]? := by
    rw [ht]
    exact List.getElem?_append_left hj
  have hknown {j : ConnId} {m : LoopId} (hm : s.loopOf j = some m) : t.loopOf j = some m := by
    obtain ⟨p, hp, hloop⟩ := loopOf_eq_some.mp hm
    exact loopOf_eq_some.mpr ⟨p, (hold j (List.getElem?_eq_some_iff.mp hp).1).trans hp, hloop⟩
  have hknown' {j : ConnId} (hj : s.loopOf j ≠ none) : t.loopOf j ≠ none := by
    cases hm : s.loopOf j with
    | none => exact absurd hm hj
    | some m =>
      rw [hknown hm]
      simp
  have hne {j : ConnId} (hj : s.loopOf j ≠ none) : j ≠ s.peers.length := by
    rintro rfl
    exact hj hfresh
  have hconnections : t.connections = s.peers.length :: s.connections := by rw [ht]
  have hloops : t.loops = s.loops := by rw [ht]
  have hphase : t.phase = .alive := by rw [ht, halive]
  have htasks (m : LoopId) : t.tasks m = s.tasks m := by
    unfold tasks
    rw [hloops]
  have hleavings (j : ConnId) (m : LoopId) : t.leavings j m = s.leavings j m := by
    unfold leavings
    rw [hloops, htasks]
  rw [← ht]
  refine ⟨fun j p hp => ?_, fun m j hf => ?_, fun m j hx => ?_, fun m j hx => ?_, fun j hj => ?_,
    fun m order hf => ?_, fun hdead => ?_⟩
  · by_cases hj : j < s.peers.length
    · rw [hold j hj] at hp
      refine (h.fit j p hp).congr ?_ (hleavings j p.loop)
      rw [hconnections, List.mem_cons]
      exact or_iff_right (Nat.ne_of_lt hj)
    · have hp' : p = ⟨{ ctor with writeCompleteCallback := writeComplete }, l, [], false,
          false⟩ := by
        rw [ht, List.getElem?_append_right (Nat.not_lt.mp hj), List.getElem?_singleton] at hp
        split_ifs at hp
        exact (Option.some.inj hp).symm
      have hj' : j = s.peers.length := by
        have hlt := (List.getElem?_eq_some_iff.mp hp).1
        have hlength : t.peers.length = s.peers.length + 1 := by
          rw [ht]
          exact List.length_append
        rw [hlength] at hlt
        exact Nat.le_antisymm (Nat.lt_succ_iff.mp hlt) (Nat.not_lt.mp hj)
      subst hp' hj'
      refine ⟨hinv, .fresh rfl, fun _ => rfl, ?_⟩
      rw [hleavings, if_neg fun hboth => ConnState.noConfusion hboth.2]
      unfold leavings
      rw [Nat.add_eq_zero_iff, List.count_eq_zero, List.count_eq_zero]
      constructor
      · intro hf
        have hl := h.frame l _ hf
        rw [hfresh] at hl
        cases hl
      · exact fun hx => (h.task _ _ hx).2 hfresh
  · exact hknown (h.frame m j (hloops ▸ hf))
  · obtain ⟨hm, hj⟩ := h.task m j (htasks m ▸ hx)
    exact ⟨hm, hknown' hj⟩
  · obtain ⟨hnot, hj⟩ := h.destroy m j (htasks m ▸ hx)
    rw [hconnections, List.mem_cons, not_or]
    exact ⟨⟨hne hj, hnot⟩, hknown' hj⟩
  · rw [hconnections, List.mem_cons] at hj
    rcases hj with rfl | hj
    · have hself : t.loopOf s.peers.length = some l := by
        unfold loopOf
        rw [ht, List.getElem?_concat_length]
        rfl
      rw [hself]
      simp
    · exact hknown' (h.known j hj)
  · exact absurd halive (h.destructor m order (hloops ▸ hf)).1
  · rw [hphase] at hdead
    cases hdead

/-- A connection object is put into another state. -/
lemma Running.setPeer (h : s.Running) {ids : List ConnId} (hp : s.peers[id]? = some p)
    (hq : s.Fit id q) (hloop : q.loop = p.loop) :
    Running { s with peers := s.peers.set id q, delayed := ids } := by
  refine h.keeps (.setPeer hp hloop) (fun j r hr => ?_) h.frame h.task h.destroy
  by_cases hj : j = id
  · subst hj
    dsimp only at hr
    rw [List.getElem?_set_self (List.getElem?_eq_some_iff.mp hp).1] at hr
    cases hr
    exact hq.congr Iff.rfl rfl
  · dsimp only at hr
    rw [List.getElem?_set_ne (Ne.symm hj)] at hr
    exact (h.fit j r hr).congr Iff.rfl rfl

/-- What is looked at stays. -/
lemma Running.of_eq (h : s.Running) (hpeers : t.peers = s.peers)
    (hentries : t.connections = s.connections) (hphase : t.phase = s.phase)
    (hframes : ∀ l, (t.loops l).frames = (s.loops l).frames) (htasks : ∀ l, t.tasks l = s.tasks l) :
    t.Running := by
  have hloopOf : t.loopOf = s.loopOf := by
    funext j
    unfold loopOf
    rw [hpeers]
  refine ⟨fun j p hp => ?_, fun l j hf => ?_, fun l j hx => ?_, fun l j hx => ?_, fun j hj => ?_,
    fun l order hf => ?_, fun hdead => ?_⟩
  · refine (h.fit j p (hpeers ▸ hp)).congr (by rw [hentries]) ?_
    unfold leavings
    rw [hframes, htasks]
  · exact hloopOf ▸ h.frame l j (hframes l ▸ hf)
  · exact hloopOf ▸ h.task l j (htasks l ▸ hx)
  · rw [hentries, hloopOf]
    exact h.destroy l j (htasks l ▸ hx)
  · exact hloopOf ▸ h.known j (hentries ▸ hj)
  · rw [hphase, hentries]
    exact h.destructor l order (hframes l ▸ hf)
  · rw [hentries]
    exact h.dead (hphase ▸ hdead)

/-- The destructor is done with the map. -/
lemma Running.setPhase (h : s.Running) (hnone : s.connections = []) :
    Running { s with phase := .dead } where
  fit j p hp := (h.fit j p hp).congr Iff.rfl rfl
  frame := h.frame
  task := h.task
  destroy := h.destroy
  known := h.known
  destructor l order hf := ⟨fun hf => ServerPhase.noConfusion hf, (h.destructor l order hf).2⟩
  dead _ := hnone

/-- The destructor is entered. -/
lemma Running.destroyServer (h : s.Running) (halive : s.phase = .alive) {order : List ConnId}
    (horder : order.Perm s.connections) : Running
      { s.setFrames serverLoop (.destructor order :: (s.loops serverLoop).frames) with
        phase := .destructing } := by
  obtain ⟨t, ht⟩ : ∃ t, t = s.setFrames serverLoop
    (.destructor order :: (s.loops serverLoop).frames) := ⟨_, rfl⟩
  have hcount (m : LoopId) (j : ConnId) : (t.loops m).frames.count (.closeCallback j) =
      (s.loops m).frames.count (.closeCallback j) := by
    rw [ht, frames_setFrames]
    split_ifs with hm
    · rw [hm, List.count_cons_of_ne (by simp)]
    · rfl
  have htasks (m : LoopId) : t.tasks m = s.tasks m := by rw [ht, tasks_setFrames]
  have hpeers : t.peers = s.peers := by rw [ht]; rfl
  have hloopOf : t.loopOf = s.loopOf := by rw [ht]; rfl
  have hentries : t.connections = s.connections := by rw [ht]; rfl
  rw [← ht]
  refine ⟨fun j p hp => ?_, fun m j hf => ?_, fun m j hx => ?_, fun m j hx => ?_, fun j hj => ?_,
    fun m order' hf => ⟨fun hf => ServerPhase.noConfusion hf, ?_⟩,
    fun hdead => ServerPhase.noConfusion hdead⟩
  · change t.peers[j]? = some p at hp
    refine (h.fit j p (hpeers ▸ hp)).congr ?_ ?_
    · change j ∈ t.connections ↔ _
      rw [hentries]
    · change t.leavings j p.loop = _
      unfold leavings
      rw [hcount, htasks]
  · change _ ∈ (t.loops m).frames at hf
    rw [← List.count_pos_iff, hcount, List.count_pos_iff] at hf
    exact hloopOf ▸ h.frame m j hf
  · exact hloopOf ▸ h.task m j (htasks m ▸ hx)
  · change j ∉ t.connections ∧ t.loopOf j ≠ none
    rw [hentries, hloopOf]
    exact h.destroy m j (htasks m ▸ hx)
  · exact hloopOf ▸ h.known j (hentries ▸ hj)
  · change t.connections ⊆ order'
    change _ ∈ (t.loops m).frames at hf
    rw [hentries]
    rw [ht, frames_setFrames] at hf
    split_ifs at hf with hm
    · rcases List.mem_cons.mp hf with hf | hf
      · cases hf
        exact fun j hj => horder.mem_iff.mpr hj
      · exact absurd halive (h.destructor serverLoop order' hf).1
    · exact absurd halive (h.destructor m order' hf).1

/-- **A loop is left** with no message to the server. -/
lemma Running.exit (h : s.Running) (hbatch : (s.loops l).batch = [])
    (hdead : l = serverLoop → s.phase = .dead) (ids : List ConnId) : Running
      { s.setLoop l { s.loops l with pendingFunctors := [], exited := true } with
        delayed := ids } := by
  have hnone (j : ConnId) : .removeConnectionInLoop j ∉ s.tasks l := by
    intro hx
    obtain ⟨hl, hknown⟩ := h.task l j hx
    cases hm : s.loopOf j with
    | none => exact hknown hm
    | some m =>
      obtain ⟨p, hp, -⟩ := loopOf_eq_some.mp hm
      have hfit := (h.fit j p hp).leaving
      have hempty := h.dead (hdead hl)
      rw [hempty, if_neg fun hboth => List.not_mem_nil hboth.1] at hfit
      unfold leavings at hfit
      rw [← hl] at hfit
      exact List.count_eq_zero.mp (Nat.eq_zero_of_add_eq_zero_left hfit) hx
  have hdrained : (s.setLoop l { s.loops l with pendingFunctors := [] }).Running := by
    refine h.reschedules (.setLoop (.setLoop rfl (fun y hy => ?_) fun f hf => Or.inl hf) rfl
      (fun j => ?_) fun j hx => ?_)
    · dsimp only at hy
      rw [hbatch, List.append_nil] at hy
      exact absurd hy List.not_mem_nil
    · dsimp only
      rw [hbatch, List.append_nil, List.count_nil, eq_comm, List.count_eq_zero]
      exact hnone j
    · dsimp only at hx
      rw [hbatch, List.append_nil] at hx
      exact absurd hx List.not_mem_nil
  refine hdrained.of_eq rfl rfl rfl (fun m => ?_) fun m => ?_
  · change ((s.setLoop l _).loops m).frames = _
    rw [frames_setLoop, frames_setLoop]
  · change (s.setLoop l _).tasks m = _
    rw [tasks_setLoop, tasks_setLoop]

/-! ## Every step -/

/-- A functor is called. -/
lemma runTask_sound {u : TcpServer} {x : ServerTask} {xs : List ServerTask} (h : s.Running)
    (hb : (s.loops l).batch = x :: xs) (a : Answers) (hi : s.TaskInTurn x) :
    Serving.Sound Running u ((s.setLoop l { s.loops l with batch := xs }).runTask l a x) := by
  have hmem : x ∈ s.tasks l := by
    unfold tasks
    rw [hb]
    exact List.mem_cons_self
  have hpop (hx : ∀ id, x ≠ .removeConnectionInLoop id) :
      (s.setLoop l { s.loops l with batch := xs }).Running := h.reschedules (.popBatch hb hx)
  cases x with
  | connectionEstablished id =>
    exact exec_sound (hpop fun j hj => ServerTask.noConfusion hj)
      (allowed_of_plain rfl)
  | connectionDestroy id =>
    refine exec_sound (hpop fun j hj => ServerTask.noConfusion hj) ?_
    exact ⟨fun data hd => Input.noConfusion hd, fun _ => (h.destroy l id hmem).1,
      fun hd => Bool.noConfusion hd⟩
  | removeConnectionInLoop id => exact removeConnectionInLoop_sound h (h.popRemoval hb)
  | connection id f =>
    have hrunning := hpop fun j hj => ServerTask.noConfusion hj
    cases f with
    | forceCloseInLoop =>
      refine exec_sound hrunning ?_
      exact ⟨fun data hd => Input.noConfusion hd, fun hd => Input.noConfusion hd, fun _ => hi⟩
    | sendInLoop len => exact exec_sound hrunning (allowed_of_plain rfl)
    | shutdownInLoop => exact exec_sound hrunning (allowed_of_plain rfl)
    | startReadInLoop => exact exec_sound hrunning (allowed_of_plain rfl)
    | stopReadInLoop => exact exec_sound hrunning (allowed_of_plain rfl)
    | writeComplete => exact ⟨hrunning.reschedules (.user _ l), trivial⟩
    | highWater => exact ⟨hrunning.reschedules (.user _ l), trivial⟩

/-- A thread goes on. -/
lemma next_sound {u : TcpServer} (h : s.Running) (a : Answers) (hi : s.NextInTurn l) :
    Serving.Sound Running u (s.next l a) := by
  unfold next
  unfold NextInTurn at hi
  rcases hf : (s.loops l).frames with _ | ⟨_ | id | id | order, rest⟩
  · rw [hf] at hi
    dsimp only at hi ⊢
    rcases hb : (s.loops l).batch with _ | ⟨x, xs⟩
    · exact ⟨h, trivial⟩
    · rw [hb] at hi
      exact runTask_sound h hb a hi
  · exact ⟨h, trivial⟩
  · exact removeConnection_sound h (h.popClose hf) l
  · have hpop := h.reschedules (.popFrame hf fun j hj => Frame.noConfusion hj)
    exact exec_sound hpop (allowed_of_plain rfl)
  · rw [hf] at hi
    dsimp only at hi ⊢
    rcases order with _ | ⟨id, ids⟩
    · have hpop := h.reschedules (.popFrame hf fun j hj => Frame.noConfusion hj)
      have hdestructor := h.destructor l [] (by rw [hf]; exact List.mem_cons_self)
      exact ⟨hpop.setPhase (List.eq_nil_of_subset_nil hdestructor.2), trivial⟩
    · dsimp only at hi ⊢
      split
      next hmem => exact destructNext_sound h hf hmem (hi hmem)
      next hmem =>
        refine ⟨h.reschedules (.setFrames (.passOver hf hmem) fun j => ?_), trivial⟩
        rw [hf, List.count_cons_of_ne (by simp), List.count_cons_of_ne (by simp)]

lemma newConnection_sound {u : TcpServer} (h : s.Running) (halive : s.phase = .alive) (l : LoopId)
    (writeComplete : Bool) : Serving.Sound Running u (s.newConnection l writeComplete) := by
  have hadded := h.accept halive l writeComplete
  unfold newConnection
  dsimp only
  split
  · exact exec_sound hadded (allowed_of_plain rfl)
  · refine ⟨hadded.reschedules (.queueInLoop (fun j hj => ?_)
      (fun j hj => ServerTask.noConfusion hj) fun j hj => ServerTask.noConfusion hj), trivial⟩
    cases hj
    unfold loopOf
    rw [List.getElem?_concat_length]
    rfl

lemma release_sound {u : TcpServer} (h : s.Running) (id : ConnId) :
    Serving.Sound Running u (s.release id) := by
  unfold release
  split
  · exact ⟨h, trivial⟩
  next p hp =>
    split
    next hguard =>
      by_cases hstate : p.conn.state = .kDisconnected
      · rw [check_true hstate, ok_bind]
        by_cases hchannel : p.conn.connChannel.addToLoop = false
        · rw [check_true hchannel, ok_bind]
          have hfit := h.fit id p hp
          have hentry : id ∉ s.connections := (of_decide_eq_true hguard.2).1
          exact ⟨h.setPeer (q := { p with deleted := true }) hp
            ⟨hfit.conn, hfit.served, fun hmem => absurd hmem hentry, hfit.leaving⟩ rfl, trivial⟩
        · rw [check_false hchannel, error_bind]
          exact ⟨by decide, by decide⟩
      · rw [check_false hstate, error_bind]
        exact ⟨by decide, by decide⟩
    · exact ⟨h, trivial⟩

/-- `shutdown` and `forceCloseWithDelay` set the state. -/
lemma Fit.disconnecting (h : s.Fit id p) (ho : p.conn.isOpen = true) :
    s.Fit id { p with conn := { p.conn with state := .kDisconnecting } } where
  conn := h.conn.disconnecting ho
  served := h.served.stays (Or.inr ⟨ho, rfl⟩)
  held := h.held
  leaving := by
    have hnot := ne_closed_of_isOpen ho
    rw [if_neg fun hboth => ConnState.noConfusion hboth.2]
    exact h.leaving.trans (if_neg fun hboth => hnot hboth.2)

/-- A call of a user closes nothing but by `forceClose` in the loop of the connection. -/
lemma allowed_of_action {a : Action} {inLoop : Bool}
    (hclose : a = .forceClose → inLoop = true → s.MayClose id) :
    s.Allowed id (a.toInput inLoop) := by
  cases a with
  | forceClose =>
    exact ⟨fun data hd => Input.noConfusion hd, fun hd => Input.noConfusion hd, hclose rfl⟩
  | send data w => exact allowed_of_plain rfl
  | shutdown => exact allowed_of_plain rfl
  | startRead => exact allowed_of_plain rfl
  | stopRead => exact allowed_of_plain rfl

lemma handleEvent_sound {u : TcpServer} (h : s.Running) (e : ChannelEvent)
    (hi : ∀ data, e = .read (.got data) →
      s.isOpen id = true ∧ (data = [] → id ∈ s.connections)) :
    Serving.Sound Running u (s.exec id e.toInput) := by
  refine exec_sound h ?_
  cases e with
  | write w => exact allowed_of_plain rfl
  | error => exact allowed_of_plain rfl
  | read r =>
    cases r with
    | failed e => exact allowed_of_plain rfl
    | got data =>
      obtain ⟨hopen, hentry⟩ := hi data rfl
      refine ⟨fun _ _ => hopen, fun hd => Input.noConfusion hd, fun hcloses _ => hentry ?_⟩
      cases data with
      | nil => rfl
      | cons x xs => cases hcloses

/-- **A step in turn.** -/
lemma step_sound (h : s.Running) {i : ServerInput} (hi : s.InTurn i) :
    Serving.Sound Running s (s.step i) := by
  cases i with
  | accept l writeComplete =>
    rw [step]
    split
    next hguard => exact newConnection_sound h hguard.1 l writeComplete
    · exact ⟨h, trivial⟩
  | handleEvent id e =>
    rw [step]
    split
    next hguard =>
      refine handleEvent_sound h e fun data he => ?_
      rw [he] at hi
      exact hi hguard
    · exact ⟨h, trivial⟩
  | swap l =>
    rw [step]
    split
    next hidle =>
      have hbatch : (s.loops l).batch = [] := (of_decide_eq_true hidle).2
      have htasks : (s.loops l).pendingFunctors ++ [] = s.tasks l := by
        unfold tasks
        rw [hbatch, List.append_nil, List.nil_append]
      refine ⟨h.reschedules (.setLoop (.setLoop rfl (fun y hy => Or.inl (htasks ▸ hy))
        fun f hf => Or.inl hf) rfl (fun j => ?_) fun j hx => htasks ▸ hx), trivial⟩
      exact congrArg (List.count _) htasks
    · exact ⟨h, trivial⟩
  | next l a => exact next_sound h a hi
  | userCode l =>
    rw [step]
    split
    next hrest =>
      have hframes : (s.loops l).frames = [] := (of_decide_eq_true hrest).1
      have huser := Reschedules.user s l
      rw [hframes] at huser
      exact ⟨h.reschedules huser, trivial⟩
    · exact ⟨h, trivial⟩
  | call l id a =>
    rw [step]
    split
    next hguard =>
      refine exec_sound h (allowed_of_action fun ha hloop => ?_)
      rw [ha] at hi
      exact hi ⟨hguard.1, hguard.2, of_decide_eq_true hloop⟩
    · exact ⟨h, trivial⟩
  | consume l id len =>
    rw [step]
    split
    · exact exec_sound h (allowed_of_plain rfl)
    · exact ⟨h, trivial⟩
  | ret l =>
    rw [step]
    split
    next huser =>
      obtain ⟨rest, hf⟩ : ∃ rest, (s.loops l).frames = .user :: rest := by
        have hhead := of_decide_eq_true huser
        cases hfs : (s.loops l).frames with
        | nil =>
          rw [hfs] at hhead
          cases hhead
        | cons f rest =>
          rw [hfs, List.head?_cons, Option.some.injEq] at hhead
          exact ⟨rest, by rw [hhead]⟩
      rw [hf, List.tail_cons]
      exact ⟨h.reschedules (.popFrame hf fun j hj => Frame.noConfusion hj), trivial⟩
    · exact ⟨h, trivial⟩
  | remote id a =>
    rw [step]
    split
    · exact exec_sound h (allowed_of_action fun _ hf => Bool.noConfusion hf)
    · exact ⟨h, trivial⟩
  | forceCloseWithDelay id =>
    rw [step]
    split
    next p hp =>
      split
      next hguard => exact ⟨h.setPeer hp ((h.fit id p hp).disconnecting hguard.2) rfl, trivial⟩
      · exact ⟨h, trivial⟩
    · exact ⟨h, trivial⟩
  | delayOver id =>
    rw [step]
    split
    next hguard =>
      have hsame : Running { s with delayed := s.delayed.erase id } :=
        h.of_eq rfl rfl rfl (fun _ => rfl) fun _ => rfl
      refine exec_sound hsame ⟨fun data hd => Input.noConfusion hd,
        fun hd => Input.noConfusion hd, fun _ => ?_⟩
      exact hi hguard
    · exact ⟨h, trivial⟩
  | destroyServer order =>
    rw [step]
    split
    next hguard => exact ⟨h.destroyServer hguard.1 hguard.2.2, trivial⟩
    · exact ⟨h, trivial⟩
  | exit l =>
    rw [step]
    split
    next hguard =>
      have hbatch : (s.loops l).batch = [] := (of_decide_eq_true hguard.1).2
      exact ⟨h.exit hbatch hguard.2 _, trivial⟩
    · exact ⟨h, trivial⟩
  | release id => exact release_sound h id

/-! ## What goes wrong is seen -/

/-- A message to the server finds the entry. -/
lemma InService.finds (h : s.InService) (hp : s.peers[id]? = some p) (hleaving : s.Leaving id p) :
    id ∈ s.connections :=
  ((h.leaving id p hp).mp hleaving).1

lemma isOpen_iff_peer : s.isOpen id = true ↔
    ∃ p, s.peers[id]? = some p ∧ p.deleted = false ∧ p.conn.isOpen = true := by
  unfold isOpen
  cases hp : s.peers[id]? with
  | none => simp
  | some p => simp

/-- **A connection that the server does not have any more is closed.** -/
lemma mayClose_seen {u : TcpServer} {i : Input} (h : s.Running) (hi : i.closes = true)
    (hmay : ¬ s.MayClose id) : Serving.Seen u (s.exec id i) := by
  obtain ⟨hopen, hentry⟩ := Classical.not_imp.mp hmay
  obtain ⟨p, hp, hdeleted, ho⟩ := isOpen_iff_peer.mp hopen
  obtain ⟨c, hstep⟩ := closes_ok (h.fit id p hp).conn ho hi
  rw [exec_of_some hp hdeleted hstep]
  intro hseen
  have hgood : InService _ := hseen.2
  have hlt : id < s.peers.length := (List.getElem?_eq_some_iff.mp hp).1
  have hfinds := hgood.finds (List.getElem?_set_self hlt) (Or.inl ?_)
  · exact hentry hfinds
  · change _ ∈ (Function.update s.loops p.loop _ p.loop).frames
    rw [Function.update_self]
    exact List.mem_append_left _ (List.mem_cons_of_mem _ List.mem_cons_self)

/-- **Something is read from a connection that is not open**, or the end from one that the server
does not have any more. -/
lemma handleEvent_seen {u : TcpServer} {data : Bytes} (h : s.Running) (hlive : s.live id = true)
    (hi : ¬ (s.isOpen id = true ∧ (data = [] → id ∈ s.connections))) :
    Serving.Seen u (s.exec id (.handleRead (.got data))) := by
  by_cases hopen : s.isOpen id = true
  · have hboth : data = [] ∧ id ∉ s.connections := by
      rw [← Classical.not_imp]
      exact fun himp => hi ⟨hopen, himp⟩
    obtain ⟨rfl, hentry⟩ := hboth
    exact mayClose_seen h rfl fun hmay => hentry (hmay hopen)
  · obtain ⟨p, hp, hdeleted⟩ : ∃ p, s.peers[id]? = some p ∧ p.deleted = false := by
      unfold live at hlive
      cases hp : s.peers[id]? with
      | none =>
        rw [hp] at hlive
        cases hlive
      | some p =>
        rw [hp] at hlive
        exact ⟨p, rfl, by simpa using hlive⟩
    have hfit := h.fit id p hp
    have ho : p.conn.isOpen = false := by
      rw [isOpen_eq hp, hdeleted] at hopen
      simpa using hopen
    cases data with
    | nil =>
      have hfail : p.conn.step (.handleRead (.got [])) = .error (.assertion .handleClose) :=
        handleRead_fails hfit.conn ho
      have hexec : s.exec id (.handleRead (.got [])) = .error (.assertion .handleClose) := by
        unfold exec
        rw [hp]
        simp only [hdeleted, hfail, error_bind]
        rfl
      rw [hexec]
      exact fun hstop => hstop.2 rfl
    | cons x xs =>
      obtain ⟨b, -, heq⟩ := handleRead_eq hfit.conn (.got (x :: xs))
      rw [exec_of_some hp hdeleted (i := .handleRead (.got (x :: xs))) heq]
      intro hseen
      have hlt : id < s.peers.length := (List.getElem?_eq_some_iff.mp hp).1
      exact hfit.served.not_isLife_message ho
        (hseen.2.life id _ (List.getElem?_set_self hlt))

/-- What is on its way to the server stays on its way. -/
lemma Leaving.mono (h : s.Leaving id p) (hloop : q.loop = p.loop)
    (hframes : (s.loops p.loop).frames ⊆ (t.loops p.loop).frames)
    (htasks : s.tasks serverLoop ⊆ t.tasks serverLoop) : t.Leaving id q :=
  h.imp (fun hf => hloop ▸ hframes hf) fun hx => htasks hx

lemma frames_subset_update (s : TcpServer) (l m : LoopId) (id : ConnId) (es : List Effect) :
    (s.loops m).frames ⊆ ((s.setLoop l ((s.loops l).after id es)).loops m).frames := by
  rw [frames_setLoop]
  split_ifs with hm
  · rw [hm]
    exact List.subset_append_right _ _
  · exact List.Subset.refl _

lemma tasks_subset_update (s : TcpServer) (l m : LoopId) (id : ConnId) (es : List Effect) :
    s.tasks m ⊆ (s.setLoop l ((s.loops l).after id es)).tasks m := by
  rw [tasks_setLoop]
  split_ifs with hm
  · unfold LoopThread.after
    dsimp only
    rw [← List.append_assoc, hm]
    exact List.subset_append_left _ _
  · exact List.Subset.refl _

/-- **The destructor takes a closed connection**, and the message about it finds nothing. -/
lemma destructNext_seen {u : TcpServer} {ids : List ConnId} {rest : List Frame} (h : s.Running)
    (hf : (s.loops l).frames = .destructor (id :: ids) :: rest) (hmem : id ∈ s.connections)
    (hclosed : s.isClosed id = true) :
    Serving.Seen u ((s.setFrames l (.destructor ids :: rest)).destructNext id) := by
  obtain ⟨t, ht⟩ : ∃ t, t = ({ s with connections := s.connections.filter (· ≠ id) } :
    TcpServer).setFrames l (.destructor ids :: rest) := ⟨_, rfl⟩
  obtain ⟨p, hp⟩ : ∃ p, s.peers[id]? = some p := by
    cases hp : s.peers[id]? with
    | none =>
      unfold isClosed at hclosed
      rw [hp] at hclosed
      cases hclosed
    | some p => exact ⟨p, rfl⟩
  have hfit := h.fit id p hp
  have hstate : p.conn.state = .kDisconnected := by
    rw [isClosed_eq hp] at hclosed
    exact of_decide_eq_true hclosed
  have hleaving : s.Leaving id p := by
    rw [leaving_iff, hfit.leaving, if_pos ⟨hmem, hstate⟩]
    exact Nat.one_pos
  have hpeer : t.peers[id]? = some p := by
    rw [ht]
    exact hp
  have hgone : id ∉ t.connections := by
    rw [ht]
    change id ∉ s.connections.filter _
    rw [List.mem_filter]
    exact fun hboth => of_decide_eq_true hboth.2 rfl
  have hleaving' : t.Leaving id p := by
    refine hleaving.imp (fun hx => ?_) fun hx => ?_
    · rw [ht, frames_setFrames]
      split_ifs with hm
      · rw [hm, hf] at hx
        rcases List.mem_cons.mp hx with hx | hx
        · cases hx
        · exact List.mem_cons_of_mem _ hx
      · exact hx
    · rw [ht, tasks_setFrames]
      exact hx
  have hm : s.loopOf id = some p.loop := loopOf_eq_some.mpr ⟨p, hp, rfl⟩
  by_cases hserver : p.loop = serverLoop
  · have hnext : (s.setFrames l (.destructor ids :: rest)).destructNext id =
        t.exec id .connectionDestroy := ht ▸ destructNext_here (hserver ▸ hm)
    have hstep : p.conn.step .connectionDestroy = .ok (p.conn, [.channelRemove]) := by
      change p.conn.connectionDestroy = _
      rw [connectionDestroy, if_neg (by rw [hstate]; decide)]
    rw [hnext, exec_of_some hpeer (hfit.held hmem) hstep]
    intro hseen
    have hgood : InService _ := hseen.2
    have hlt : id < t.peers.length := (List.getElem?_eq_some_iff.mp hpeer).1
    have hfinds := hgood.finds (List.getElem?_set_self hlt) (hleaving'.mono rfl
      (frames_subset_update t p.loop p.loop id _) (tasks_subset_update t p.loop serverLoop id _))
    exact hgone hfinds
  · have hnext : (s.setFrames l (.destructor ids :: rest)).destructNext id =
        .ok (t.queueInLoop p.loop (.connectionDestroy id)) := ht ▸ destructNext_away hm hserver
    rw [hnext]
    intro hseen
    have hgood : InService _ := hseen.2
    have hfinds := hgood.finds (p := p) hpeer (hleaving'.mono rfl ?_ ?_)
    · exact hgone hfinds
    · unfold queueInLoop
      rw [frames_setLoop, if_pos rfl]
      exact List.Subset.refl _
    · unfold queueInLoop
      rw [tasks_setLoop, if_neg (Ne.symm hserver)]
      exact List.Subset.refl _

/-- **A step out of turn.** -/
lemma step_seen (h : s.Running) {i : ServerInput} (hi : ¬ s.InTurn i) :
    Serving.Seen s (s.step i) := by
  cases i with
  | handleEvent id e =>
    cases e with
    | write w => exact absurd trivial hi
    | error => exact absurd trivial hi
    | read r =>
      cases r with
      | failed e => exact absurd trivial hi
      | got data =>
        obtain ⟨hguard, hbad⟩ := Classical.not_imp.mp hi
        rw [step, if_pos hguard]
        exact handleEvent_seen h hguard.1 hbad
  | call l id a =>
    cases a with
    | forceClose =>
      obtain ⟨hguard, hmay⟩ := Classical.not_imp.mp hi
      have hinput : Action.toInput (s.loopOf id = some l) .forceClose = .forceClose true := by
        rw [decide_eq_true hguard.2.2]
        rfl
      rw [step, if_pos ⟨hguard.1, hguard.2.1⟩, hinput]
      exact mayClose_seen h rfl hmay
    | send data w => exact absurd trivial hi
    | shutdown => exact absurd trivial hi
    | startRead => exact absurd trivial hi
    | stopRead => exact absurd trivial hi
  | delayOver id =>
    obtain ⟨hguard, hmay⟩ := Classical.not_imp.mp hi
    rw [step, if_pos hguard]
    have hsame : Running { s with delayed := s.delayed.erase id } :=
      h.of_eq rfl rfl rfl (fun _ => rfl) fun _ => rfl
    exact mayClose_seen hsame rfl hmay
  | next l a =>
    change ¬ s.NextInTurn l at hi
    change Serving.Seen s (s.next l a)
    unfold NextInTurn at hi
    unfold next
    rcases hf : (s.loops l).frames with _ | ⟨_ | id | id | order, rest⟩
    · rw [hf] at hi
      dsimp only at hi ⊢
      rcases hb : (s.loops l).batch with _ | ⟨x, xs⟩
      · rw [hb] at hi
        exact absurd trivial hi
      · rw [hb] at hi
        have htask : ¬ s.TaskInTurn x := hi
        cases x with
        | connection id f =>
          cases f with
          | forceCloseInLoop =>
            have hpop : (s.setLoop l { s.loops l with batch := xs }).Running :=
              h.reschedules (.popBatch hb fun j hj => ServerTask.noConfusion hj)
            exact mayClose_seen hpop rfl htask
          | _ => exact absurd trivial htask
        | _ => exact absurd trivial htask
    · rw [hf] at hi
      exact absurd trivial hi
    · rw [hf] at hi
      exact absurd trivial hi
    · rw [hf] at hi
      exact absurd trivial hi
    · rw [hf] at hi
      rcases order with _ | ⟨id, ids⟩
      · exact absurd trivial hi
      · dsimp only at hi ⊢
        obtain ⟨hmem, hclosed⟩ := Classical.not_imp.mp hi
        rw [if_pos hmem]
        exact destructNext_seen h hf hmem (Bool.not_eq_false _ ▸ hclosed)
  | _ => exact absurd trivial hi

/-! ## Every run -/

/-- **The server with its loops**, in every run of a server, of the loops of its pool and of the
threads that use its connections, its destructor at any time: each connection calls back along its
life, and leaves the map once.  What its loop sends to the server finds the server with the entry,
and nothing that is closed stays behind.  This is so exactly as long as nothing is read from a
connection that is not open, the destructor takes no connection that is closed, and none is closed
that the destructor has taken. -/
theorem in_service_iff (is : List ServerInput) :
    machine.Meets Serving start is ↔ machine.Along InTurn start is := by
  refine machine.meets_iff_of_sound (I := Running) (fun _ h => h.inService) ?_ ?_ start_running
  · intro s i h hi
    exact step_sound h hi
  · intro s i h hi
    exact step_seen h hi

/-- The destructor takes a connection of another loop, and this loop reads the end of its stream
before `connectionDestroy` comes. -/
example : ¬ machine.Along InTurn start
    [.accept 1 false, .swap 1, .next 1 {}, .ret 1, .destroyServer [0], .next serverLoop {},
      .next serverLoop {}, .handleEvent 0 (.read (.got []))] := by
  decide

end TcpServer

end Firey
