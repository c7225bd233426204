import Firey.Net.LifeCycle

/-!
# A hang-up that is not an input

`TcpConnectionff` gives `handleClose` to its channel as the close callback, and
`handleEventWithGuard` never calls it.  When a descriptor is reported with `EPOLLHUP` and none of
the bits that lead to `handleRead`, the connection stays open whatever its state, whatever the
kernel answers and whatever other threads call meanwhile (`hang_up_never_closes`).  Without
`EPOLLOUT` the loop does nothing about it at all, so the next `poll` is given the same report.

That `handleWrite` does not fail rests on the invariant of a connection alone, which holds in
every reachable state, also after a stale read.
-/

set_option autoImplicit false

namespace Firey

/-- A hang-up, with nothing that calls the read callback. -/
def Mask.HangsUp (m : Mask) : Prop :=
  m.has EPOLLHUP = true ∧ m.has (EPOLLIN ||| EPOLLPRI ||| EPOLLRDHUP) = false

instance (m : Mask) : Decidable m.HangsUp := inferInstanceAs (Decidable (_ ∧ _))

/-- What is owed to a connection that has hung up: its close callback runs, and leaves it
disconnected and with no interest. -/
def Peer.ClosedSince (p q : Peer) : Prop :=
  q.closes = p.closes + 1 ∧ q.conn.state = .kDisconnected ∧
    q.conn.connChannel.events = kNoneEvent

instance (p q : Peer) : Decidable (p.ClosedSince q) := inferInstanceAs (Decidable (_ ∧ _))

/-- A step of the loop thread. -/
def LoopInput.isNext : LoopInput → Bool
  | .next _ => true
  | _ => false

/-- While an event is handled the loop thread goes on, and other threads make calls. -/
def LoopInput.Meanwhile : LoopInput → Prop
  | .next _ => True
  | .remote _ _ => True
  | _ => False

namespace EventLoop

open TcpConnection

/-! ## The connections of a run -/

/-- Every connection keeps its invariant. -/
def Healthy (s : EventLoop) : Prop :=
  ∀ (id : ConnId) (p : Peer), s.peers[id]? = some p → p.conn.Inv

lemma start_healthy (wc : Bool) : (start wc).Healthy := by
  intro id p hp
  cases hp

lemma Healthy.exec {s t : EventLoop} (h : s.Healthy) {id : ConnId} {i : Input}
    (hexec : s.exec id i = .ok t) : t.Healthy := by
  rcases exec_eq_ok hexec with ⟨-, rfl⟩ | ⟨p, c, es, hp, hstep, rfl⟩
  · exact h
  · intro j q hq
    by_cases hj : id = j
    · subst hj
      have hlt : id < s.peers.length := (List.getElem?_eq_some_iff.mp hp).1
      rw [List.getElem?_set_self hlt] at hq
      cases hq
      exact (step_summary (h id p hp) hstep).inv
    · rw [List.getElem?_set_ne hj] at hq
      exact h j q hq

lemma Healthy.newConnection {s t : EventLoop} (h : s.Healthy)
    (hnew : s.newConnection = .ok t) : t.Healthy := by
  refine Healthy.exec (fun id p hp => ?_) hnew
  rcases Nat.lt_or_ge id s.peers.length with hlt | hge
  · rw [List.getElem?_append_left hlt] at hp
    exact h id p hp
  · rw [List.getElem?_append_right hge, List.getElem?_singleton] at hp
    split_ifs at hp
    cases hp
    exact ctor_inv.of_frame ctor_inv.input_wf rfl ctor_inv.channel_ok rfl Iff.rfl

lemma Healthy.removeConnectionInLoop {s t : EventLoop} (h : s.Healthy) {id : ConnId}
    (hrem : s.removeConnectionInLoop id = .ok t) : t.Healthy := by
  obtain ⟨-, -, hrem⟩ := bind_eq_ok hrem
  cases hrem
  intro j q hq
  by_cases hj : id = j
  · subst hj
    rw [List.getElem?_modify_eq] at hq
    obtain ⟨p, hp, rfl⟩ := Option.map_eq_some_iff.mp hq
    exact h id p hp
  · rw [List.getElem?_modify_ne _ _ hj] at hq
    exact h j q hq

lemma Healthy.runTask {s t : EventLoop} (h : s.Healthy) {a : Answers} {f : Task}
    (hrun : s.runTask a f = .ok t) : t.Healthy := by
  cases f with
  | connectionDestroy id => exact h.exec hrun
  | connection id f =>
    cases f with
    | writeComplete =>
      cases hrun
      exact h
    | highWater =>
      cases hrun
      exact h
    | sendInLoop len => exact h.exec hrun
    | shutdownInLoop => exact h.exec hrun
    | forceCloseInLoop => exact h.exec hrun
    | startReadInLoop => exact h.exec hrun
    | stopReadInLoop => exact h.exec hrun

lemma Healthy.perform {s t : EventLoop} (h : s.Healthy) {a : Answers} {w : Work}
    (hdo : s.perform a w = .ok t) : t.Healthy := by
  have same (ht : .ok s = (.ok t : Except Fault EventLoop)) : t.Healthy := by
    cases ht
    exact h
  cases w with
  | handleEvent r =>
    cases hdo
    exact h
  | user =>
    cases hdo
    exact h
  | doPendingFunctors =>
    cases hdo
    exact h
  | closeCallback id => exact h.removeConnectionInLoop hdo
  | channelRemove id => exact h.exec hdo
  | task f => exact h.runTask hdo
  | errorCallback ch =>
    cases ch with
    | connection id => exact h.exec hdo
    | acceptor => exact same hdo
    | timer => exact same hdo
  | writeCallback ch =>
    cases ch with
    | connection id => exact h.exec hdo
    | acceptor => exact same hdo
    | timer => exact same hdo
  | readCallback ch =>
    cases ch with
    | connection id => exact h.exec hdo
    | timer =>
      cases hdo
      exact h
    | acceptor =>
      rw [EventLoop.perform] at hdo
      split at hdo
      · exact h.newConnection hdo
      · exact same hdo

lemma Healthy.step {s t : EventLoop} (h : s.Healthy) {i : LoopInput} (hstep : s.step i = .ok t) :
    t.Healthy := by
  have same (ht : .ok s = (.ok t : Except Fault EventLoop)) : t.Healthy := by
    cases ht
    exact h
  cases i with
  | poll batch =>
    cases hstep
    unfold poll
    split
    · exact h
    · exact h
  | next a =>
    change s.next a = .ok t at hstep
    unfold next at hstep
    split at hstep
    · exact same hstep
    · next rest _ => exact Healthy.perform (s := { s with stack := rest }) h hstep
  | call id a =>
    rw [EventLoop.step] at hstep
    split at hstep
    · exact h.exec hstep
    · exact same hstep
  | consume id len =>
    rw [EventLoop.step] at hstep
    split at hstep
    · exact h.exec hstep
    · exact same hstep
  | ret =>
    rw [EventLoop.step] at hstep
    split at hstep
    · cases hstep
      exact h
    · exact same hstep
  | remote id a => exact h.exec hstep

/-- Every connection keeps its invariant in every run. -/
theorem healthy_of_run {wc : Bool} {is : List LoopInput} {s : EventLoop}
    (hrun : machine.run (start wc) is = .ok s) : s.Healthy :=
  machine.run_invariant (fun _ _ _ h hstep => Healthy.step h hstep) (start_healthy wc) hrun

/-! ## Calls that close nothing -/

/-- The call goes through, runs no callback and leaves the connection open. -/
def LeavesOpen (c : TcpConnection) (i : Input) : Prop :=
  ∃ c' es, c.step i = .ok (c', es) ∧ (c.isOpen = true → c'.isOpen = true) ∧
    Effect.closeCallback ∉ es ∧ ∀ id, workOf id es = []

lemma leavesOpen_of_same {c : TcpConnection} {i : Input} (h : c.step i = .ok (c, [])) :
    LeavesOpen c i :=
  ⟨c, [], h, id, List.not_mem_nil, fun _ => rfl⟩

lemma handleWrite_leavesOpen {c : TcpConnection} (h : c.Inv) (w : WriteResult) :
    LeavesOpen c (.handleWrite w) := by
  by_cases hw : c.connChannel.isWriting = true
  · by_cases hn : ∃ n, w = .wrote n ∧ 0 < min n c.outputBuffer.readableBytes
    · obtain ⟨n, rfl, hn⟩ := hn
      obtain ⟨d, es, hwrite, -, hs, -, rfl⟩ := handleWrite_spec h hw hn
      refine ⟨d, _, hwrite, fun ho => by rwa [isOpen, hs], ?_, fun id => ?_⟩
      · unfold drainedEffects
        split_ifs <;> simp
      · unfold drainedEffects
        split_ifs <;> rfl
    · exact leavesOpen_of_same (handleWrite_stuck c
        (fun n hwn => Nat.eq_zero_of_not_pos fun hpos => hn ⟨n, hwn, hpos⟩))
  · exact leavesOpen_of_same (handleWrite_idle (by simpa using hw) w)

lemma queued_leavesOpen {c d : TcpConnection} {i : Input} {f : Functor}
    (h : c.step i = .ok (d, [.queueInLoop f])) (ho : c.isOpen = true → d.isOpen = true) :
    LeavesOpen c i :=
  ⟨d, _, h, ho, by simp, fun _ => rfl⟩

/-- Another thread only queues. -/
lemma remote_leavesOpen (c : TcpConnection) (a : Action) : LeavesOpen c (a.toInput false) := by
  have hdis : ({ c with state := .kDisconnecting } : TcpConnection).isOpen = true := rfl
  cases a with
  | send data w =>
    have hsend : c.step (.send false data w) =
        if c.state = .kConnected then .ok (c, [.queueInLoop (.sendInLoop data.length)])
        else .ok (c, []) := rfl
    by_cases hs : c.state = .kConnected
    · exact queued_leavesOpen (hsend.trans (if_pos hs)) id
    · exact leavesOpen_of_same (hsend.trans (if_neg hs))
  | shutdown =>
    have hshut : c.step (.shutdown false) =
        if c.state = .kConnected then
          .ok ({ c with state := .kDisconnecting }, [.queueInLoop .shutdownInLoop])
        else .ok (c, []) := rfl
    by_cases hs : c.state = .kConnected
    · exact queued_leavesOpen (hshut.trans (if_pos hs)) fun _ => hdis
    · exact leavesOpen_of_same (hshut.trans (if_neg hs))
  | forceClose =>
    have hforce : c.step (.forceClose false) =
        if c.isOpen then
          .ok ({ c with state := .kDisconnecting }, [.queueInLoop .forceCloseInLoop])
        else .ok (c, []) := rfl
    by_cases ho : c.isOpen = true
    · exact queued_leavesOpen (hforce.trans (if_pos ho)) fun _ => hdis
    · exact leavesOpen_of_same (hforce.trans (if_neg ho))
  | startRead => exact queued_leavesOpen (d := c) (f := .startReadInLoop) rfl id
  | stopRead => exact queued_leavesOpen (d := c) (f := .stopReadInLoop) rfl id

/-! ## Handling the hang-up -/

/-- What `handleEventWithGuard` has left to do after a hang-up. -/
lemma handleEventWithGuard_hangsUp {r : Ready} (h : r.revents.HangsUp) :
    handleEventWithGuard r =
      (if r.revents.has EPOLLERR then [.errorCallback r.channel] else []) ++
        if r.revents.has EPOLLOUT then [.writeCallback r.channel] else [] := by
  unfold handleEventWithGuard
  rw [h.2, if_neg Bool.false_ne_true, List.append_nil]

/-- The callbacks that a hang-up leads to. -/
def IsCallbackOf (id : ConnId) (w : Work) : Prop :=
  w = .errorCallback (.connection id) ∨ w = .writeCallback (.connection id)

lemma isCallbackOf_of_hangsUp {id : ConnId} {m : Mask} (h : m.HangsUp) :
    ∀ w ∈ handleEventWithGuard ⟨.connection id, m⟩, IsCallbackOf id w := by
  rw [handleEventWithGuard_hangsUp h]
  intro w hw
  rcases List.mem_append.mp hw with hw | hw
  · split at hw
    · exact Or.inl (List.mem_singleton.mp hw)
    · cases hw
  · split at hw
    · exact Or.inr (List.mem_singleton.mp hw)
    · cases hw

/-- The connection `id` is open and has been closed `k` times, and of the event that is handled
`ws` is left to do before `rest`. -/
structure Handling (id : ConnId) (k : ℕ) (ws rest : List Work) (s : EventLoop) : Prop where
  healthy : s.Healthy
  stack : s.stack = ws ++ rest
  callbacks : ∀ w ∈ ws, IsCallbackOf id w
  stays : ∃ p, s.peers[id]? = some p ∧ p.conn.isOpen = true ∧ p.closes = k

variable {id : ConnId} {k : ℕ} {ws rest : List Work} {s : EventLoop}

/-- A call that leaves its connection open, of this connection or another one. -/
lemma Handling.exec (h : Handling id k ws rest s) {j : ConnId} {i : Input}
    (hi : ∀ p, s.peers[j]? = some p → LeavesOpen p.conn i) :
    ∃ t, s.exec j i = .ok t ∧ Handling id k ws rest t := by
  obtain ⟨p, hp, ho, hk⟩ := h.stays
  cases hq : s.peers[j]? with
  | none =>
    refine ⟨s, ?_, h⟩
    rw [EventLoop.exec, hq]
  | some q =>
    obtain ⟨c, es, hstep, hopen, hclose, hwork⟩ := hi q hq
    have hexec := exec_of_some hq hstep
    refine ⟨_, hexec, h.healthy.exec hexec, ?_, h.callbacks, ?_⟩
    · change workOf j es ++ s.stack = ws ++ rest
      rw [hwork, List.nil_append, h.stack]
    · by_cases hj : j = id
      · subst hj
        cases hq.symm.trans hp
        have hlt : j < s.peers.length := (List.getElem?_eq_some_iff.mp hp).1
        refine ⟨p.after c es, List.getElem?_set_self hlt, hopen ho, ?_⟩
        change p.closes + es.count .closeCallback = k
        rw [List.count_eq_zero.mpr hclose, hk, Nat.add_zero]
      · exact ⟨p, (List.getElem?_set_ne hj).trans hp, ho, hk⟩

/-- The loop thread runs the next of the callbacks. -/
lemma Handling.next {w : Work} (h : Handling id k (w :: ws) rest s) (a : Answers) :
    ∃ t, s.step (.next a) = .ok t ∧ Handling id k ws rest t := by
  have hpop : Handling id k ws rest { s with stack := ws ++ rest } :=
    ⟨h.healthy, rfl, fun v hv => h.callbacks v (List.mem_cons_of_mem w hv), h.stays⟩
  have hnext : s.step (.next a) = perform { s with stack := ws ++ rest } a w := by
    change s.next a = _
    rw [EventLoop.next, h.stack]
    rfl
  rw [hnext]
  rcases h.callbacks w List.mem_cons_self with rfl | rfl
  · exact hpop.exec fun p _ => leavesOpen_of_same rfl
  · exact hpop.exec fun p hp => handleWrite_leavesOpen (hpop.healthy id p hp) a.write

/-- **Handling to its end.**  After as many steps of the loop thread as there are callbacks, among
any calls of other threads, the connection is as open as it was. -/
theorem Handling.run {js : List LoopInput} (h : Handling id k ws rest s)
    (hjs : ∀ j ∈ js, j.Meanwhile) (hlen : js.countP LoopInput.isNext = ws.length) :
    ∃ t, machine.run s js = .ok t ∧ Handling id k [] rest t := by
  induction js generalizing s ws with
  | nil =>
    cases List.length_eq_zero_iff.mp hlen.symm
    exact ⟨s, rfl, h⟩
  | cons j js ih =>
    have hrest : ∀ i ∈ js, i.Meanwhile := fun i hi => hjs i (List.mem_cons_of_mem j hi)
    have hj := hjs j List.mem_cons_self
    cases j with
    | next a =>
      rw [List.countP_cons_of_pos rfl] at hlen
      obtain ⟨w, ws, rfl⟩ := List.exists_cons_of_length_eq_add_one hlen.symm
      obtain ⟨t, hstep, ht⟩ := h.next a
      rw [machine.run_cons_ok (i := .next a) hstep]
      exact ih ht hrest (Nat.succ.inj hlen)
    | remote i a =>
      rw [List.countP_cons_of_neg Bool.false_ne_true] at hlen
      obtain ⟨t, hstep, ht⟩ := h.exec (j := i) fun p _ => remote_leavesOpen p.conn a
      rw [machine.run_cons_ok (i := .remote i a) hstep]
      exact ih ht hrest hlen
    | poll batch => exact hj.elim
    | call i a => exact hj.elim
    | consume i len => exact hj.elim
    | ret => exact hj.elim

/-- Without `EPOLLOUT` the loop thread does nothing about it: the state is the one before the
event. -/
theorem hang_up_ignored {m : Mask} (hm : m.HangsUp) (hout : m.has EPOLLOUT = false)
    (hstack : s.stack = .handleEvent ⟨.connection id, m⟩ :: rest) (a : Answers) :
    machine.run s (.next a :: (handleEventWithGuard ⟨.connection id, m⟩).map fun _ => .next a) =
      .ok { s with stack := rest } := by
  have hguard : handleEventWithGuard ⟨.connection id, m⟩ =
      if m.has EPOLLERR then [.errorCallback (.connection id)] else [] := by
    rw [handleEventWithGuard_hangsUp hm, hout, if_neg Bool.false_ne_true, List.append_nil]
  have hbegin : machine.step s (.next a) =
      .ok { s with stack := handleEventWithGuard ⟨.connection id, m⟩ ++ rest } := by
    change s.next a = _
    rw [EventLoop.next, hstack]
    rfl
  rw [machine.run_cons_ok hbegin, hguard]
  split
  · refine machine.run_cons_ok (t := { s with stack := rest }) ?_ []
    change EventLoop.exec { s with stack := rest } id .handleError = _
    cases hp : s.peers[id]? with
    | none => simp only [EventLoop.exec, hp]
    | some p =>
      have hset : s.peers.set id p = s.peers := by
        obtain ⟨hlt, hget⟩ := List.getElem?_eq_some_iff.mp hp
        rw [← hget, List.set_getElem_self]
      have herror : p.conn.step .handleError = .ok (p.conn, []) := rfl
      rw [exec_of_some (s := { s with stack := rest }) hp herror]
      simp [Peer.after, callbacksOf, tasksOf, workOf, hset]
  · rfl

/-- **A hang-up never closes.**  In every reachable state in which an open connection is reported
with a hang-up and no input, the event is handled to its end, in whatever order other threads'
calls come in, and the connection is not closed by it. -/
theorem hang_up_never_closes {wc : Bool} {is : List LoopInput} {m : Mask} {p : Peer}
    (hrun : machine.run (start wc) is = .ok s)
    (hstack : s.stack = .handleEvent ⟨.connection id, m⟩ :: rest) (hm : m.HangsUp)
    (hp : s.peers[id]? = some p) (ho : p.conn.isOpen = true) (a : Answers) {js : List LoopInput}
    (hjs : ∀ j ∈ js, j.Meanwhile)
    (hlen : js.countP LoopInput.isNext = (handleEventWithGuard ⟨.connection id, m⟩).length) :
    ∃ t q, machine.run s (.next a :: js) = .ok t ∧ t.stack = rest ∧ t.peers[id]? = some q ∧
      q.conn.isOpen = true ∧ q.closes = p.closes ∧ ¬ p.ClosedSince q := by
  have hbegin : s.step (.next a) =
      .ok { s with stack := handleEventWithGuard ⟨.connection id, m⟩ ++ rest } := by
    change s.next a = _
    rw [EventLoop.next, hstack]
    rfl
  have hhealthy : s.Healthy := healthy_of_run hrun
  have hhandling : Handling id p.closes (handleEventWithGuard ⟨.connection id, m⟩) rest
      { s with stack := handleEventWithGuard ⟨.connection id, m⟩ ++ rest } :=
    ⟨hhealthy, rfl, isCallbackOf_of_hangsUp hm, p, hp, ho, rfl⟩
  obtain ⟨t, ht, hend⟩ := hhandling.run hjs hlen
  obtain ⟨q, hq, hopen, hcloses⟩ := hend.stays
  refine ⟨t, q, (machine.run_cons_ok (i := .next a) hbegin js).trans ht, hend.stack, hq, hopen,
    hcloses, ?_⟩
  rintro ⟨hclosed, -, -⟩
  omega

/-- A server with one connection, whose user has sent two octets in its first callback and then
stopped reading; `write` took one of them. -/
def stoppedReading : List LoopInput :=
  [.poll [⟨.acceptor, EPOLLIN⟩], .next {}, .next {},
    .call 0 .startRead, .call 0 (.send [1, 2] (.wrote 1)), .call 0 .stopRead, .ret, .next {}]

/-- The peer resets it: `EPOLLHUP` comes with the `EPOLLOUT` that is asked for. -/
def thenReset : List LoopInput :=
  stoppedReading ++ [.poll [⟨.connection 0, EPOLLHUP ||| EPOLLOUT⟩]]

/-- The write fails, and the connection is as open as before. -/
theorem hang_up_never_closes_reset : ∃ s, machine.run (start false) thenReset = .ok s ∧
    ∃ p ∈ s.peers[0]?, p.conn.connChannel.events = EPOLLOUT ∧ ∃ t q,
      machine.run s [.next {}, .next { write := .failed .EPIPE }] = .ok t ∧
        t.peers[0]? = some q ∧ q.conn.isOpen = true ∧ q.closes = p.closes := by
  have hbefore : ∃ s, machine.run (start false) thenReset = .ok s ∧
      s.stack = [.handleEvent ⟨.connection 0, EPOLLHUP ||| EPOLLOUT⟩, .doPendingFunctors] ∧
      ∃ p ∈ s.peers[0]?, p.conn.connChannel.events = EPOLLOUT ∧ p.conn.isOpen = true := by
    decide +kernel
  obtain ⟨s, hs, hstack, p, hp, hev, ho⟩ := hbefore
  have hmeanwhile : ∀ j ∈ [LoopInput.next { write := .failed .EPIPE }], j.Meanwhile := by
    simp [LoopInput.Meanwhile]
  obtain ⟨t, q, ht, -, hq, hopen, hcloses, -⟩ :=
    hang_up_never_closes hs hstack (by decide) hp ho {} hmeanwhile (by decide)
  exact ⟨s, hs, p, hp, hev, t, q, ht, hq, hopen, hcloses⟩

/-- It is still connected, and goes on asking for `EPOLLOUT`. -/
theorem reset_not_closed : ∃ s, machine.run (start false) thenReset = .ok s ∧
    ∃ t, machine.run s [.next {}, .next { write := .failed .EPIPE }] = .ok t ∧
      ∃ p ∈ s.peers[0]?, p.conn.isOpen = true ∧ ∃ q ∈ t.peers[0]?, ¬ p.ClosedSince q ∧
        q.conn.state = .kConnected ∧ q.conn.connChannel.events = EPOLLOUT := by
  decide +kernel

end EventLoop

end Firey
