import Firey.Http.Conversation
import Firey.Http.RoundTrip

/-!
# What a client gets for its requests

A conversation is a session of the parser (`Follows`) as long as the kernel takes each answer
whole.  So whatever the repository's account of sessions says about the octets that arrive becomes
a statement about the octets that go back: requests that arrive one after the other, in any pieces,
are answered one by one with what the callback makes of them, up to the first answer that closes
the connection (`requests_answered`).
-/

set_option autoImplicit false

namespace Firey

open HttpServer

namespace Conversation

open HttpContext

variable {httpCallback : HttpRequest → HttpResponse → HttpResponse}

/-- Octets arrive, and the kernel takes what is answered. -/
def read (httpCallback : HttpRequest → HttpResponse → HttpResponse) (a : Arrival) :
    ConversationInput :=
  .handleRead (.got a.chunk) a.receiveTime httpCallback fun data => .wrote data.length

/-- The conversation is that of the session, and nothing of it is left to be sent. -/
structure Follows (httpCallback : HttpRequest → HttpResponse → HttpResponse) (s : Conversation)
    (q : HttpSession) : Prop where
  inv : s.Inv
  session : q.Inv
  isOpen : s.wire.conn.isOpen = true
  context : q.context = s.context
  pending : q.pending = s.wire.conn.inputBuffer.readable
  dispatched : s.exchanges.filterMap Exchange.request? = q.dispatched
  responses : ∀ x ∈ s.exchanges,
    x = .refused ∨ ∃ request, x = .served request (respond httpCallback request)
  drained : s.wire.conn.pending = []

/-- A chunk that one call of `readFd` delivers, and that is not the end of the stream. -/
def Readable (a : Arrival) : Prop := a.chunk ≠ [] ∧ a.chunk.length ≤ Buffer.extrabufSize

instance (a : Arrival) : Decidable (Readable a) := inferInstanceAs (Decidable (_ ∧ _))

lemma take_readFdOffer {a : Arrival} (ha : Readable a) (b : Buffer) :
    a.chunk.take b.readFdOffer = a.chunk := by
  refine List.take_of_length_le (ha.2.trans ?_)
  unfold Buffer.readFdOffer
  split <;> omega

lemma due_request? (o : Outcome Byte HttpContext) :
    (due httpCallback o).toList.filterMap Exchange.request? =
      match o.ending with
      | .stopped => [o.state.request_]
      | _ => [] := by
  rcases o with ⟨_ | _ | _, c, rest⟩ <;> rfl

lemma due_response {o : Outcome Byte HttpContext} {x : Exchange}
    (hx : x ∈ (due httpCallback o).toList) :
    x = .refused ∨ ∃ request, x = .served request (respond httpCallback request) := by
  rcases o with ⟨_ | _ | _, c, rest⟩
  · exact absurd hx List.not_mem_nil
  · exact Or.inr ⟨_, List.mem_singleton.mp hx⟩
  · exact Or.inl (List.mem_singleton.mp hx)

/-- **A read is an arrival.** -/
lemma Follows.step {s : Conversation} {q q' : HttpSession} (h : Follows httpCallback s q)
    {a : Arrival} (ha : Readable a) (hstep : q.step a = .ok q') :
    ∃ t, s.step (read httpCallback a) = .ok t ∧ Follows httpCallback t q' := by
  rcases HttpSession.step_refines h.session a with
    ⟨e, -, herr⟩ | ⟨o, qb, hparse, hq, hinv, hrest⟩
  · rw [hstep] at herr
    cases herr
  rw [hstep] at hq
  cases hq
  obtain ⟨b, hb, hread, heq⟩ := handleRead_message h.inv ha.1 a.receiveTime httpCallback
    fun data => .wrote data.length
  have hrun : (requestParser a.receiveTime).run s.context b.readable = .ok o := by
    rw [hread, arrived, take_readFdOffer ha, ← h.pending, ← h.context]
    exact hparse
  have hreads : s.step (read httpCallback a) =
      ({ s with wire := setInput s.wire b } : Conversation).onMessage a.receiveTime httpCallback
        fun data => .wrote data.length := (if_pos h.isOpen).trans heq
  have hrefines := onMessage_refines (s := { s with wire := setInput s.wire b })
    h.inv.inward.expects hb a.receiveTime httpCallback fun data => .wrote data.length
  obtain ⟨t, ht, hexchanges, hcontext, hinput, hopen, hdrained⟩ :
      ∃ t, s.step (read httpCallback a) = .ok t ∧
        t.exchanges = s.exchanges ++ (due httpCallback o).toList ∧ t.context = contextAfter o ∧
          t.wire.conn.inputBuffer.readable = o.rest ∧ t.wire.conn.isOpen = true ∧
            t.wire.conn.pending = [] := by
    rcases hrefines with ⟨e, hfail, -⟩ | ⟨o', b', hok, hb', hrest', hmessage⟩
    · cases hrun.symm.trans hfail
    · cases hrun.symm.trans hok
      rw [hreads, hmessage]
      rcases due httpCallback o with _ | x
      · exact ⟨_, rfl, (List.append_nil _).symm, rfl, hrest', h.isOpen, h.drained⟩
      · rcases answer_cases
          (s := ({ s with wire := setInput s.wire b } : Conversation).parsed o b')
          ((h.inv.outward.setInput hb).setInput hb') h.isOpen
          (fun data => .wrote data.length) x with ⟨hstuck, -⟩ | ⟨-, t, hanswer, hleft⟩
        · exact absurd ⟨h.drained, _, rfl, octets_length_pos x⟩ hstuck.2
        · refine ⟨t, hanswer, hleft.exchanges, hleft.context, ?_, hleft.isOpen,
            hleft.pending h.drained rfl⟩
          rw [hleft.inputBuffer]
          exact hrest'
  refine ⟨t, ht, ?_, hinv, hopen, ?_, ?_, ?_, fun x hx => ?_, hdrained⟩
  · rcases step_comes h.inv (read httpCallback a) with ⟨-, t', ht', hinv', -⟩ | ⟨-, e, he, -⟩
    · rw [ht] at ht'
      cases ht'
      exact hinv'
    · rw [ht] at he
      cases he
  · rw [hcontext]
    rcases o with ⟨_ | _ | _, c, rest⟩ <;> rfl
  · rw [hinput, ← hrest]
    rcases o with ⟨_ | _ | _, c, rest⟩ <;> rfl
  · rw [hexchanges, List.filterMap_append, h.dispatched, due_request?]
    rcases o with ⟨_ | _ | _, c, rest⟩
    · exact List.append_nil _
    · rfl
    · exact List.append_nil _
  · rw [hexchanges] at hx
    rcases List.mem_append.mp hx with hx | hx
    · exact h.responses x hx
    · exact due_response hx

lemma Follows.run {as : List Arrival} (has : ∀ a ∈ as, Readable a) {s : Conversation}
    {q q' : HttpSession} (h : Follows httpCallback s q)
    (hrun : HttpSession.machine.run q as = .ok q') :
    ∃ t, machine.run s (as.map (read httpCallback)) = .ok t ∧ Follows httpCallback t q' := by
  induction as generalizing s q with
  | nil =>
    cases hrun
    exact ⟨s, rfl, h⟩
  | cons a as ih =>
    cases hq : HttpSession.machine.step q a with
    | error e =>
      rw [Machine.run_cons_error _ hq] at hrun
      cases hrun
    | ok q₁ =>
      rw [Machine.run_cons_ok _ hq] at hrun
      obtain ⟨t₁, ht₁, hfollows⟩ := h.step (has a List.mem_cons_self) hq
      obtain ⟨t, ht, hend⟩ := ih (fun b hb => has b (List.mem_cons_of_mem a hb)) hfollows hrun
      refine ⟨t, ?_, hend⟩
      rw [List.map_cons, Machine.run_cons_ok _ ht₁]
      exact ht

/-- A new connection is a new session. -/
lemma start_follows : ∃ s, machine.run start [.connectionEstablished] = .ok s ∧
    Follows httpCallback s HttpSession.start := by
  obtain ⟨c, hstep, hinv, hst, hreads, hpend, hinput⟩ :=
    Wire.step_connectionEstablished (s := Wire.start) Wire.start_inv rfl
  have hconnecting : start.wire.conn.state = .kConnecting := rfl
  have hrun : machine.step start .connectionEstablished =
      .ok { start with wire := { Wire.start with conn := c }, context := HttpContext.ctor } := by
    show start.step .connectionEstablished = _
    unfold step
    dsimp only
    rw [if_pos hconnecting]
    show (Wire.start.step .connectionEstablished >>= _) = _
    rw [hstep]
    rfl
  have hends : ∃ t, machine.step start .connectionEstablished = .ok t ∧ t.Inv := by
    rcases step_comes start_inv .connectionEstablished with ⟨-, t, ht, hinv', -⟩ | ⟨hnot, -⟩
    · exact ⟨t, ht, hinv'⟩
    · exact absurd trivial hnot
  obtain ⟨t, ht, hinv'⟩ := hends
  rw [hrun] at ht
  cases ht
  refine ⟨_, Machine.run_cons_ok machine hrun [], hinv', HttpSession.start_inv,
    TcpConnection.isOpen_iff.mpr (Or.inl hst), rfl, ?_, rfl,
    fun x hx => absurd hx List.not_mem_nil, ?_⟩
  · show _ = c.inputBuffer.readable
    rw [hinput]
    rfl
  · show c.pending = []
    rw [hpend]
    exact Buffer.readable_ofInitialSize _

/-- Where nothing is left in the input buffer, nothing was refused. -/
lemma Follows.all_served {s : Conversation} {q : HttpSession} (h : Follows httpCallback s q)
    (hnil : q.pending = []) :
    s.exchanges = q.dispatched.map fun request =>
      .served request (respond httpCallback request) := by
  have hnone : Exchange.refused ∉ s.exchanges := by
    intro hmem
    obtain ⟨-, n, hn, -⟩ := h.inv.inward.refusing hmem
    rw [← h.pending, hnil] at hn
    exact absurd hn (by simp [search, Buffer.kCRLF])
  have hserved : ∀ x ∈ s.exchanges,
      ∃ request, x = .served request (respond httpCallback request) := by
    intro x hx
    exact (h.responses x hx).resolve_left fun hr => hnone (hr ▸ hx)
  rw [← h.dispatched]
  generalize s.exchanges = xs at hserved
  induction xs with
  | nil => rfl
  | cons x xs ih =>
    obtain ⟨request, rfl⟩ := hserved x List.mem_cons_self
    rw [List.filterMap_cons, Exchange.request?, List.map_cons,
      ← ih fun y hy => hserved y (List.mem_cons_of_mem _ hy)]

/-- **Requests are answered.**  Requests that arrive one after the other on a new connection, in any
pieces that are read at once, are given to the callback as they were sent; the octets that go back
are the texts of its responses, in order and up to the first that closes; and the connection is
half closed, once, if there is one. -/
theorem requests_answered (httpCallback : HttpRequest → HttpResponse → HttpResponse)
    (ds : List Delivery) (hread : ∀ d ∈ ds, ∀ a ∈ d.arrivals, Readable a) :
    ∃ s qs, machine.run start
        (.connectionEstablished :: (ds.flatMap Delivery.arrivals).map (read httpCallback)) =
          .ok s ∧
      List.Forall₂ HttpMessage.Decodes (ds.map Delivery.request) qs ∧
      s.exchanges = qs.map (fun q => .served q (respond httpCallback q)) ∧
      s.wire.handed = (answers s.exchanges).flatten ∧
      s.wire.shutdowns.length = (closing s.exchanges).toNat ∧
      s.wire.conn.state = if closing s.exchanges then .kDisconnecting else .kConnected := by
  obtain ⟨s₀, hstart, hfollows⟩ := @start_follows httpCallback
  obtain ⟨q, hq, hdecodes, hnil⟩ := HttpSession.deliveries_round_trip ds
  have has : ∀ a ∈ ds.flatMap Delivery.arrivals, Readable a := by
    intro a ha
    obtain ⟨d, hd, ha⟩ := List.mem_flatMap.mp ha
    exact hread d hd a ha
  obtain ⟨s, hrun, hend⟩ := hfollows.run has hq
  have hfaithful := hend.inv.faithful
  refine ⟨s, q.dispatched, ?_, hdecodes, hend.all_served hnil, ?_, ?_, ?_⟩
  · exact (machine.run_append hstart _).trans hrun
  · have hcons := hfaithful.conserved
    rwa [hend.drained, List.append_nil] at hcons
  · rw [hfaithful.shut]
    cases closing s.exchanges <;> rfl
  · have hclosed := hfaithful.closed hend.isOpen
    cases hc : closing s.exchanges with
    | true => exact hclosed.mpr hc
    | false =>
      rcases TcpConnection.isOpen_iff.mp hend.isOpen with hs | hs
      · exact hs
      · rw [hclosed.mp hs] at hc
        cases hc

open HttpResponse in
/-- Whether the response to a request starts out as one that closes, by what the client has sent:
of the versions that are accepted, all that begin with `HTTP/1.` are taken for 1.0. -/
theorem closes_iff {m : HttpMessage} {q : HttpRequest} (h : m.Decodes q) :
    closes q = true ↔ m.field? connection = some close ∨
      (∃ c, m.version = HttpRequest.http1 c) ∧ m.field? connection ≠ some keepAlive := by
  have hheader (v : Bytes) (hv : v ≠ []) :
      q.getHeader connection = v ↔ m.field? connection = some v := by
    rw [HttpRequest.getHeader, h.headers]
    rcases m.field? connection with _ | w
    · exact iff_of_false (fun hnil => hv hnil.symm) nofun
    · rw [Option.getD_some, Option.some.injEq]
  have hversion : q.version_ = .kHttp10 ↔ ∃ c, m.version = HttpRequest.http1 c := by
    obtain ⟨c, ⟨hv, hq⟩ | ⟨hv, hq⟩⟩ := HttpRequest.versionOf_eq_some_iff.mp h.version.symm
    · exact iff_of_true hq ⟨c, hv⟩
    · refine iff_of_false (fun hq' => ?_) fun ⟨c', hv'⟩ => ?_
      · cases hq.symm.trans hq'
      · have hfirst := congrArg (List.take 6) (hv.symm.trans hv')
        exact absurd hfirst (by simp [HttpRequest.http1, HttpRequest.http2, octets])
  unfold closes
  rw [decide_eq_true_iff, hheader close (by decide), Ne, hheader keepAlive (by decide), hversion]

/-- Two requests to a server without a callback. -/
theorem requests_answered_inTwo : ∃ s qs, machine.run start
        (.connectionEstablished ::
          ([Delivery.inTwo, .inTwo].flatMap Delivery.arrivals).map (read defaultHttpCallback)) =
            .ok s ∧
      List.Forall₂ HttpMessage.Decodes ([Delivery.inTwo, .inTwo].map Delivery.request) qs ∧
      s.exchanges = qs.map (fun q => .served q (respond defaultHttpCallback q)) ∧
      s.wire.handed = (answers s.exchanges).flatten ∧
      s.wire.shutdowns.length = (closing s.exchanges).toNat ∧
      s.wire.conn.state = if closing s.exchanges then .kDisconnecting else .kConnected :=
  requests_answered defaultHttpCallback [.inTwo, .inTwo] (by decide +kernel)

end Conversation

end Firey
