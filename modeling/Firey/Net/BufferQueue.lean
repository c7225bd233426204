import Firey.Framework.Machine
import Firey.Net.Buffer
import Mathlib.Logic.Function.Basic

/-!
# `Bufferff` is a queue of octets

What the component is for is said by `Op.onQueue`, on plain octet strings: octets go in at
the back (or, for a header, at the front), come out at the front, and nothing else that the
operations do, growing, moving the octets down, resetting the indices, is visible.

`pool κ` is the machine of any number of buffers, named by `κ`, so that `swap` has two of them
to exchange.  `pool_refines` is the refinement: as long as each operation is called
under the precondition its own assertion states, no assertion fails, the indices stay in
order, and each buffer shows exactly the octets of its abstract queue.
-/

set_option autoImplicit false

namespace Firey

namespace Buffer

/-- A call of one of the operations.  `retrieveUntil` is given its pointer as an offset from
`peek()`, and `readFd` what the kernel answers. -/
inductive Op
  | append (data : Bytes)
  | prepend (data : Bytes)
  | retrieve (len : ℕ)
  | retrieveUntil (offset : ℕ)
  | retrieveAll
  | retrieveAsString (len : ℕ)
  | unwrite (len : ℕ)
  | ensureWritableBytes (len : ℕ)
  | hasWritten (data : Bytes)
  | shrink (reserve : ℕ)
  | readFd (r : ReadResult)
  deriving DecidableEq, Repr

/-- The buffer after the call. -/
def Op.apply (b : Buffer) : Op → Except Fault Buffer
  | .append data => b.append data
  | .prepend data => b.prepend data
  | .retrieve len => b.retrieve len
  | .retrieveUntil offset => b.retrieveUntil (b.readerIndex + offset)
  | .retrieveAll => .ok b.retrieveAll
  | .retrieveAsString len => do
      let (_, b') ← b.retrieveAsString len
      .ok b'
  | .unwrite len => b.unwrite len
  | .ensureWritableBytes len => b.ensureWritableBytes len
  | .hasWritten data => b.hasWritten data
  | .shrink reserve => b.shrink reserve
  | .readFd r => do
      let result ← b.readFd r
      .ok result.buffer

/-- What the call's own assertion asks of the caller, and for `readFd` of the kernel.  The
size of the contents matters to `shrink` alone, which sends it through an `int`. -/
def Op.Pre (b : Buffer) : Op → Prop
  | .prepend data => data.length ≤ b.prependableBytes
  | .retrieve len => len ≤ b.readableBytes
  | .retrieveUntil offset => offset ≤ b.readableBytes
  | .retrieveAsString len => len ≤ b.readableBytes
  | .unwrite len => len ≤ b.readableBytes
  | .hasWritten data => data.length ≤ b.writableBytes
  | .shrink _ => b.readableBytes < 2 ^ 31
  | .readFd (.got data) => data.length ≤ b.readFdOffer
  | _ => True

instance (b : Buffer) : (op : Op) → Decidable (op.Pre b)
  | .append _ => inferInstanceAs (Decidable True)
  | .prepend data => inferInstanceAs (Decidable (data.length ≤ b.prependableBytes))
  | .retrieve len => inferInstanceAs (Decidable (len ≤ b.readableBytes))
  | .retrieveUntil offset => inferInstanceAs (Decidable (offset ≤ b.readableBytes))
  | .retrieveAll => inferInstanceAs (Decidable True)
  | .retrieveAsString len => inferInstanceAs (Decidable (len ≤ b.readableBytes))
  | .unwrite len => inferInstanceAs (Decidable (len ≤ b.readableBytes))
  | .ensureWritableBytes _ => inferInstanceAs (Decidable True)
  | .hasWritten data => inferInstanceAs (Decidable (data.length ≤ b.writableBytes))
  | .shrink _ => inferInstanceAs (Decidable (b.readableBytes < 2 ^ 31))
  | .readFd (.got data) => inferInstanceAs (Decidable (data.length ≤ b.readFdOffer))
  | .readFd (.failed _) => inferInstanceAs (Decidable True)

/-- The same call on an abstract queue of octets. -/
def Op.onQueue (q : Bytes) : Op → Bytes
  | .append data => q ++ data
  | .prepend data => data ++ q
  | .retrieve len => q.drop len
  | .retrieveUntil offset => q.drop offset
  | .retrieveAll => []
  | .retrieveAsString len => q.drop len
  | .unwrite len => q.take (q.length - len)
  | .ensureWritableBytes _ => q
  | .hasWritten data => q ++ data
  | .shrink _ => q
  | .readFd (.got data) => q ++ data
  | .readFd (.failed _) => q

/-- One call keeps the invariant and does to the readable octets what it does to the queue. -/
theorem Op.apply_spec {b : Buffer} (h : b.WF) (op : Op) (hpre : op.Pre b) :
    ∃ b', op.apply b = .ok b' ∧ b'.WF ∧ b'.readable = op.onQueue b.readable := by
  cases op with
  | append data => exact append_spec h data
  | prepend data => exact prepend_spec h hpre
  | retrieve len => exact retrieve_spec h hpre
  | retrieveUntil offset => exact retrieveUntil_spec h hpre
  | retrieveAll => exact ⟨_, rfl, retrieveAll_wf h, readable_retrieveAll b⟩
  | retrieveAsString len =>
    obtain ⟨b', hret, hspec⟩ := retrieveAsString_spec h hpre
    exact ⟨b', by rw [apply, hret, ok_bind], hspec⟩
  | unwrite len => exact unwrite_spec h hpre
  | ensureWritableBytes len =>
    obtain ⟨b', hens, hwf, hread, -⟩ := ensureWritableBytes_spec h len
    exact ⟨b', hens, hwf, hread⟩
  | hasWritten data => exact hasWritten_spec h hpre
  | shrink reserve => exact shrink_spec h hpre reserve
  | readFd r =>
    cases r with
    | failed e => exact ⟨b, rfl, h, rfl⟩
    | got data =>
      obtain ⟨b', hread, hwf, hspec⟩ := readFd_got_spec h data
      rw [List.take_of_length_le hpre] at hspec
      exact ⟨b', by rw [apply, hread, ok_bind], hwf, hspec⟩

/-! ## Any number of buffers -/

variable {κ : Type} [DecidableEq κ]

/-- A call on one buffer, or `swap` of two. -/
inductive PoolOp (κ : Type)
  | call (k : κ) (op : Op)
  | swap (j k : κ)

/-- The buffers after a call. -/
def PoolOp.apply (p : κ → Buffer) : PoolOp κ → Except Fault (κ → Buffer)
  | .call k op => do
      let b ← op.apply (p k)
      .ok (Function.update p k b)
  | .swap j k =>
      let (bj, bk) := (p j).swap (p k)
      .ok (Function.update (Function.update p j bj) k bk)

/-- The machine of a family of buffers. -/
def pool (κ : Type) [DecidableEq κ] : Machine (κ → Buffer) (PoolOp κ) Fault where
  step := PoolOp.apply

/-- The precondition of a call in the state it is made in. -/
def PoolOp.Pre (p : κ → Buffer) : PoolOp κ → Prop
  | .call k op => op.Pre (p k)
  | .swap _ _ => True

instance (p : κ → Buffer) : (op : PoolOp κ) → Decidable (op.Pre p)
  | .call k op => inferInstanceAs (Decidable (op.Pre (p k)))
  | .swap _ _ => inferInstanceAs (Decidable True)

/-- The same call on abstract queues; `swap` exchanges two of them. -/
def PoolOp.onQueues (q : κ → Bytes) : PoolOp κ → κ → Bytes
  | .call k op => Function.update q k (op.onQueue (q k))
  | .swap j k => Function.update (Function.update q j (q k)) k (q j)

/-- Each buffer is in order and shows the octets of its queue. -/
def Shows (p : κ → Buffer) (q : κ → Bytes) : Prop :=
  ∀ k, (p k).WF ∧ (p k).readable = q k

/-- Replacing one buffer and its queue together keeps the others. -/
lemma Shows.update {p : κ → Buffer} {q : κ → Bytes} (h : Shows p q) (k : κ) {b : Buffer}
    {c : Bytes} (hb : b.WF) (hc : b.readable = c) :
    Shows (Function.update p k b) (Function.update q k c) := by
  intro i
  by_cases hi : i = k
  · subst hi
    rw [Function.update_self, Function.update_self]
    exact ⟨hb, hc⟩
  · rw [Function.update_of_ne hi, Function.update_of_ne hi]
    exact h i

lemma pool_step_refines (p : κ → Buffer) (q : κ → Bytes) (op : PoolOp κ) (h : Shows p q)
    (hpre : op.Pre p) : ∃ p', (pool κ).step p op = .ok p' ∧ Shows p' (op.onQueues q) := by
  cases op with
  | call k op =>
    obtain ⟨hwf, hread⟩ := h k
    obtain ⟨b, happ, hwf', hread'⟩ := op.apply_spec hwf hpre
    refine ⟨Function.update p k b, ?_, h.update k hwf' ?_⟩
    · show PoolOp.apply p (.call k op) = _
      rw [PoolOp.apply, happ, ok_bind]
    · rw [hread', hread]
  | swap j k =>
    exact ⟨_, rfl, (h.update j (h k).1 (h k).2).update k (h j).1 (h j).2⟩

/-- **`Bufferff` refines a queue of octets.**  From any constructor calls, any sequence of
operations each called under its own precondition fails no assertion, keeps the indices in
order with the prepend area in the storage, and shows the octets of the abstract queues. -/
theorem pool_refines (sizes : κ → ℕ) (ops : List (PoolOp κ))
    (hpre : (pool κ).Along (fun p op => op.Pre p) (fun k => ofInitialSize (sizes k)) ops) :
    ∃ p, (pool κ).run (fun k => ofInitialSize (sizes k)) ops = .ok p ∧
      ∀ k, ((p k).readerIndex ≤ (p k).writerIndex ∧ (p k).writerIndex ≤ (p k).buffer.length ∧
          kCheapPrepend ≤ (p k).buffer.length) ∧
        (p k).readable = ops.foldl PoolOp.onQueues (fun _ => []) k := by
  have hinit : Shows (fun k => ofInitialSize (sizes k)) (fun _ => []) :=
    fun k => ⟨ofInitialSize_wf _, readable_ofInitialSize _⟩
  obtain ⟨p, hrun, hshows⟩ :=
    (pool κ).run_refines (R := Shows) (fun p q op h hop => pool_step_refines p q op h hop)
      hinit hpre
  refine ⟨p, hrun, fun k => ⟨?_, (hshows k).2⟩⟩
  obtain ⟨hwf, -⟩ := hshows k
  exact ⟨hwf.reader_le, hwf.writer_le, hwf.prepend_le⟩

/-- Two small buffers: one is filled, drained in part, made to move its octets down, and
exchanged with the other. -/
theorem pool_refines_swap :
    ∃ p, (pool Bool).run (fun _ => ofInitialSize 4)
        [.call true (.append [1, 2, 3, 4]), .call true (.retrieve 3),
          .call true (.ensureWritableBytes 3), .call false (.readFd (.got [7])),
          .swap true false] = .ok p ∧
      (p true).readable = [7] ∧ (p false).readable = [4] := by
  obtain ⟨p, hrun, hp⟩ := pool_refines (fun _ : Bool => 4)
    [.call true (.append [1, 2, 3, 4]), .call true (.retrieve 3),
      .call true (.ensureWritableBytes 3), .call false (.readFd (.got [7])), .swap true false]
    (by decide +kernel)
  exact ⟨p, hrun, (hp true).2, (hp false).2⟩

end Buffer

end Firey
