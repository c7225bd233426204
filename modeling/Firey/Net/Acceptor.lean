import Firey.Fault
import Firey.Framework.Machine
import Firey.Framework.Slots

/-!
# `Acceptorff`, and what it does when the process has no descriptors left

The acceptor keeps a descriptor in reserve.  When `accept` fails with `EMFILE`, it closes the reserve,
accepts the connection in its place, closes that, and opens the reserve again.  The constructor opens
it by an absolute path, and `handleRead` by a relative one, so whether it comes back depends on the
working directory.

The table of descriptors is that of the process.  Between the calls other code opens and closes
descriptors of its own.  Logging leaves `errno` alone.
-/

set_option autoImplicit false

namespace Firey

/-- What a descriptor is open for. -/
inductive OpenFile
  | listener
  | connection (id : ℕ)
  | reserve
  | other
  deriving DecidableEq, Repr

/-- What `errno` can be after `accept`. -/
inductive AcceptErrno
  | EAGAIN
  | ECONNABORTED
  | EINTR
  | EPROTO
  | EPERM
  | EMFILE
  | EBADF
  | EFAULT
  | EINVAL
  | ENFILE
  | ENOBUFS
  | ENOMEM
  | ENOTSOCK
  | EOPNOTSUPP
  | other (code : ℕ)
  deriving DecidableEq, Repr

/-- The expected errors of `Socket::accept`; at the other ones it aborts. -/
def AcceptErrno.expected : AcceptErrno → Bool
  | EAGAIN | ECONNABORTED | EINTR | EPROTO | EPERM | EMFILE => true
  | _ => false

/-- An error that has nothing to do with the table. -/
abbrev AcceptRefusal := { e : AcceptErrno // e ≠ .EMFILE }

/-- `closed` are the connections that have been closed, in order. -/
structure AcceptorSystem where
  table : Slots OpenFile
  backlog : List ℕ
  closed : List ℕ
  acceptSocket_ : ℕ
  idleFd_ : ℤ
  newConnectionCallback_ : Bool
  deriving DecidableEq, Repr

/-- `resolves` says whether the relative path leads to a file from where the process is then. -/
inductive AcceptorEvent
  | connect (id : ℕ)
  | handleRead (refusal : Option AcceptRefusal) (resolves : Bool)
  | setNewConnectionCallback (set : Bool)
  /-- Other code opens a descriptor, or closes one of its own. -/
  | openOther
  | closeOther (fd : ℕ)
  deriving DecidableEq, Repr

namespace AcceptorSystem

/-- `close(fd)`. -/
def close (s : AcceptorSystem) (fd : ℤ) : AcceptorSystem :=
  match fd with
  | .ofNat fd =>
      { s with
        table := s.table.free fd
        closed := match s.table.occupant fd with
          | some (.connection id) => s.closed ++ [id]
          | _ => s.closed }
  | .negSucc _ => s

/-- `open`, of a path that leads to a file or does not. -/
def openPath (s : AcceptorSystem) (resolves : Bool) : ℤ × AcceptorSystem :=
  match s.table.alloc .reserve with
  | some (fd, table) => if resolves then (fd, { s with table := table }) else (-1, s)
  | none => (-1, s)

/-- `accept` of the kernel, which looks for a descriptor first. -/
def accept (s : AcceptorSystem) (refusal : Option AcceptRefusal) :
    Except AcceptErrno ℕ × AcceptorSystem :=
  match s.backlog, refusal with
  | id :: backlog, none =>
      match s.table.alloc (.connection id) with
      | some (fd, table) => (.ok fd, { s with table := table, backlog := backlog })
      | none => (.error .EMFILE, s)
  | _, _ =>
      if s.table.Full then (.error .EMFILE, s)
      else (.error (refusal.elim .EAGAIN Subtype.val), s)

/-- `Socket::accept(sockfd, addr)`. -/
def socketAccept (s : AcceptorSystem) (refusal : Option AcceptRefusal) :
    Except Fault (Except AcceptErrno ℕ × AcceptorSystem) :=
  match s.accept refusal with
  | (.ok connfd, s) => .ok (.ok connfd, s)
  | (.error e, s) => if e.expected then .ok (.error e, s) else .error .logFatal

/-- `idleFd_=::accept(acceptSocket_.fd(),NULL,NULL)`. -/
def acceptIdle (s : AcceptorSystem) : AcceptorSystem :=
  match s.accept none with
  | (.ok connfd, s) => { s with idleFd_ := connfd }
  | (.error _, s) => { s with idleFd_ := -1 }

/-- `handleRead()`. -/
def handleRead (s : AcceptorSystem) (refusal : Option AcceptRefusal) (resolves : Bool) :
    Except Fault AcceptorSystem := do
  let (connfd, s) ← s.socketAccept refusal
  match connfd with
  | .ok connfd => .ok (if s.newConnectionCallback_ then s else s.close connfd)
  | .error e =>
      if e = .EMFILE then
        let s := (s.close s.idleFd_).acceptIdle
        -- the path begins without a slash
        let (idleFd, s) := (s.close s.idleFd_).openPath resolves
        .ok { s with idleFd_ := idleFd }
      else .ok s

/-- The constructor, in a process with these descriptors. -/
def ctor (table : Slots OpenFile) : Except Fault AcceptorSystem :=
  match table.alloc .listener with
  | none => .error .sysFatal
  | some (fd, table) => do
      let (idleFd, s) := openPath
        { table := table
          backlog := []
          closed := []
          acceptSocket_ := fd
          idleFd_ := -1
          newConnectionCallback_ := false } true
      check .acceptor (0 ≤ idleFd)
      .ok { s with idleFd_ := idleFd }

/-- One event. -/
def step (s : AcceptorSystem) : AcceptorEvent → Except Fault AcceptorSystem
  | .connect id => .ok { s with backlog := s.backlog ++ [id] }
  | .handleRead refusal resolves => s.handleRead refusal resolves
  | .setNewConnectionCallback set => .ok { s with newConnectionCallback_ := set }
  | .openOther =>
      match s.table.alloc .other with
      | some (_, table) => .ok { s with table := table }
      | none => .ok s
  | .closeOther fd =>
      if fd = s.acceptSocket_ ∨ fd = s.idleFd_ then .ok s else .ok (s.close fd)

def machine : Machine AcceptorSystem AcceptorEvent Fault := ⟨step⟩

/-! ## The reserve -/

/-- `idleFd_` is open, and in reserve. -/
def Reserved (s : AcceptorSystem) : Prop :=
  ∃ fd : ℕ, s.idleFd_ = fd ∧ s.table.occupant fd = some .reserve

/-- The first connection of the backlog is taken and closed, and no other one. -/
def TakesOne (s t : AcceptorSystem) : Prop :=
  ∃ id, s.backlog = id :: t.backlog ∧ t.closed = s.closed ++ [id]

/-- What is asked of an event: the reserve is there after it, and a call of `handleRead` with a full
table, and with connections pending, takes one of them and closes it. -/
def Survives (s : AcceptorSystem) (i : AcceptorEvent) : Prop :=
  ∀ t, s.step i = .ok t → t.Reserved ∧
    ∀ refusal resolves, i = .handleRead refusal resolves → s.table.Full → s.backlog ≠ [] →
      s.TakesOne t

/-- A call that finds the table full is made in a directory from where the relative path leads to a
file. -/
def Resolves (s : AcceptorSystem) (i : AcceptorEvent) : Prop :=
  ∀ refusal resolves, i = .handleRead refusal resolves → s.table.Full → resolves = true

/-- What **a call with a full table** comes to: the table is what it was, but for the reserve. -/
def exhausted (s : AcceptorSystem) (fd : ℕ) (resolves : Bool) : AcceptorSystem :=
  { s with
    table := if resolves then s.table else s.table.free fd
    backlog := s.backlog.tail
    closed := s.closed ++ s.backlog.take 1
    idleFd_ := if resolves then fd else -1 }

variable {s t : AcceptorSystem} {fd : ℕ}

lemma close_reserve (h : s.table.occupant fd = some .reserve) :
    s.close fd = { s with table := s.table.free fd } := by
  unfold close
  dsimp only
  rw [h]

/-- The reserve opens again, if the path leads to a file. -/
lemma openPath_freed (hfull : s.table.Full) (hfd : s.table.occupant fd = some .reserve)
    (resolves : Bool) :
    openPath { s with table := s.table.free fd } resolves =
      (if resolves then (fd : ℤ) else -1,
        { s with table := if resolves then s.table else s.table.free fd }) := by
  unfold openPath
  rw [Slots.alloc_free hfull hfd]
  dsimp only
  rw [Slots.set_occupant hfd]
  cases resolves <;> rfl

lemma accept_full (h : s.table.Full) (refusal : Option AcceptRefusal) :
    s.accept refusal = (.error .EMFILE, s) := by
  unfold accept
  split
  · rw [Slots.alloc_of_full h]
  · rw [if_pos h]

/-- The connection is accepted in the place of the reserve, and closed. -/
lemma acceptIdle_close (hfull : s.table.Full) (hfd : s.table.occupant fd = some .reserve) :
    let u := acceptIdle { s with table := s.table.free fd }
    u.close u.idleFd_ =
      { s with
        table := s.table.free fd
        backlog := s.backlog.tail
        closed := s.closed ++ s.backlog.take 1
        idleFd_ := if s.backlog = [] then -1 else fd } := by
  obtain ⟨table, backlog, closed, acceptSocket_, idleFd_, callback⟩ := s
  dsimp only at hfull hfd ⊢
  cases backlog with
  | nil =>
    have haccept : accept ⟨table.free fd, [], closed, acceptSocket_, idleFd_, callback⟩ none =
        (.error .EAGAIN, ⟨table.free fd, [], closed, acceptSocket_, idleFd_, callback⟩) :=
      if_neg (Slots.not_full_free hfd)
    rw [acceptIdle, haccept, List.take_nil, List.append_nil]
    rfl
  | cons id backlog =>
    have haccept : accept ⟨table.free fd, id :: backlog, closed, acceptSocket_, idleFd_, callback⟩
        none = (.ok fd, ⟨⟨table.entries.set fd (some (.connection id))⟩, backlog, closed,
          acceptSocket_, idleFd_, callback⟩) := by
      unfold accept
      dsimp only
      rw [Slots.alloc_free hfull hfd]
    rw [acceptIdle, haccept, if_neg (List.cons_ne_nil _ _)]
    dsimp only
    unfold close
    dsimp only
    rw [Slots.occupant_set_self (Slots.lt_of_occupant hfd), Slots.free_set]
    rfl

lemma handleRead_full (hfull : s.table.Full) (hidle : s.idleFd_ = fd)
    (hfd : s.table.occupant fd = some .reserve) (refusal : Option AcceptRefusal)
    (resolves : Bool) : s.handleRead refusal resolves = .ok (s.exhausted fd resolves) := by
  have haccept : s.socketAccept refusal = .ok (.error .EMFILE, s) := by
    rw [socketAccept, accept_full hfull]
    rfl
  rw [handleRead, haccept, ok_bind]
  dsimp only
  rw [if_pos rfl, hidle, close_reserve hfd, acceptIdle_close hfull hfd]
  have hopen := openPath_freed (s := { s with
    backlog := s.backlog.tail
    closed := s.closed ++ s.backlog.take 1
    idleFd_ := if s.backlog = [] then -1 else fd }) hfull hfd resolves
  rw [hopen]
  rfl

lemma refusal_ne (refusal : Option AcceptRefusal) :
    refusal.elim .EAGAIN Subtype.val ≠ AcceptErrno.EMFILE := by
  cases refusal with
  | none => decide
  | some e => exact e.2

/-- With a free descriptor, a connection is accepted into it, or nothing happens. -/
lemma accept_free (hfull : ¬ s.table.Full) (refusal : Option AcceptRefusal) :
    (∃ id backlog n, s.table.entries[n]? = some none ∧
      s.accept refusal = (.ok n, { s with
        table := ⟨s.table.entries.set n (some (.connection id))⟩, backlog := backlog })) ∨
    ∃ e, e ≠ .EMFILE ∧ s.accept refusal = (.error e, s) := by
  unfold accept
  split
  next id backlog _ =>
    obtain ⟨n, hn, halloc⟩ := Slots.alloc_of_not_full hfull (.connection id)
    exact Or.inl ⟨id, backlog, n, hn, by rw [halloc]⟩
  next => exact Or.inr ⟨_, refusal_ne _, if_neg hfull⟩

/-- The slot of the reserve is not free. -/
lemma ne_of_free {n : ℕ} (hn : s.table.entries[n]? = some none)
    (hfd : s.table.occupant fd = some .reserve) : fd ≠ n := by
  rintro rfl
  rw [Slots.entries_of_occupant hfd] at hn
  cases hn

/-- A descriptor that is closed is another one than the reserve. -/
lemma close_reserved {n : ℕ} (hidle : s.idleFd_ = fd) (hfd : s.table.occupant fd = some .reserve)
    (hne : fd ≠ n) : (s.close n).Reserved :=
  ⟨fd, hidle, (Slots.occupant_free_of_ne hne).trans hfd⟩

/-- A call that finds a free descriptor leaves the reserve alone. -/
lemma handleRead_reserved (h : s.Reserved) (hfull : ¬ s.table.Full)
    {refusal : Option AcceptRefusal} {resolves : Bool}
    (ht : s.handleRead refusal resolves = .ok t) : t.Reserved := by
  obtain ⟨fd, hidle, hfd⟩ := h
  obtain ⟨⟨connfd, u⟩, haccept, ht⟩ := bind_eq_ok ht
  rcases accept_free hfull refusal with ⟨id, backlog, n, hn, hsome⟩ | ⟨e, he, herror⟩
  · rw [socketAccept, hsome] at haccept
    cases haccept
    have hne := ne_of_free hn hfd
    have hkept := (Slots.occupant_set_of_ne hne (some (OpenFile.connection id))).trans hfd
    dsimp only at ht
    split at ht
    · cases ht
      exact ⟨fd, hidle, hkept⟩
    · cases ht
      exact close_reserved hidle hkept hne
  · rw [socketAccept, herror] at haccept
    dsimp only at haccept
    split at haccept
    · cases haccept
      dsimp only at ht
      rw [if_neg he] at ht
      cases ht
      exact ⟨fd, hidle, hfd⟩
    · cases haccept

lemma exhausted_reserved_iff (s : AcceptorSystem) (hfd : s.table.occupant fd = some .reserve)
    (resolves : Bool) : (s.exhausted fd resolves).Reserved ↔ resolves = true := by
  cases resolves with
  | true => exact iff_of_true ⟨fd, rfl, hfd⟩ rfl
  | false =>
    refine iff_of_false ?_ nofun
    rintro ⟨n, hn, -⟩
    exact absurd hn nofun

/-- **Every step** but a call with a full table that the path fails keeps the reserve. -/
lemma step_reserved (h : s.Reserved) {i : AcceptorEvent} (hi : s.Resolves i)
    (ht : s.step i = .ok t) : t.Reserved := by
  have hall := h
  obtain ⟨fd, hidle, hfd⟩ := h
  cases i with
  | connect id =>
    cases ht
    exact hall
  | setNewConnectionCallback set =>
    cases ht
    exact hall
  | handleRead refusal resolves =>
    by_cases hfull : s.table.Full
    · cases (handleRead_full hfull hidle hfd refusal resolves).symm.trans ht
      exact (s.exhausted_reserved_iff hfd resolves).mpr (hi refusal resolves rfl hfull)
    · exact handleRead_reserved hall hfull ht
  | openOther =>
    unfold step at ht
    dsimp only at ht
    split at ht
    next n table halloc =>
      cases ht
      exact ⟨fd, hidle, Slots.occupant_alloc halloc hfd⟩
    next =>
      cases ht
      exact hall
  | closeOther n =>
    unfold step at ht
    dsimp only at ht
    split at ht
    next =>
      cases ht
      exact hall
    next hother =>
      cases ht
      refine close_reserved hidle hfd ?_
      rintro rfl
      exact hother (Or.inr hidle.symm)

/-- **The reserve comes back**, and a full table is survived, exactly where the path leads to a
file. -/
lemma survives_iff_resolves (h : s.Reserved) (i : AcceptorEvent) :
    s.Survives i ↔ s.Resolves i := by
  obtain ⟨fd, hidle, hfd⟩ := h
  constructor
  · rintro hsurvives refusal resolves rfl hfull
    obtain ⟨hreserved, -⟩ := hsurvives _ (handleRead_full hfull hidle hfd refusal resolves)
    exact (s.exhausted_reserved_iff hfd resolves).mp hreserved
  · intro hi t ht
    refine ⟨step_reserved ⟨fd, hidle, hfd⟩ hi ht, ?_⟩
    rintro refusal resolves rfl hfull hpending
    cases (handleRead_full hfull hidle hfd refusal resolves).symm.trans ht
    obtain ⟨id, backlog, hbacklog⟩ := List.exists_cons_of_ne_nil hpending
    refine ⟨id, ?_, ?_⟩
    · rw [hbacklog, exhausted, hbacklog, List.tail_cons]
    · rw [exhausted, hbacklog, List.take_succ_cons, List.take_zero]

/-- The constructor opens the reserve, or fails its assertion. -/
lemma ctor_reserved {table : Slots OpenFile} (hs : ctor table = .ok s) : s.Reserved := by
  unfold ctor at hs
  split at hs
  next => cases hs
  next fd table _ =>
    by_cases hfull : table.Full
    · have hopen : ∀ u : AcceptorSystem, u.table = table → u.openPath true = (-1, u) := by
        rintro u rfl
        rw [openPath, Slots.alloc_of_full hfull]
      rw [hopen _ rfl] at hs
      dsimp only at hs
      obtain ⟨_, hcheck, -⟩ := bind_eq_ok hs
      exact absurd (check_eq_ok hcheck) (by decide)
    · obtain ⟨n, hn, halloc⟩ := Slots.alloc_of_not_full hfull OpenFile.reserve
      have hopen : ∀ u : AcceptorSystem, u.table = table →
          u.openPath true = ((n : ℤ), { u with table := ⟨table.entries.set n (some .reserve)⟩ }) := by
        rintro u rfl
        rw [openPath, halloc]
        rfl
      rw [hopen _ rfl] at hs
      dsimp only at hs
      obtain ⟨-, -, hs⟩ := bind_eq_ok hs
      cases hs
      exact ⟨n, rfl, Slots.occupant_set_self (List.getElem?_eq_some_iff.mp hn).1 _⟩

/-- **Exhaustion is survived** by every event of a run, exactly when each call that finds the table
full is made where the relative path leads to a file. -/
theorem survives_iff {table : Slots OpenFile} (hs : ctor table = .ok s)
    (is : List AcceptorEvent) : machine.Along Survives s is ↔ machine.Along Resolves s is :=
  machine.along_iff_along (fun _ i h => survives_iff_resolves h i)
    (fun _ _ _ h hi ht => step_reserved h hi ht) (ctor_reserved hs)

/-- The acceptor in a process that may have four descriptors, and has no others yet. -/
def sample : AcceptorSystem where
  table := ⟨[some .listener, some .reserve, none, none]⟩
  backlog := []
  closed := []
  acceptSocket_ := 0
  idleFd_ := 1
  newConnectionCallback_ := false

/-- In the root directory the relative path is as good as the other one. -/
theorem survives_iff_root :
    machine.Along Survives sample [.openOther, .openOther, .connect 7, .connect 8,
        .handleRead none true, .handleRead none true] ↔
      machine.Along Resolves sample [.openOther, .openOther, .connect 7, .connect 8,
        .handleRead none true, .handleRead none true] :=
  survives_iff (show ctor ⟨List.replicate 4 none⟩ = .ok sample by decide) _

/-- Elsewhere the reserve does not come back.  Its descriptor goes to other code, and then the second
connection stays in the backlog. -/
theorem second_exhaustion_fails :
    ctor ⟨List.replicate 4 none⟩ = .ok sample ∧
      machine.run sample [.openOther, .openOther, .connect 7, .connect 8,
          .handleRead none false, .openOther, .handleRead none false] =
        .ok ⟨⟨[some .listener, some .other, some .other, some .other]⟩, [8], [7], 0, -1, false⟩ ∧
      ¬ machine.Along Survives sample [.openOther, .openOther, .connect 7, .connect 8,
          .handleRead none false, .openOther, .handleRead none false] := by
  refine ⟨by decide, by decide, fun h => ?_⟩
  have hevent : Survives
      ⟨⟨[some .listener, some .reserve, some .other, some .other]⟩, [7, 8], [], 0, 1, false⟩
      (.handleRead none false) := h.2.2.2.2.1
  obtain ⟨⟨fd, hfd, -⟩, -⟩ := hevent
    ⟨⟨[some .listener, none, some .other, some .other]⟩, [8], [7], 0, -1, false⟩ (by decide)
  exact absurd hfd nofun

end AcceptorSystem

end Firey
