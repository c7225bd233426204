import Firey.Fault
import Firey.Framework.Machine
import Firey.Framework.Numeral
import Mathlib.Data.Nat.ModEq
import Std.Data.ExtTreeMap

/-!
# The names of connections

`TcpServerff` files a connection in `connections_` under a name made of its own name, the text of
the listening address and `nextConnId_`, an `int` that goes up with every accept.  The text of an
IPv4 address with its port has 21 characters at most (`toIpPort_ok`), so the 64 of `buf` are always
enough, and two names are the same exactly when the two accepts had the same value of the counter
(`suffix_inj`).

The counter comes back to a value after 2³² accepts.  A connection that is still open then loses
its place in `connections_` to the new one.  `names_unique_iff` says that this is the only way in
which names fail: `connections_` holds exactly the connections accepted and not yet removed, in
every state of every run in which no connection is open 2³² accepts, or a multiple of that, later.
-/

set_option autoImplicit false

namespace Firey

/-! ## Addresses -/

/-- `'.'`. -/
def dot : Byte := 46

/-- `'-'`. -/
def dash : Byte := 45

/-- `':'`. -/
def colon : Byte := 58

/-- `'#'`. -/
def hash : Byte := 35

/-- The `sockaddr_in` of an `InetAddressff`: the octets of the address, in their order on the wire,
and the port as `ntohs` gives it. -/
structure InetAddress where
  sin_addr : Fin 4 → Byte
  sin_port : UInt16

/-- What `inet_ntop` writes for `AF_INET`, when there is room for it. -/
def inet_ntop (addr : Fin 4 → Byte) : Bytes :=
  unsignedText (addr 0).toNat ++ dot :: (unsignedText (addr 1).toNat ++
    dot :: (unsignedText (addr 2).toNat ++ dot :: unsignedText (addr 3).toNat))

/-- `INET_ADDRSTRLEN`. -/
def INET_ADDRSTRLEN : ℕ := 16

namespace Socket

def toIp (size : ℕ) (addr : InetAddress) : Except Fault Bytes := do
  check .toIp (INET_ADDRSTRLEN ≤ size)
  .ok (inet_ntop addr.sin_addr)

def toIpPort (size : ℕ) (addr : InetAddress) : Except Fault Bytes := do
  let buf ← toIp size addr
  check .toIpPort (buf.length < size)
  .ok (buf ++ snprintf (size - buf.length) (colon :: unsignedText addr.sin_port.toNat))

end Socket

/-- `InetAddressff::toIpPort`. -/
def InetAddress.toIpPort (addr : InetAddress) : Except Fault Bytes := Socket.toIpPort 64 addr

/-! ## The server -/

/-- A connection with the name it was made with.  Connections are told apart by the order of
`newConnection`, the names aside. -/
structure NamedConnection where
  number : ℕ
  name_ : Bytes
  deriving DecidableEq

/-- The fields of `TcpServerff` that `newConnection` and `removeConnectionInLoop` use, with the
number of connections accepted so far and those not removed since. -/
structure ServerNames where
  ipPort_ : Bytes
  name_ : Bytes
  nextConnId_ : BitVec 32
  connections_ : Std.ExtTreeMap Bytes NamedConnection
  accepted : ℕ
  live : List NamedConnection

namespace ServerNames

/-- The constructor. -/
def ctor (listenAddr : InetAddress) (name : Bytes) : Except Fault ServerNames := do
  let ipPort ← listenAddr.toIpPort
  .ok ⟨ipPort, name, 1, ∅, 0, []⟩

/-- What `newConnection` prints for a value of the counter. -/
def suffix (ipPort : Bytes) (id : BitVec 32) : Bytes :=
  dash :: (ipPort ++ hash :: decimalText id.toInt)

/-- `connName`; `buf` has 64 characters. -/
def connName (s : ServerNames) : Bytes := s.name_ ++ snprintf 64 (suffix s.ipPort_ s.nextConnId_)

def newConnection (s : ServerNames) : ServerNames :=
  let conn := ⟨s.accepted, s.connName⟩
  { s with
    nextConnId_ := s.nextConnId_ + 1
    connections_ := s.connections_.insert s.connName conn
    accepted := s.accepted + 1
    live := conn :: s.live }

def removeConnectionInLoop (s : ServerNames) (conn : NamedConnection) :
    Except Fault ServerNames := do
  check .removeConnectionInLoop (conn.name_ ∈ s.connections_)
  .ok { s with connections_ := s.connections_.erase conn.name_, live := s.live.erase conn }

/-- A call; the connection that is removed is given by its number. -/
inductive Call
  | newConnection
  | removeConnectionInLoop (number : ℕ)
  deriving DecidableEq, Repr

/-- Only a connection that has not been removed yet is removed. -/
def machine : Machine ServerNames Call Fault where
  step s
    | .newConnection => .ok s.newConnection
    | .removeConnectionInLoop number =>
        match s.live.find? fun conn => conn.number = number with
        | some conn => s.removeConnectionInLoop conn
        | none => .ok s

/-! ## What names are for -/

/-- `connections_` holds the connections accepted and not yet removed, and nothing else. -/
def Exact (s : ServerNames) : Prop :=
  ∀ name conn, s.connections_[name]? = some conn ↔ conn ∈ s.live ∧ conn.name_ = name

/-- Every connection that was added has its whole name, and no connection had that name before. -/
def AddsNew (s t : ServerNames) : Prop :=
  ∀ conn ∈ t.live, conn ∉ s.live →
    conn.name_ = s.name_ ++ suffix s.ipPort_ s.nextConnId_ ∧ conn.name_ ∉ s.connections_

/-- Names are unique, and no assertion fails. -/
def unique : RunSpec ServerNames Fault where
  good := Exact
  move := AddsNew
  stop _ := False

/-- No connection that is still there was accepted a multiple of 2³² accepts ago. -/
def NoneReturns (s : ServerNames) : Call → Prop
  | .newConnection => ∀ conn ∈ s.live, ¬ 2 ^ 32 ∣ s.accepted - conn.number
  | .removeConnectionInLoop _ => True

/-! ## The text of an address -/

lemma length_inet_ntop_le (addr : Fin 4 → Byte) : (inet_ntop addr).length ≤ 15 := by
  have hoctet : ∀ i, (unsignedText (addr i).toNat).length ≤ 3 := fun i =>
    length_unsignedText_le (by decide) ((addr i).toNat_lt.trans (by decide))
  have h₀ := hoctet 0
  have h₁ := hoctet 1
  have h₂ := hoctet 2
  have h₃ := hoctet 3
  simp only [inet_ntop, List.length_append, List.length_cons]
  omega

/-- `toIpPort` goes through, with 21 characters at most. -/
lemma toIpPort_ok (addr : InetAddress) :
    ∃ ipPort, addr.toIpPort = .ok ipPort ∧ ipPort.length ≤ 21 := by
  have hip := length_inet_ntop_le addr.sin_addr
  have hport : (unsignedText addr.sin_port.toNat).length ≤ 5 :=
    length_unsignedText_le (by decide) (addr.sin_port.toNat_lt.trans (by decide))
  have hroom : (inet_ntop addr.sin_addr).length < 64 := hip.trans_lt (by decide)
  refine ⟨inet_ntop addr.sin_addr ++ colon :: unsignedText addr.sin_port.toNat, ?_, ?_⟩
  · rw [InetAddress.toIpPort, Socket.toIpPort, Socket.toIp, check_true (by decide), ok_bind,
      ok_bind, check_true hroom, ok_bind, snprintf_of_lt]
    rw [List.length_cons]
    omega
  · rw [List.length_append, List.length_cons]
    omega

/-! ## Two names -/

section Names

variable {ipPort : Bytes}

lemma length_suffix_lt (h : ipPort.length ≤ 21) (id : BitVec 32) :
    (suffix ipPort id).length < 64 := by
  have hbits := id.toInt_lt
  have hbits' := id.le_toInt
  have hnumber : (decimalText id.toInt).length ≤ (if id.toInt < 0 then 1 else 0) + 10 :=
    length_decimalText_le (by decide) (by omega)
  have hsign : (if id.toInt < 0 then 1 else 0) ≤ 1 := by split <;> omega
  rw [suffix, List.length_cons, List.length_append, List.length_cons]
  omega

/-- The same text is printed for the same value of the counter only. -/
lemma suffix_inj {id id' : BitVec 32} (h : suffix ipPort id = suffix ipPort id') : id = id' := by
  have htail := List.append_cancel_left (List.cons.inj h).2
  exact BitVec.toInt_inj.mp (decimalText_inj (List.cons.inj htail).2)

end Names

/-- Two accepts have the same value of the counter when a multiple of 2³² lies between them. -/
lemma counter_eq_iff {m n : ℕ} (h : m ≤ n) :
    BitVec.ofNat 32 (m + 1) = BitVec.ofNat 32 (n + 1) ↔ 2 ^ 32 ∣ n - m := by
  rw [← BitVec.toNat_inj, BitVec.toNat_ofNat, BitVec.toNat_ofNat, ← Nat.modEq_iff_dvd' h]
  exact Nat.ModEq.add_iff_right rfl

/-! ## What every run keeps -/

/-- What holds as long as no value of the counter comes back to a connection that is still there. -/
structure Inv (s : ServerNames) : Prop where
  length_le : s.ipPort_.length ≤ 21
  next : s.nextConnId_ = BitVec.ofNat 32 (s.accepted + 1)
  earlier : ∀ conn ∈ s.live, conn.number < s.accepted
  named : ∀ conn ∈ s.live,
    conn.name_ = s.name_ ++ suffix s.ipPort_ (BitVec.ofNat 32 (conn.number + 1))
  nodup : s.live.Nodup
  exact : s.Exact

variable {s t : ServerNames} {conn : NamedConnection}

lemma ctor_ok (listenAddr : InetAddress) (name : Bytes) :
    ∃ s, ctor listenAddr name = .ok s ∧ s.Inv ∧ s.accepted = 0 ∧ s.live = [] := by
  obtain ⟨ipPort, hip, hlen⟩ := toIpPort_ok listenAddr
  refine ⟨⟨ipPort, name, 1, ∅, 0, []⟩, by rw [ctor, hip, ok_bind], ?_, rfl, rfl⟩
  refine ⟨hlen, rfl, fun _ h => (nomatch h), fun _ h => (nomatch h), List.nodup_nil, ?_⟩
  intro name conn
  rw [Std.ExtTreeMap.getElem?_empty]
  exact ⟨fun h => (nomatch h), fun h => (nomatch h.1)⟩

/-- The name that is built is never cut off. -/
lemma Inv.connName_eq (h : s.Inv) : s.connName = s.name_ ++ suffix s.ipPort_ s.nextConnId_ := by
  rw [connName, snprintf_of_lt (length_suffix_lt h.length_le _)]

lemma Inv.name_mem (h : s.Inv) (hconn : conn ∈ s.live) : conn.name_ ∈ s.connections_ := by
  rw [Std.ExtTreeMap.mem_iff_isSome_getElem?, (h.exact _ conn).mpr ⟨hconn, rfl⟩]
  rfl

/-- It is the name of the connections accepted a multiple of 2³² accepts ago. -/
lemma Inv.name_eq_iff (h : s.Inv) (hconn : conn ∈ s.live) :
    conn.name_ = s.connName ↔ 2 ^ 32 ∣ s.accepted - conn.number := by
  rw [h.connName_eq, h.named conn hconn, h.next, ← counter_eq_iff (h.earlier conn hconn).le]
  exact ⟨fun heq => suffix_inj (List.append_cancel_left heq), fun heq => by rw [heq]⟩

lemma Inv.connName_mem_iff (h : s.Inv) :
    s.connName ∈ s.connections_ ↔ ∃ conn ∈ s.live, 2 ^ 32 ∣ s.accepted - conn.number := by
  rw [Std.ExtTreeMap.mem_iff_isSome_getElem?, Option.isSome_iff_exists]
  constructor
  · rintro ⟨conn, hget⟩
    obtain ⟨hconn, hname⟩ := (h.exact _ conn).mp hget
    exact ⟨conn, hconn, (h.name_eq_iff hconn).mp hname⟩
  · rintro ⟨conn, hconn, hdvd⟩
    exact ⟨conn, (h.exact _ conn).mpr ⟨hconn, (h.name_eq_iff hconn).mpr hdvd⟩⟩

/-- An accept under a new name. -/
lemma Inv.newConnection (h : s.Inv) (hnew : s.connName ∉ s.connections_) :
    s.newConnection.Inv where
  length_le := h.length_le
  next := by
    rw [ServerNames.newConnection, h.next]
    exact BitVec.ofNat_add_ofNat _ _
  earlier := by
    intro conn hconn
    rcases List.mem_cons.mp hconn with rfl | hold
    · exact Nat.lt_succ_self _
    · exact Nat.lt_succ_of_lt (h.earlier conn hold)
  named := by
    intro conn hconn
    rcases List.mem_cons.mp hconn with rfl | hold
    · rw [← h.next]
      exact h.connName_eq
    · exact h.named conn hold
  nodup := List.nodup_cons.mpr ⟨fun hmem => Nat.lt_irrefl _ (h.earlier _ hmem), h.nodup⟩
  exact := by
    intro name conn
    show (s.connections_.insert s.connName _)[name]? = some conn ↔ conn ∈ _ :: s.live ∧ _
    simp only [Std.ExtTreeMap.getElem?_insert, List.mem_cons, Std.compare_eq_iff_eq]
    by_cases hname : s.connName = name
    · subst hname
      rw [if_pos rfl, Option.some.injEq]
      constructor
      · rintro rfl
        exact ⟨.inl rfl, rfl⟩
      · rintro ⟨rfl | hold, heq⟩
        · rfl
        · exact absurd (heq ▸ h.name_mem hold) hnew
    · rw [if_neg hname, h.exact]
      constructor
      · exact fun hold => ⟨.inr hold.1, hold.2⟩
      · rintro ⟨rfl | hold, heq⟩
        · exact absurd heq hname
        · exact ⟨hold, heq⟩

/-- The removal of a connection that is there. -/
lemma Inv.removeConnectionInLoop (h : s.Inv) (hconn : conn ∈ s.live) :
    ∃ t, s.removeConnectionInLoop conn = .ok t ∧ t.Inv ∧ t.live = s.live.erase conn ∧
      t.accepted = s.accepted := by
  refine ⟨{ s with connections_ := s.connections_.erase conn.name_, live := s.live.erase conn },
    by rw [ServerNames.removeConnectionInLoop, check_true (h.name_mem hconn), ok_bind],
    ?_, rfl, rfl⟩
  refine ⟨h.length_le, h.next, fun c hc => h.earlier c (List.mem_of_mem_erase hc),
    fun c hc => h.named c (List.mem_of_mem_erase hc), h.nodup.erase conn, ?_⟩
  intro name c
  show (s.connections_.erase conn.name_)[name]? = some c ↔ c ∈ s.live.erase conn ∧ _
  simp only [Std.ExtTreeMap.getElem?_erase, h.nodup.mem_erase_iff, Std.compare_eq_iff_eq]
  by_cases hname : conn.name_ = name
  · rw [if_pos hname]
    refine ⟨fun hc => (nomatch hc), ?_⟩
    rintro ⟨⟨hne, hc⟩, heq⟩
    have hget := (h.exact _ c).mpr ⟨hc, heq.trans hname.symm⟩
    have hget' := (h.exact _ conn).mpr ⟨hconn, rfl⟩
    exact absurd (Option.some.inj (hget.symm.trans hget')) hne
  · rw [if_neg hname, h.exact]
    refine and_congr_left fun heq => ⟨fun hc => ⟨?_, hc⟩, And.right⟩
    rintro rfl
    exact hname heq

/-- A call goes through when its condition is met, and what holds goes on to hold. -/
lemma Inv.step (h : s.Inv) {call : Call} (hnone : s.NoneReturns call) :
    ∃ t, machine.step s call = .ok t ∧ t.Inv ∧ s.AddsNew t := by
  cases call with
  | newConnection =>
    have hnew : s.connName ∉ s.connections_ := by
      rw [h.connName_mem_iff]
      rintro ⟨conn, hconn, hdvd⟩
      exact hnone conn hconn hdvd
    refine ⟨s.newConnection, rfl, h.newConnection hnew, ?_⟩
    intro conn hconn hadded
    rcases List.mem_cons.mp hconn with rfl | hold
    · exact ⟨h.connName_eq, hnew⟩
    · exact absurd hold hadded
  | removeConnectionInLoop number =>
    cases hfind : s.live.find? fun conn => conn.number = number with
    | none => exact ⟨s, by simp only [machine, hfind], h, fun conn hconn hadded =>
        absurd hconn hadded⟩
    | some conn =>
      obtain ⟨t, ht, hinv, hlive, -⟩ := h.removeConnectionInLoop (List.mem_of_find?_eq_some hfind)
      refine ⟨t, by simp only [machine, hfind, ht], hinv, fun c hc hadded => ?_⟩
      exact absurd (List.mem_of_mem_erase (hlive ▸ hc)) hadded

/-- A call whose condition is not met adds a connection under a name that is taken. -/
lemma Inv.not_addsNew (h : s.Inv) {call : Call} (hreturns : ¬ s.NoneReturns call)
    (hstep : machine.step s call = .ok t) : ¬ s.AddsNew t := by
  cases call with
  | removeConnectionInLoop number => exact absurd trivial hreturns
  | newConnection =>
    cases hstep
    rw [NoneReturns] at hreturns
    push Not at hreturns
    intro hadds
    refine (hadds _ List.mem_cons_self fun hmem => Nat.lt_irrefl _ (h.earlier _ hmem)).2 ?_
    exact h.connName_mem_iff.mpr hreturns

/-- **Names are unique exactly** in the runs in which no connection is open when the counter comes
back to the value it was accepted with: the name built is not cut off and is the name of no
connection in `connections_`, the assertion holds, and `connections_` is exact throughout. -/
theorem names_unique_iff (listenAddr : InetAddress) (name : Bytes) :
    ∃ s, ctor listenAddr name = .ok s ∧
      ∀ calls, machine.Meets unique s calls ↔ machine.Along NoneReturns s calls := by
  obtain ⟨s, hs, hinv, -, -⟩ := ctor_ok listenAddr name
  refine ⟨s, hs, fun calls => machine.meets_iff_of_sound (I := Inv) (fun _ h => h.exact) ?_ ?_ hinv⟩
  · intro s call h hnone
    obtain ⟨t, ht, hinv, hadds⟩ := h.step hnone
    rw [ht]
    exact ⟨hinv, hadds⟩
  · intro s call h hreturns
    cases hstep : machine.step s call with
    | ok t => exact fun hmeets => h.not_addsNew hreturns hstep hmeets.1
    | error e => exact id

/-! ## A connection that stays open -/

/-- Accepts, each connection removed before the next. -/
def visitors (n : ℕ) : List Call :=
  (List.range n).flatMap fun k => [.newConnection, .removeConnectionInLoop (k + 1)]

lemma visitors_succ (n : ℕ) :
    visitors (n + 1) = visitors n ++ [.newConnection, .removeConnectionInLoop (n + 1)] := by
  rw [visitors, List.range_succ, List.flatMap_append, List.flatMap_singleton, visitors]

/-- Behind the first connection, fewer than 2³² of them come and go. -/
lemma visitors_run (h : s.Inv) {first : NamedConnection} (hlive : s.live = [first])
    (hfirst : first.number = 0) (haccepted : s.accepted = 1) {n : ℕ} (hn : n < 2 ^ 32) :
    ∃ t, machine.run s (visitors n) = .ok t ∧ t.Inv ∧ t.live = [first] ∧ t.accepted = n + 1 := by
  induction n with
  | zero => exact ⟨s, rfl, h, hlive, haccepted⟩
  | succ n ih =>
    obtain ⟨t, ht, hinv, hlive', haccepted'⟩ := ih (by omega)
    have hnew : t.connName ∉ t.connections_ := by
      rw [hinv.connName_mem_iff, hlive', haccepted']
      rintro ⟨conn, hconn, hdvd⟩
      rw [List.mem_singleton.mp hconn, hfirst] at hdvd
      exact absurd (Nat.le_of_dvd (by omega) hdvd) (by omega)
    have hinv' := hinv.newConnection hnew
    have hhead : t.newConnection.live = ⟨t.accepted, t.connName⟩ :: t.live := rfl
    obtain ⟨u, hu, huinv, hulive, huaccepted⟩ :=
      hinv'.removeConnectionInLoop (hhead ▸ List.mem_cons_self)
    have hfind : t.newConnection.live.find? (fun conn => conn.number = n + 1) =
        some ⟨t.accepted, t.connName⟩ := by
      rw [hhead, List.find?_cons_of_pos]
      rw [haccepted', decide_eq_true_eq]
    refine ⟨u, ?_, huinv, ?_, by rw [huaccepted]; exact congrArg (· + 1) haccepted'⟩
    · rw [visitors_succ, machine.run_append ht, machine.run_cons_ok (t := t.newConnection) rfl,
        machine.run_cons_ok (t := u), machine.run_nil]
      simp only [machine, hfind, hu]
    · rw [hulive, hhead, List.erase_cons_head, hlive']

/-- The first connection stays, 2³² - 1 others come and go, and one more is accepted. -/
theorem name_reused : ∃ s, ctor ⟨fun _ => 0, 8888⟩ (octets ['f']) = .ok s ∧
    ¬ machine.Meets unique s
      (.newConnection :: (visitors (2 ^ 32 - 1) ++ [.newConnection])) := by
  obtain ⟨s, hs, hinv, haccepted, hlive⟩ := ctor_ok ⟨fun _ => 0, 8888⟩ (octets ['f'])
  refine ⟨s, hs, fun hmeets => ?_⟩
  have hnew : s.connName ∉ s.connections_ := by
    rw [hinv.connName_mem_iff, hlive]
    rintro ⟨conn, hconn, -⟩
    cases hconn
  let first : NamedConnection := ⟨s.accepted, s.connName⟩
  have hlive' : s.newConnection.live = [first] := congrArg (first :: ·) hlive
  obtain ⟨t, hrun, htinv, htlive, htaccepted⟩ :=
    visitors_run (hinv.newConnection hnew) hlive' haccepted (congrArg (· + 1) haccepted)
      (show 2 ^ 32 - 1 < 2 ^ 32 by decide)
  have hgood : t.newConnection.Exact := by
    refine Machine.Meets.good_of_run machine hmeets ?_
    rw [machine.run_cons_ok (t := s.newConnection) rfl, machine.run_append hrun,
      machine.run_cons_ok (t := t.newConnection) rfl, machine.run_nil]
  have hfirst : first ∈ t.live := htlive ▸ List.mem_singleton_self first
  have hname : first.name_ = t.connName := by
    rw [htinv.name_eq_iff hfirst, htaccepted, show first.number = 0 from haccepted]
    decide
  -- both are in `connections_` under the name
  have hold := (hgood t.connName first).mpr ⟨List.mem_cons_of_mem _ hfirst, hname⟩
  have hlast := (hgood t.connName ⟨t.accepted, t.connName⟩).mpr ⟨List.mem_cons_self, rfl⟩
  have hsame := Option.some.inj (hold.symm.trans hlast)
  exact Nat.lt_irrefl _ ((congrArg NamedConnection.number hsame) ▸ htinv.earlier first hfirst)

end ServerNames

end Firey
