import Firey.Net.ConnectionNames
import Mathlib.Data.Fin.VecNotation
import Mathlib.Data.List.TakeWhile
import Mathlib.Tactic.FinCases

/-!
# `InetAddressff` and its texts

`inet_pton` reads the text of an IPv4 address an octet at a time, as the GNU C library does: no
octet begins with a zero that is not all of it, none is above 255, and there are four.  It is the
inverse of `inet_ntop` on what it accepts, and accepts nothing else (`inet_pton_eq_some_iff`).

The constructor from a text only logs when `inet_pton` refuses it, and then the address stays as
`memset` left it: a text that is not that of an address is taken for `0.0.0.0`, which is every
address of the host (`address_text_exact`).
-/

set_option autoImplicit false

namespace Firey

/-- Where `inet_pton` stands: the octets before the last dot, and the one it is in, once it has seen
a digit of it. -/
structure DottedQuad where
  octets : List ℕ
  current : Option ℕ
  deriving DecidableEq, Repr

namespace DottedQuad

def start : DottedQuad := ⟨[], none⟩

def digit (s : DottedQuad) (d : ℕ) : Option DottedQuad :=
  match s.current with
  | none => if s.octets.length < 4 then some { s with current := some d } else none
  | some v =>
      if v ≠ 0 ∧ v * 10 + d ≤ 255 then some { s with current := some (v * 10 + d) } else none

def next (s : DottedQuad) : Option DottedQuad :=
  match s.current with
  | none => none
  | some v => if s.octets.length + 1 < 4 then some ⟨s.octets ++ [v], none⟩ else none

def step (s : DottedQuad) (c : Byte) : Option DottedQuad :=
  match readDecimalDigit c with
  | some d => s.digit d
  | none => if c = dot then s.next else none

/-- The address, if there are four octets. -/
def finish (s : DottedQuad) : Option (Fin 4 → Byte) :=
  match s.octets, s.current with
  | [a, b, c], some d => some ![UInt8.ofNat a, UInt8.ofNat b, UInt8.ofNat c, UInt8.ofNat d]
  | _, _ => none

end DottedQuad

/-- `inet_pton(AF_INET,..)`, when it returns 1. -/
def inet_pton (text : Bytes) : Option (Fin 4 → Byte) :=
  (text.foldlM DottedQuad.step .start).bind DottedQuad.finish

namespace Socket

/-- If `inet_pton` fails, this is only logged. -/
def fromIpPort (ip : Bytes) (port : UInt16) (addr : InetAddress) : InetAddress where
  sin_addr := (inet_pton (cString ip)).getD addr.sin_addr
  sin_port := port

end Socket

namespace InetAddress

/-- The constructor from a port; the address is `INADDR_ANY`. -/
def ofPort (port : UInt16) : InetAddress := ⟨fun _ => 0, port⟩

/-- The constructor from a text and a port. -/
def ofIpPort (ip : Bytes) (port : UInt16) : InetAddress :=
  Socket.fromIpPort ip port ⟨fun _ => 0, 0⟩

def toIp (addr : InetAddress) : Except Fault Bytes := Socket.toIp 64 addr

def toPort (addr : InetAddress) : UInt16 := addr.sin_port

end InetAddress

/-! ## Numbers a digit at a time -/

lemma unsignedText_digit {d : ℕ} (hd : d < 10) : unsignedText d = [decimalDigit d] := by
  rw [unsignedText_eq]
  by_cases hzero : d = 0
  · rw [numeral, if_pos hzero, hzero]
  · rw [numeral_of_ne_zero hzero, Nat.digits_of_lt 10 d hzero hd]
    rfl

lemma unsignedText_snoc {v d : ℕ} (hv : v ≠ 0) (hd : d < 10) :
    unsignedText (v * 10 + d) = unsignedText v ++ [decimalDigit d] := by
  have hne : v * 10 + d ≠ 0 := by omega
  rw [unsignedText_eq, unsignedText_eq, numeral_of_ne_zero hne, numeral_of_ne_zero hv,
    Nat.add_comm, Nat.mul_comm, Nat.digits_add 10 (by decide) d v hd (Or.inr hv), List.map_cons,
    List.reverse_cons]

lemma readDecimalDigit_eq_some {c : Byte} {d : ℕ} (h : readDecimalDigit c = some d) :
    c = decimalDigit d ∧ d < 10 := by
  unfold readDecimalDigit at h
  split at h
  next hrange =>
    cases h
    have hlow : 48 ≤ c.toNat := UInt8.le_iff_toNat_le.mp hrange.1
    have hhigh : c.toNat ≤ 57 := UInt8.le_iff_toNat_le.mp hrange.2
    refine ⟨?_, by omega⟩
    rw [decimalDigit, Nat.add_sub_of_le hlow, UInt8.ofNat_toNat]
  · cases h

namespace DottedQuad

/-! ## What has been read -/

/-- The text that leads to this state. -/
def text (s : DottedQuad) : Bytes :=
  (s.octets.map fun n => unsignedText n ++ [dot]).flatten ++ (s.current.map unsignedText).getD []

structure Inv (s : DottedQuad) : Prop where
  octets : ∀ n ∈ s.octets, n ≤ 255
  current : ∀ n ∈ s.current, n ≤ 255

variable {s t : DottedQuad}

lemma digit_text (h : s.Inv) {d : ℕ} (hd : d < 10) (hstep : s.digit d = some t) :
    t.Inv ∧ t.text = s.text ++ [decimalDigit d] := by
  unfold digit at hstep
  cases hcurrent : s.current with
  | none =>
    rw [hcurrent] at hstep
    dsimp only at hstep
    split at hstep
    · cases hstep
      refine ⟨⟨h.octets, fun n hn => ?_⟩, ?_⟩
      · cases hn
        omega
      · rw [text, text, hcurrent, Option.map_some, Option.getD_some, unsignedText_digit hd,
          Option.map_none, Option.getD_none, List.append_nil]
    · cases hstep
  | some v =>
    rw [hcurrent] at hstep
    dsimp only at hstep
    split at hstep
    next hv =>
      cases hstep
      refine ⟨⟨h.octets, fun n hn => ?_⟩, ?_⟩
      · cases hn
        exact hv.2
      · rw [text, text, hcurrent, Option.map_some, Option.getD_some, unsignedText_snoc hv.1 hd,
          Option.map_some, Option.getD_some, List.append_assoc]
    · cases hstep

lemma next_text (h : s.Inv) (hstep : s.next = some t) : t.Inv ∧ t.text = s.text ++ [dot] := by
  unfold next at hstep
  cases hcurrent : s.current with
  | none =>
    rw [hcurrent] at hstep
    cases hstep
  | some v =>
    rw [hcurrent] at hstep
    dsimp only at hstep
    split at hstep
    · cases hstep
      refine ⟨⟨fun n hn => ?_, fun n hn => by cases hn⟩, ?_⟩
      · rcases List.mem_append.mp hn with hn | hn
        · exact h.octets n hn
        · rw [List.mem_singleton.mp hn]
          exact h.current v hcurrent
      · rw [text, text, hcurrent, List.map_append, List.flatten_append]
        simp
    · cases hstep

/-- **One character** goes to the text. -/
lemma step_text (h : s.Inv) {c : Byte} (hstep : s.step c = some t) :
    t.Inv ∧ t.text = s.text ++ [c] := by
  unfold step at hstep
  cases hdigit : readDecimalDigit c with
  | some d =>
    obtain ⟨rfl, hd⟩ := readDecimalDigit_eq_some hdigit
    rw [hdigit] at hstep
    exact digit_text h hd hstep
  | none =>
    rw [hdigit] at hstep
    dsimp only at hstep
    split at hstep
    next hdot =>
      rw [hdot]
      exact next_text h hstep
    · cases hstep

/-- What is accepted is the text of what has been read. -/
lemma run_text {input : Bytes} (h : s.Inv) (hrun : input.foldlM step s = some t) :
    t.Inv ∧ t.text = s.text ++ input := by
  induction input generalizing s with
  | nil =>
    cases hrun
    exact ⟨h, (List.append_nil _).symm⟩
  | cons c cs ih =>
    rw [List.foldlM_cons] at hrun
    obtain ⟨u, hstep, hrun⟩ := Option.bind_eq_some_iff.mp hrun
    obtain ⟨hinv, htext⟩ := step_text h hstep
    obtain ⟨hinv', htext'⟩ := ih hinv hrun
    exact ⟨hinv', by rw [htext', htext, List.append_assoc]; rfl⟩

/-! ## What is read -/

lemma step_digit (s : DottedQuad) {d : ℕ} (hd : d < 10) : s.step (decimalDigit d) = s.digit d := by
  rw [step, decimalCode.read_digit d hd]

/-- **The text of an octet** is read as this octet. -/
lemma run_octet {octets : List ℕ} (hroom : octets.length < 4) {n : ℕ} (hn : n ≤ 255) :
    (unsignedText n).foldlM step ⟨octets, none⟩ = some ⟨octets, some n⟩ := by
  induction n using Nat.strong_induction_on with
  | h n ih =>
    by_cases hdigit : n < 10
    · rw [unsignedText_digit hdigit, List.foldlM_cons, step_digit _ hdigit]
      simp [digit, hroom]
    · have hlow : n % 10 < 10 := Nat.mod_lt _ (by decide)
      have hsplit : n / 10 * 10 + n % 10 = n := Nat.div_add_mod' n 10
      have hpos : n / 10 ≠ 0 := by omega
      nth_rewrite 1 [← hsplit]
      rw [unsignedText_snoc hpos hlow, List.foldlM_append, ih (n / 10) (by omega) (by omega)]
      change (step ⟨octets, some (n / 10)⟩ (decimalDigit (n % 10))).bind _ = _
      rw [step_digit _ hlow]
      simp [digit, hpos, hsplit, hn]

lemma run_octet_dot {octets : List ℕ} (hroom : octets.length + 1 < 4) {n : ℕ} (hn : n ≤ 255)
    (rest : Bytes) : (unsignedText n ++ dot :: rest).foldlM step ⟨octets, none⟩ =
      rest.foldlM step ⟨octets ++ [n], none⟩ := by
  have hdot : step ⟨octets, some n⟩ dot = some ⟨octets ++ [n], none⟩ := by
    have hread : readDecimalDigit dot = none := by decide
    rw [step, hread]
    simp [next, hroom]
  rw [List.foldlM_append, run_octet (by omega) hn]
  change (step ⟨octets, some n⟩ dot).bind _ = _
  rw [hdot]
  rfl

end DottedQuad

/-! ## The two directions -/

lemma inet_pton_inet_ntop (a : Fin 4 → Byte) : inet_pton (inet_ntop a) = some a := by
  have hoctet : ∀ i, (a i).toNat ≤ 255 := fun i => Nat.le_of_lt_succ (a i).toNat_lt
  have hrun : (inet_ntop a).foldlM DottedQuad.step .start =
      some ⟨[(a 0).toNat, (a 1).toNat, (a 2).toNat], some (a 3).toNat⟩ := by
    rw [inet_ntop, DottedQuad.start, DottedQuad.run_octet_dot (by decide) (hoctet 0),
      List.nil_append, DottedQuad.run_octet_dot (by simp) (hoctet 1), List.singleton_append,
      DottedQuad.run_octet_dot (by simp) (hoctet 2)]
    exact DottedQuad.run_octet (by simp) (hoctet 3)
  rw [inet_pton, hrun]
  change some _ = some a
  rw [UInt8.ofNat_toNat, UInt8.ofNat_toNat, UInt8.ofNat_toNat, UInt8.ofNat_toNat, Option.some.injEq]
  funext i
  fin_cases i <;> rfl

/-- **`inet_pton`** accepts the texts that `inet_ntop` writes, and no others. -/
theorem inet_pton_eq_some_iff {text : Bytes} {a : Fin 4 → Byte} :
    inet_pton text = some a ↔ text = inet_ntop a := by
  constructor
  · intro h
    obtain ⟨s, hrun, hfinish⟩ := Option.bind_eq_some_iff.mp h
    have hstart : DottedQuad.start.Inv :=
      ⟨fun n hn => absurd hn List.not_mem_nil, fun n hn => by cases hn⟩
    obtain ⟨⟨hoctets, hcurrent⟩, htext⟩ := DottedQuad.run_text hstart hrun
    have hinput : s.text = text := htext
    unfold DottedQuad.finish at hfinish
    split at hfinish
    next x y z w hlist hlast =>
      cases hfinish
      rw [hlist] at hoctets
      have hround {n : ℕ} (hn : n ≤ 255) : (UInt8.ofNat n).toNat = n :=
        UInt8.toNat_ofNat_of_lt (Nat.lt_succ_of_le hn)
      have hx := hround (hoctets x (by simp))
      have hy := hround (hoctets y (by simp))
      have hz := hround (hoctets z (by simp))
      have hw := hround (hcurrent w hlast)
      rw [← hinput, DottedQuad.text, hlist, hlast, inet_ntop]
      simp [hx, hy, hz, hw]
    · cases hfinish
  · rintro rfl
    exact inet_pton_inet_ntop a

lemma inet_ntop_inj {a b : Fin 4 → Byte} (h : inet_ntop a = inet_ntop b) : a = b := by
  have hread := inet_pton_inet_ntop a
  rw [h, inet_pton_inet_ntop b] at hread
  exact (Option.some.inj hread).symm

lemma mem_inet_ntop {a : Fin 4 → Byte} {c : Byte} (h : c ∈ inet_ntop a) :
    c = dot ∨ ∃ d < 10, c = decimalDigit d := by
  simp only [inet_ntop, List.mem_append, List.mem_cons] at h
  rcases h with h | h | h | h | h | h | h
  · exact Or.inr (mem_unsignedText h)
  · exact Or.inl h
  · exact Or.inr (mem_unsignedText h)
  · exact Or.inl h
  · exact Or.inr (mem_unsignedText h)
  · exact Or.inl h
  · exact Or.inr (mem_unsignedText h)

/-- There is no end of a C string in the text of an address. -/
lemma cString_inet_ntop (a : Fin 4 → Byte) : cString (inet_ntop a) = inet_ntop a := by
  rw [cString, List.takeWhile_eq_self_iff]
  intro c hc
  have hdigits : ∀ d < 10, decimalDigit d ≠ 0 := by decide
  rcases mem_inet_ntop hc with rfl | ⟨d, hd, rfl⟩
  · decide
  · exact decide_eq_true (hdigits d hd)

/-- The colon stands in front of the port only. -/
lemma colon_notMem_inet_ntop (a : Fin 4 → Byte) : colon ∉ inet_ntop a := by
  have hdigits : ∀ d < 10, colon ≠ decimalDigit d := by decide
  intro hmem
  rcases mem_inet_ntop hmem with h | ⟨d, hd, h⟩
  · exact absurd h (by decide)
  · exact hdigits d hd h

lemma colon_notMem_unsignedText (n : ℕ) : colon ∉ unsignedText n := by
  have hdigits : ∀ d < 10, colon ≠ decimalDigit d := by decide
  intro hmem
  obtain ⟨d, hd, h⟩ := mem_unsignedText hmem
  exact hdigits d hd h

namespace InetAddress

lemma toIp_eq (addr : InetAddress) : addr.toIp = .ok (inet_ntop addr.sin_addr) := by
  rw [toIp, Socket.toIp, check_true (by decide), ok_bind]

/-- The text with the port is never cut off. -/
lemma toIpPort_eq (addr : InetAddress) :
    addr.toIpPort = .ok (inet_ntop addr.sin_addr ++ colon :: unsignedText addr.sin_port.toNat) := by
  have hip := ServerNames.length_inet_ntop_le addr.sin_addr
  have hport : (unsignedText addr.sin_port.toNat).length ≤ 5 :=
    length_unsignedText_le (by decide) (addr.sin_port.toNat_lt.trans (by decide))
  rw [toIpPort, Socket.toIpPort, Socket.toIp, check_true (by decide), ok_bind, ok_bind,
    check_true (by omega), ok_bind, snprintf_of_lt]
  rw [List.length_cons]
  omega

/-- The text is that of an address: four numbers below 256 with dots between them. -/
def IsAddress (text : Bytes) : Prop := ∃ a, text = inet_ntop a

lemma ofIpPort_of_isAddress {ip : Bytes} {a : Fin 4 → Byte} (h : cString ip = inet_ntop a)
    (port : UInt16) : ofIpPort ip port = ⟨a, port⟩ := by
  rw [ofIpPort, Socket.fromIpPort, h, inet_pton_inet_ntop, Option.getD_some]

lemma ofIpPort_of_not {ip : Bytes} (h : ¬ IsAddress (cString ip)) (port : UInt16) :
    ofIpPort ip port = ofPort port := by
  have hnone : inet_pton (cString ip) = none := by
    rw [Option.eq_none_iff_forall_not_mem]
    exact fun a ha => h ⟨a, inet_pton_eq_some_iff.mp ha⟩
  rw [ofIpPort, Socket.fromIpPort, hnone, Option.getD_none, ofPort]

lemma toIpPort_inj {a b : InetAddress} (h : a.toIpPort = b.toIpPort) : a = b := by
  rw [toIpPort_eq, toIpPort_eq, Except.ok.injEq] at h
  obtain ⟨hip, -, hport⟩ := (List.append_cons_inj_of_notMem (colon_notMem_inet_ntop _)
    (colon_notMem_unsignedText _)).mp h
  have hnat := decimalText_inj hport
  cases a
  cases b
  rw [mk.injEq]
  exact ⟨inet_ntop_inj hip, UInt16.toNat_inj.mp (Int.ofNat_inj.mp hnat)⟩

/-- **The texts of an address** say which address it is, and are read back as it.  From any other
text comes the address that stands for all addresses of the host. -/
theorem address_text_exact :
    (∀ addr : InetAddress, ∃ text, addr.toIp = .ok text ∧ ofIpPort text addr.toPort = addr) ∧
      (∀ a b : InetAddress, a.toIpPort = b.toIpPort → a = b) ∧
      ∀ ip port, (ofIpPort ip port).toPort = port ∧
        (IsAddress (cString ip) → (ofIpPort ip port).toIp = .ok (cString ip)) ∧
        (¬ IsAddress (cString ip) → ofIpPort ip port = ofPort port) := by
  refine ⟨fun addr => ⟨_, addr.toIp_eq, ?_⟩, fun a b => toIpPort_inj, fun ip port =>
    ⟨rfl, ?_, fun h => ofIpPort_of_not h port⟩⟩
  · rw [ofIpPort_of_isAddress (cString_inet_ntop addr.sin_addr)]
    rfl
  · rintro ⟨a, ha⟩
    rw [ofIpPort_of_isAddress ha, toIp_eq, ha]

end InetAddress

end Firey
