import Firey.Fault
import Firey.Framework.Search
import Mathlib.Data.List.DropRight

/-!
# `HttpRequestff`

A request with its setters.  `headers_` is a `std::map`, so it is an ordered map here; strings
compare as lists of octets.  `setMethod` is the one setter with an assertion: it may be called
on a request without a method only.
-/

set_option autoImplicit false

namespace Firey

/-- `' '`. -/
def SP : Byte := 32

/-- `':'`. -/
def COLON : Byte := 58

/-- `'?'`. -/
def QUESTION : Byte := 63

/-- `isspace` in the C locale. -/
def isspace (c : Byte) : Bool := c = 32 ∨ (9 ≤ c ∧ c ≤ 13)

namespace HttpRequest

/-! ## Methods and versions -/

inductive Method
  | kInvalid
  | kGet
  | kPost
  | kHead
  | kPut
  | kDelete
  deriving DecidableEq, Repr

inductive Version
  | kUnknown
  | kHttp10
  | kHttp11
  | kHttp20
  deriving DecidableEq, Repr

def methodToString : Method → Bytes
  | .kInvalid => octets ['U', 'N', 'K', 'O', 'N', 'W', 'N']
  | .kGet => octets ['G', 'E', 'T']
  | .kPost => octets ['P', 'O', 'S', 'T']
  | .kHead => octets ['H', 'E', 'A', 'D']
  | .kPut => octets ['P', 'U', 'T']
  | .kDelete => octets ['D', 'E', 'L', 'E', 'T', 'E']

def versionToString : Version → Bytes
  | .kUnknown => octets ['U', 'N', 'K', 'O', 'W', 'N']
  | .kHttp10 => octets ['H', 'T', 'T', 'P', '/', '1', '.', '0']
  | .kHttp11 => octets ['H', 'T', 'T', 'P', '/', '1', '.', '1']
  | .kHttp20 => octets ['H', 'T', 'T', 'P', '/', '2', '.', '0']

/-- The method `setMethod` reads off a name. -/
def methodOf (method : Bytes) : Method :=
  if method = octets ['G', 'E', 'T'] then .kGet
  else if method = octets ['P', 'O', 'S', 'T'] then .kPost
  else if method = octets ['H', 'E', 'A', 'D'] then .kHead
  else if method = octets ['P', 'U', 'T'] then .kPut
  else if method = octets ['D', 'E', 'L', 'E', 'T', 'E'] then .kDelete
  else .kInvalid

/-- Each method is read off its own name; the name of `kInvalid` is not that of a method. -/
lemma methodOf_methodToString (m : Method) : methodOf (methodToString m) = m := by
  cases m <;> decide

/-- A name that gives a method is the name of that method. -/
lemma methodToString_methodOf {w : Bytes} (h : methodOf w ≠ .kInvalid) :
    methodToString (methodOf w) = w := by
  unfold methodOf at h ⊢
  split_ifs at h ⊢ with hget hpost hhead hput hdelete
  · exact hget.symm
  · exact hpost.symm
  · exact hhead.symm
  · exact hput.symm
  · exact hdelete.symm
  · exact absurd rfl h

lemma SP_not_mem_methodToString (m : Method) : SP ∉ methodToString m := by
  cases m <;> decide

end HttpRequest

/-! ## Requests -/

open HttpRequest in
/-- `HttpRequestff`. -/
structure HttpRequest where
  method_ : Method
  version_ : Version
  path_ : Bytes
  query_ : Bytes
  receiveTime_ : Timestamp
  headers_ : Std.ExtTreeMap Bytes Bytes
  deriving DecidableEq

namespace HttpRequest

/-- The constructor; a default `Timestampff` is zero. -/
def ctor : HttpRequest where
  method_ := .kInvalid
  version_ := .kUnknown
  path_ := []
  query_ := []
  receiveTime_ := 0
  headers_ := ∅

def setVersion (r : HttpRequest) (v : Version) : HttpRequest := { r with version_ := v }

def setMethod (r : HttpRequest) (method : Bytes) : Except Fault (HttpRequest × Bool) := do
  check .setMethod (r.method_ = .kInvalid)
  .ok ({ r with method_ := methodOf method }, methodOf method ≠ .kInvalid)

def setPath (r : HttpRequest) (path : Bytes) : HttpRequest := { r with path_ := path }

def setQuery (r : HttpRequest) (query : Bytes) : HttpRequest := { r with query_ := query }

def setReceiveTime (r : HttpRequest) (time : Timestamp) : HttpRequest :=
  { r with receiveTime_ := time }

/-- The value of a header line: the octets behind the colon without the white space around
them. -/
def headerValue (behind : Bytes) : Bytes := (behind.dropWhile isspace).rdropWhile isspace

/-- `addHeader(start, colon, end)`: a later value replaces an earlier one. -/
def addHeader (r : HttpRequest) (field behind : Bytes) : HttpRequest :=
  { r with headers_ := r.headers_.insert field (headerValue behind) }

/-- The value of a header, empty if there is none. -/
def getHeader (r : HttpRequest) (field : Bytes) : Bytes := (r.headers_[field]?).getD []

lemma setMethod_fresh {r : HttpRequest} (h : r.method_ = .kInvalid) (w : Bytes) :
    r.setMethod w = .ok ({ r with method_ := methodOf w }, methodOf w ≠ .kInvalid) := by
  rw [setMethod, check_true h, ok_bind]

/-- A second method is one too many. -/
lemma setMethod_twice {r : HttpRequest} (h : r.method_ ≠ .kInvalid) (w : Bytes) :
    r.setMethod w = .error (.assertion .setMethod) := by
  rw [setMethod, check_false h, error_bind]

end HttpRequest

end Firey
