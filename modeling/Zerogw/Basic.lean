import Mathlib.Tactic

/-!
# Data shared by all parts of the server

Byte strings, the integer conversions of C, the layout of connection ids, and the ways in which
a handler can go wrong.
-/

namespace Zerogw

abbrev Bytes := List UInt8

/-- The bytes of an ASCII string literal. -/
def str (s : String) : Bytes := s.toList.map fun c => UInt8.ofNat c.toNat

/-- Address of a `hybi_t`. -/
abbrev HybiId := Nat

/-- Address of a `request_t`. -/
abbrev ReqId := Nat

/-- Address of a `config_Route_t`. -/
abbrev RouteId := Nat

/-- The sockets that carry messages to backends: `websocket.forward` of a route, and its
`named-outputs` by position in the configuration. -/
inductive SockId where
  | forward (route : RouteId)
  | named (route : RouteId) (index : Nat)
  deriving DecidableEq, Repr

/-- The route a socket belongs to. -/
def SockId.route : SockId → RouteId
  | .forward route => route
  | .named route _ => route

/-! ### Faults -/

/-- The `ANIMPL` and `LNIMPL` checks that the modelled handlers evaluate. -/
inductive Assertion where
  | sieveEmpty
  | freeComet
  | pollingTimeout
  | requestAborted
  | curRequest
  | requestFinish
  | forwardContents
  | cookieField
  | requestInSieve
  | hasMessage
  | diskReply
  | diskSentinel
  | sendSync
  | routingTag
  | zmqRecv
  | moveQueue
  deriving DecidableEq, Repr

/-- Why a handler does not return. A failed assertion logs at alert level, and `logmsg` aborts the
server. The next five are errors after which C and ZeroMQ promise nothing (`closedMessage` is the
use of a ZeroMQ message that has been closed), and `endless` is a loop that does not end. -/
inductive Fault where
  | assertion (a : Assertion)
  | nullPointer
  | useAfterFree
  | closedMessage
  | outOfBounds
  | uninitialised
  | endless
  deriving DecidableEq, Repr

/-! ### Integer conversions -/

/-- Conversion of a signed value to `size_t`. -/
def toSize (i : Int) : Nat := (i % 2 ^ 64).toNat

/-- Conversion to a 32 bit `int`. -/
def toInt (i : Int) : Int := i.bmod (2 ^ 32)

def IsInt (i : Int) : Prop := -2 ^ 31 ≤ i ∧ i < 2 ^ 31

lemma isInt_zero : IsInt 0 := ⟨by norm_num, by norm_num⟩
lemma isInt_one : IsInt 1 := ⟨by norm_num, by norm_num⟩

lemma isInt_toInt (i : Int) : IsInt (toInt i) := by
  constructor
  · have := Int.le_bmod (x := i) (m := 2 ^ 32) (by norm_num)
    simp only [toInt]
    omega
  · have := Int.bmod_lt (x := i) (m := 2 ^ 32) (by norm_num)
    simp only [toInt]
    omega

lemma toInt_of_isInt {i : Int} (h : IsInt i) : toInt i = i := by
  obtain ⟨h₁, h₂⟩ := h
  exact Int.bmod_eq_of_le (by omega) (by omega)

/-! ### Connection ids -/

/-- `UID_NRANDOM` -/
def uidNRandom : Nat := 8
/-- `IID_LEN` -/
def iidLen : Nat := 16
/-- `UID_LEN`: instance id, slot number, allocation number, random bytes. -/
def uidLen : Nat := iidLen + 8 * 2 + uidNRandom

/-- An `unsigned long` in memory, little endian. -/
def le64 (n : Nat) : Bytes := (List.range 8).map fun i => UInt8.ofNat (n / 256 ^ i)

/-- The number that little endian bytes stand for. -/
def ofLe : Bytes → Nat
  | [] => 0
  | b :: bs => b.toNat + 256 * ofLe bs

@[simp] lemma length_le64 (n : Nat) : (le64 n).length = 8 := by simp [le64]

lemma ofLe_le64 {n : Nat} (h : n < 2 ^ 64) : ofLe (le64 n) = n := by
  simp only [le64, List.range, List.range.loop, List.map_cons, List.map_nil, ofLe,
    UInt8.toNat_ofNat']
  omega

/-- `UID_HOLE` -/
def uidHole (data : Bytes) : Nat := ofLe ((data.drop iidLen).take 8)

/-- The bytes `make_hole_uid` writes. -/
def mkUid (iid : Bytes) (hole index : Nat) (random : Bytes) : Bytes :=
  iid ++ le64 hole ++ le64 index ++ random

lemma length_mkUid {iid random : Bytes} {hole index : Nat} (hiid : iid.length = iidLen)
    (hrandom : random.length = uidNRandom) : (mkUid iid hole index random).length = uidLen := by
  simp only [mkUid, List.length_append, length_le64, hiid, hrandom, uidLen]

lemma uidHole_mkUid {iid : Bytes} {hole : Nat} (index : Nat) (random : Bytes)
    (hiid : iid.length = iidLen) (hhole : hole < 2 ^ 64) :
    uidHole (mkUid iid hole index random) = hole := by
  have hdrop : (mkUid iid hole index random).drop iidLen
      = le64 hole ++ (le64 index ++ random) := by
    simp [mkUid, ← hiid]
  rw [uidHole, hdrop, List.take_append_of_le_length (by simp), List.take_of_length_le (by simp),
    ofLe_le64 hhole]

end Zerogw
