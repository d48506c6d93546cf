/-
# The solver's integer parameters

The leading entries of `ipar` carry the state length and the event count.  They
are read on every call; no length is remembered from one call to the next.
-/
import CallbackBridge.Error
namespace CallbackBridge

/-- The integer parameters of one call. -/
structure LengthParameters where
  /-- The leading entries of `ipar`. -/
  entries : List Int
  deriving DecidableEq, Repr, Inhabited

namespace LengthParameters

/-- The position of the state length. -/
def stateLenIndex : Nat := 0

/-- The position of the event count. -/
def eventCountIndex : Nat := 1

/-- The largest length that an entry can hold. -/
def maxLength : Nat := 2147483647

/-- The entry that holds a length; one that is too large wraps around. -/
def ofLength (len : Nat) : Int := Int.bmod (Int.ofNat len) 4294967296

/-- The entry at a position, as a length. -/
def length? (p : LengthParameters) (index : Nat) : Except BridgeError Nat :=
  match p.entries[index]? with
  | none => .error (.missingLengthParameter index)
  | some value =>
    if value < 0 then .error (.invalidLengthParameter index value) else .ok value.toNat

/-- The state length, which must be at least one. -/
def stateLen (p : LengthParameters) : Except BridgeError Nat := do
  let n ← p.length? stateLenIndex
  if n = 0 then throw (.invalidLengthParameter stateLenIndex 0)
  return n

/-- The event count, which may be zero. -/
def eventCount (p : LengthParameters) : Except BridgeError Nat :=
  p.length? eventCountIndex

end LengthParameters

end CallbackBridge
