/-
# Buffers that show where they were written

The buffer is filled with a marked pattern, and so is a guard of the same pattern on
either side of it.  Whatever differs from the pattern afterwards has been written.
-/
import CallbackBridge.Binary64
import CallbackBridge.Limits
namespace CallbackBridge

/-- A buffer between two guards. -/
structure CanaryBuffer where
  /-- Guard, buffer and guard, in one piece. -/
  storage : List Binary64
  /-- The length of the buffer. -/
  len : Nat
  /-- The length of each guard. -/
  guardLen : Nat
  deriving DecidableEq, Repr, Inhabited

namespace CanaryBuffer

/-- The usual length of a guard. -/
def standardGuard : Nat := 4

/-- An unwritten buffer. -/
def withGuard (len guardLen : Nat) : CanaryBuffer :=
  ⟨List.replicate (len + 2 * guardLen) .canary, len, guardLen⟩

/-- An unwritten buffer with guards of the usual length. -/
def ofLength (len : Nat) : CanaryBuffer := withGuard len standardGuard

/-- An unwritten buffer, if there can be that much memory. -/
def allocate (len guardLen : Nat) : Outcome Empty CanaryBuffer := do
  Limits.reserve (← Limits.add len (← Limits.multiply 2 guardLen))
  return withGuard len guardLen

/-- The memory from the start of the buffer on, with the guard behind it. -/
def memory (b : CanaryBuffer) : List Binary64 := b.storage.drop b.guardLen

/-- The buffer after the memory from its start on was replaced. -/
def setMemory (b : CanaryBuffer) (memory : List Binary64) : CanaryBuffer :=
  { b with storage := b.storage.take b.guardLen ++ memory }

/-- The contents of the buffer. -/
def payload (b : CanaryBuffer) : List Binary64 := b.memory.take b.len

/-- A buffer that holds the given values. -/
def ofValues (values : List Binary64) : CanaryBuffer :=
  let b := ofLength values.length
  b.setMemory (values ++ b.memory.drop values.length)

/-- Whether the buffer has no element. -/
def isEmpty (b : CanaryBuffer) : Bool := b.len == 0

/-- Writes one element of the buffer. -/
def write (b : CanaryBuffer) (index : Nat) (value : Binary64) : Outcome Empty CanaryBuffer := do
  discard (Limits.element b.payload index)
  return b.setMemory (b.memory.set index value)

/-- Whether nothing was written into either guard. -/
def guardsIntact (b : CanaryBuffer) : Bool :=
  (b.storage.take b.guardLen ++ b.memory.drop b.len).all (· == .canary)

/-- Whether nothing was written into the buffer. -/
def untouched (b : CanaryBuffer) : Bool := b.payload.all (· == .canary)

/-- The number of elements before the first unwritten one. -/
def writtenPrefix (b : CanaryBuffer) : Nat := (b.payload.takeWhile (· != .canary)).length

end CanaryBuffer

end CallbackBridge
