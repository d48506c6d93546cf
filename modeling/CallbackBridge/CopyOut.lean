/-
# Copying a result into the solver's output

A result is copied whole or not at all: exactly `expected` elements, extra ones
in the result ignored and extra room in the destination left alone.
-/
import CallbackBridge.Error
import CallbackBridge.Output
namespace CallbackBridge

/-- The destination after the leading `expected` elements of the result have been
copied over its own, if both are long enough. -/
def copyOut (result : List Binary64) (destination : Output) (expected : Nat) :
    Except BridgeError Output :=
  if result.length < expected then
    .error (.lengthMismatch expected result.length)
  else if destination.length < expected then
    .error (.bufferTooShort "res" expected destination.length)
  else
    .ok (destination.overwrite (result.take expected))

end CallbackBridge
