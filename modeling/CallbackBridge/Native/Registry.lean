/-
# The registry of the callback target

The native callbacks take no context argument, so the target that they dispatch to is
registered for the whole process.  A running callback locks the registry.  A panic of
the target poisons it: callbacks are refused until a target is installed or the
present one is taken out.
-/
import CallbackBridge.Native.Status
namespace CallbackBridge

/-- The registered target and the state of its lock. -/
structure Registry (τ : Type) where
  /-- The target.  While a callback runs, this is the target as it was when the
  callback began. -/
  slot : Option τ := none
  /-- Whether a callback is running. -/
  locked : Bool := false
  /-- Whether a target has panicked since the last installation or removal. -/
  poisoned : Bool := false
  /-- The status of the callback that ended last, or success after an installation. -/
  lastStatus : Status := .ok
  deriving Inhabited

namespace Registry

variable {τ : Type}

/-! ## Updates -/

/-- Registers a target and gives back the previous one; refused while a callback
runs. -/
def install (target : τ) (r : Registry τ) : Except Status (Option τ) × Registry τ :=
  if r.locked then (.error .busy, r)
  else (.ok r.slot, { r with slot := some target, poisoned := false, lastStatus := .ok })

/-- Takes the target out; refused while a callback runs. -/
def uninstall (r : Registry τ) : Except Status (Option τ) × Registry τ :=
  if r.locked then (.error .busy, r)
  else (.ok r.slot, { r with slot := none, poisoned := false })

/-- Whether a target is registered, also while its callback runs. -/
def isInstalled (r : Registry τ) : Bool := r.locked || r.slot.isSome

/-- The status of a removal for callers that want no target back. -/
def removalStatus : Except Status (Option τ) → Status
  | .ok (some _) => .ok
  | .ok none => .notInstalled
  | .error status => status

/-! ## Callbacks -/

/-- Records how a callback ended. -/
def record (status : Status) (r : Registry τ) : Registry τ := { r with lastStatus := status }

/-- The target that a callback may enter, or why it may not. -/
def available (r : Registry τ) : Except Status τ :=
  if r.locked then .error .busy
  else if r.poisoned then .error .internalError
  else match r.slot with
    | some target => .ok target
    | none => .error .notInstalled

/-- The registry while a callback runs. -/
def enter (r : Registry τ) : Registry τ := { r with locked := true }

/-- The registry after the callback, with the target as the callback left it. -/
def leave (target : τ) (panicked : Bool) (r : Registry τ) : Registry τ :=
  { r with slot := some target, locked := false, poisoned := r.poisoned || panicked }

end Registry

end CallbackBridge
