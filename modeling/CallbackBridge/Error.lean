/-
# Errors

A host reports a `HostError`; an entry point of the bridge reports a
`BridgeError`.  Each has one constructor for each cause, and its text in one
place.
-/
import CallbackBridge.Config
namespace CallbackBridge

/-! ## Errors of a host -/

/-- What a managed host reports. -/
inductive HostError where
  /-- The value cannot be called. -/
  | notCallable (found : String)
  /-- The value is not a contiguous array of doubles. -/
  | notF64Array (found : String)
  /-- The reference no longer leads to an object. -/
  | staleReference (ref : String)
  /-- The view was read after the call that made it had returned. -/
  | retiredView
  /-- User code failed. -/
  | userFailure (reason : String)
  /-- The host cannot do what was asked. -/
  | unsupported (what : String)
  deriving DecidableEq, Repr

/-- The text of a host's error. -/
def HostError.message : HostError → String
  | .notCallable found => "value is not callable (found " ++ found ++ ")"
  | .notF64Array found => "expected an f64 array, found " ++ found
  | .staleReference ref => "stale reference " ++ ref
  | .retiredView => "view was retired when its invocation returned"
  | .userFailure reason => reason
  | .unsupported what => "host does not support " ++ what

/-! ## Errors of the bridge -/

/-- What an entry point of the bridge reports. -/
inductive BridgeError where
  /-- A required name is not bound in the host's namespace. -/
  | unresolvedBinding (name : String)
  /-- A value has the wrong type for its part. -/
  | typeMismatch (what expected found : String)
  /-- The result is shorter than the output. -/
  | lengthMismatch (expected found : Nat)
  /-- User code failed. -/
  | userFunctionFailure (function reason : String)
  /-- A length parameter is negative, zero where a state length is required, or
  contradicts a length passed beside it. -/
  | invalidLengthParameter (index : Nat) (value : Int)
  /-- A length parameter that the entry point needs is absent. -/
  | missingLengthParameter (index : Nat)
  /-- A length parameter differs from the configured length. -/
  | unexpectedLength (index expected found : Nat)
  /-- A buffer is shorter than its declared length. -/
  | bufferTooShort (buffer : String) (expected found : Nat)
  /-- The configuration was rejected. -/
  | config (e : ConfigError)
  /-- Any other failure of the host. -/
  | host (e : HostError)
  deriving DecidableEq, Repr

namespace BridgeError

/-- The text of an error of the bridge. -/
def message : BridgeError → String
  | unresolvedBinding name => "no binding named '" ++ name ++ "' in the host namespace"
  | typeMismatch what expected found =>
    what ++ ": expected " ++ expected ++ ", found " ++ found
  | lengthMismatch expected found =>
    "user function returned " ++ toString found ++ " values, " ++ toString expected ++
      " required"
  | userFunctionFailure function reason =>
    "user function '" ++ function ++ "' failed: " ++ reason
  | invalidLengthParameter index value =>
    "ipar[" ++ toString index ++ "] = " ++ toString value ++ " is not a valid length"
  | missingLengthParameter index => "ipar[" ++ toString index ++ "] is missing"
  | unexpectedLength index expected found =>
    "ipar[" ++ toString index ++ "] = " ++ toString found ++ ", bridge configured for " ++
      toString expected
  | bufferTooShort buffer expected found =>
    "buffer '" ++ buffer ++ "' holds " ++ toString found ++ " values, " ++
      toString expected ++ " required"
  | config e => "configuration: " ++ e.message
  | host e => "host: " ++ e.message

/-- Whether user code failed, as opposed to a breach of contract between solver,
bridge and user code. -/
def isUserFailure : BridgeError → Bool
  | userFunctionFailure _ _ => true
  | _ => false

end BridgeError

end CallbackBridge
