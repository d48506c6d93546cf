/-
# Status codes

A native callback has no return value.  It reports in two ways: a status that can be
asked for afterwards, and, for residuals, the solver's flag IRES, which stays as it
is on success.
-/
import CallbackBridge.Error
namespace CallbackBridge

/-- The status of a native operation. -/
inductive Status where
  /-- Success. -/
  | ok
  /-- A user function is not bound. -/
  | unresolvedBinding
  /-- A value has the wrong type. -/
  | typeMismatch
  /-- A user function returned too few values. -/
  | lengthMismatch
  /-- A user function failed. -/
  | userFunctionFailure
  /-- A length parameter is of no use. -/
  | invalidLengthParameter
  /-- A buffer is shorter than its declared length. -/
  | bufferTooShort
  /-- A configuration was rejected. -/
  | configError
  /-- The host failed. -/
  | hostError
  /-- No target is installed. -/
  | notInstalled
  /-- A callback is running. -/
  | busy
  /-- A required pointer is null. -/
  | invalidArgument
  /-- A callback panicked earlier. -/
  | internalError
  /-- This callback panicked. -/
  | panicked
  deriving DecidableEq, Repr, Inhabited

namespace Status

/-- All statuses. -/
def all : List Status :=
  [ok, unresolvedBinding, typeMismatch, lengthMismatch, userFunctionFailure,
    invalidLengthParameter, bufferTooShort, configError, hostError, notInstalled, busy,
    invalidArgument, internalError, panicked]

/-- The number of a status. -/
def code : Status → Int
  | ok => 0
  | unresolvedBinding => -1
  | typeMismatch => -2
  | lengthMismatch => -3
  | userFunctionFailure => -4
  | invalidLengthParameter => -5
  | bufferTooShort => -6
  | configError => -7
  | hostError => -8
  | notInstalled => -9
  | busy => -10
  | invalidArgument => -11
  | internalError => -20
  | panicked => -128

/-- The status with a given number. -/
def ofCode? (code : Int) : Option Status := all.find? fun status => status.code = code

/-- The name of a status. -/
def title : Status → String
  | ok => "Ok"
  | unresolvedBinding => "UnresolvedBinding"
  | typeMismatch => "TypeMismatch"
  | lengthMismatch => "LengthMismatch"
  | userFunctionFailure => "UserFunctionFailure"
  | invalidLengthParameter => "InvalidLengthParameter"
  | bufferTooShort => "BufferTooShort"
  | configError => "ConfigError"
  | hostError => "HostError"
  | notInstalled => "NotInstalled"
  | busy => "Busy"
  | invalidArgument => "InvalidArgument"
  | internalError => "InternalError"
  | panicked => "Panicked"

end Status

/-! ## From errors -/

/-- The status of an error of the bridge. -/
def BridgeError.status : BridgeError → Status
  | unresolvedBinding _ => .unresolvedBinding
  | typeMismatch _ _ _ => .typeMismatch
  | lengthMismatch _ _ => .lengthMismatch
  | userFunctionFailure _ _ => .userFunctionFailure
  | invalidLengthParameter _ _ => .invalidLengthParameter
  | missingLengthParameter _ => .invalidLengthParameter
  | unexpectedLength _ _ _ => .invalidLengthParameter
  | bufferTooShort _ _ _ => .bufferTooShort
  | config _ => .configError
  | host _ => .hostError

/-- The flag that asks the solver for a smaller step. -/
def iresRetry : Int := -1

/-- The flag that asks the solver to stop. -/
def iresAbort : Int := -2

/-- The flag for an error: a smaller step only for failures of user code, and only if
the policy says so. -/
def BridgeError.ires (e : BridgeError) : FailurePolicy → Int
  | .retrySmallerStep => if e.isUserFailure then iresRetry else iresAbort
  | .abort => iresAbort

end CallbackBridge
