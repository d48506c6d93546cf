/-
# Exceptions of the client

A client of the bindings learns of failures through exceptions.  Each status has a
summary, a hint on what to do, and a class of exception.
-/
import CallbackBridge.Native.Status
namespace CallbackBridge

/-- An exception: its class and its text. -/
structure ClientException where
  /-- The class. -/
  kind : String
  /-- The text. -/
  message : String
  deriving DecidableEq, Repr, Inhabited

/-- The written form: class and text, the colon also before an empty text. -/
def ClientException.text (e : ClientException) : String := e.kind ++ ": " ++ e.message

/-! ## What a status means to a client -/

/-- What happened and what to do about it. -/
structure Advice where
  /-- What happened. -/
  summary : String
  /-- What to do. -/
  hint : String
  deriving DecidableEq, Repr, Inhabited

/-- The advice for a status. -/
def Status.advice : Status → Advice
  | .ok => ⟨"ok", "No action needed."⟩
  | .unresolvedBinding =>
    ⟨"user function is not bound",
      "Define the residual (and, with root finding, the event) function in the namespace " ++
      "before the solve starts, or pass `event=` when constructing the Bridge."⟩
  | .typeMismatch =>
    ⟨"value has the wrong type",
      "Bindings must be callables taking (t, y, yp). They must return a one-dimensional " ++
      "contiguous numpy float64 array; a (N, 1) or 0-d result is rejected, not reshaped. " ++
      "Convert with `numpy.ascontiguousarray(out, dtype=numpy.float64).ravel()`."⟩
  | .lengthMismatch =>
    ⟨"user function returned too few values",
      "The residual must return at least N values (N = len(y)); the event function must " ++
      "return at least as many values as there are root functions."⟩
  | .userFunctionFailure =>
    ⟨"user function raised",
      "The traceback was printed above. Construct the Bridge with on_user_error=\"retry\" " ++
      "if the failure is transient and the solver should retry with a smaller step."⟩
  | .invalidLengthParameter =>
    ⟨"ipar does not hold a usable length",
      "ipar[0] must be the number of equations (>= 1) and ipar[1] the number of root " ++
      "functions (>= 0). If state_len or event_count was given, they must match ipar."⟩
  | .bufferTooShort =>
    ⟨"solver buffer shorter than its declared length",
      "y and yp must hold ipar[0] values and the output buffer must hold the output length."⟩
  | .configError =>
    ⟨"configuration error",
      "state_len must be at least 1 and binding names must not be empty."⟩
  | .hostError =>
    ⟨"the Python host failed",
      "A value could not be read or a view could not be created. Check that numpy is " ++
      "importable and that user functions do not keep the arrays they are given."⟩
  | .notInstalled =>
    ⟨"no bridge installed",
      "Call bridge.install() before handing callback_addresses() to the solver."⟩
  | .busy =>
    ⟨"a callback is already running",
      "User functions must not install, uninstall or evaluate a Bridge while the solver " ++
      "is calling them."⟩
  | .invalidArgument =>
    ⟨"null pointer argument",
      "The solver passed a null buffer. Check the driver's argument list."⟩
  | .internalError =>
    ⟨"internal error",
      "An earlier callback panicked. Install the Bridge again to recover."⟩
  | .panicked =>
    ⟨"panic caught at the FFI boundary",
      "This is a bug in dae-bridge. The integration was stopped; install the Bridge again " ++
      "to continue."⟩

/-- The advice for a number that is no status. -/
def Advice.unknown : Advice :=
  ⟨"unknown dae-bridge error",
    "An unrecognized status code was returned. This may indicate a version mismatch " ++
    "between the Python bindings and the native library."⟩

/-- The advice for a number. -/
def Advice.ofCode (code : Int) : Advice :=
  match Status.ofCode? code with
  | some status => status.advice
  | none => .unknown

/-- The class of the exception for a status. -/
def Status.exceptionKind : Status → String
  | .unresolvedBinding => "LookupError"
  | .typeMismatch => "TypeError"
  | .lengthMismatch | .invalidLengthParameter | .bufferTooShort | .configError
  | .invalidArgument => "ValueError"
  | _ => "RuntimeError"

/-! ## Making exceptions -/

namespace ClientException

/-- An exception for a number, with a text followed by the hint. -/
def withHint (code : Int) (text : String) : ClientException where
  kind := ((Status.ofCode? code).map Status.exceptionKind).getD "RuntimeError"
  message := text ++ "\n  Hint: " ++ (Advice.ofCode code).hint

/-- The exception for a number, unless it stands for success. -/
def ofCode? (code : Int) : Option ClientException :=
  if code = Status.ok.code then none
  else some (withHint code
    ("dae-bridge error " ++ toString code ++ ": " ++ (Advice.ofCode code).summary))

/-- The exception for an error of the bridge. -/
def ofBridgeError (e : BridgeError) : ClientException := withHint e.status.code e.message

/-- The exception for a refusal of the registry. -/
def ofRefusal (status : Status) : ClientException :=
  (ofCode? status.code).getD ⟨"RuntimeError", "registry refused the operation"⟩

end ClientException

end CallbackBridge
