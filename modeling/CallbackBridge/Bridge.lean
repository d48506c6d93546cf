/-
# The bridge

An invocation first checks its arguments, touching neither host nor output.  Then,
under one guard, it obtains the user function, obtains the views, calls, reads the
result and copies exactly as many numbers as the entry point asks for.  The guard
closes on every way out.
-/
import CallbackBridge.CopyOut
import CallbackBridge.Lengths
import CallbackBridge.Symbols
import CallbackBridge.Views
namespace CallbackBridge

/-! ## Arguments of an invocation -/

/-- What the solver passes in one call. -/
structure Invocation where
  /-- Elapsed time. -/
  t : Buffer
  /-- State vector. -/
  y : Buffer
  /-- Derivative vector. -/
  yp : Buffer
  /-- Integer parameters. -/
  ipar : LengthParameters
  /-- The output. -/
  res : Output
  deriving DecidableEq, Inhabited

/-- What argument checking yields. -/
structure Admission where
  /-- The number of values that the entry point has to deliver. -/
  outLen : Nat
  /-- Windows of exactly the declared lengths. -/
  buffers : StateViews Buffer
  deriving DecidableEq, Inhabited

/-- A length that agrees with the configured one, if one is configured. -/
def agreedLength (found : Nat) (configured : Option Nat) (index : Nat) :
    Except BridgeError Nat :=
  match configured with
  | none => .ok found
  | some expected =>
    if expected = found then .ok found else .error (.unexpectedLength index expected found)

/-- The leading window of a buffer. -/
def leadingWindow (buffer : Buffer) (len : Nat) : Except BridgeError Buffer :=
  match buffer.cut? len with
  | some window => .ok window
  | none => .error (.bufferTooShort buffer.role.argument len buffer.len)

/-- The number of values that an entry point delivers for a system of `n` state
variables. -/
def Entry.outputLen (entry : Entry) (config : BridgeConfig) (ipar : LengthParameters)
    (n : Nat) : Except BridgeError Nat :=
  match entry with
  | .residual => .ok n
  | .event => do
    agreedLength (← ipar.eventCount) config.eventCount LengthParameters.eventCountIndex

/-- Checks the arguments of an invocation: state length, event count, `t`, `y`, `yp`
and output, in this order. -/
def BridgeConfig.check (config : BridgeConfig) (entry : Entry) (call : Invocation) :
    Except BridgeError Admission := do
  let n ← agreedLength (← call.ipar.stateLen) config.stateLen LengthParameters.stateLenIndex
  let outLen ← entry.outputLen config call.ipar n
  let t ← leadingWindow call.t 1
  let y ← leadingWindow call.y n
  let yp ← leadingWindow call.yp n
  if call.res.length < outLen then
    throw (.bufferTooShort "res" outLen call.res.length)
  return ⟨outLen, ⟨t, y, yp⟩⟩

/-! ## Calling the user function -/

/-- The error of the bridge for a call that the host reports as failed. -/
def HostError.ofCall (function : String) : HostError → BridgeError
  | .userFailure reason => .userFunctionFailure function reason
  | .notCallable found => .typeMismatch function "callable" found
  | e => .host e

/-- The error of the bridge for a result that the host cannot read. -/
def HostError.ofResult : HostError → BridgeError
  | .notF64Array found => .typeMismatch "result" "f64 array" found
  | e => .host e

variable {σ R K : Type}

/-- Calls the user function and pins what it returns. -/
def invoke (host : HostRuntime σ R K) (function : R) (name : String) (views : StateViews R) :
    Step σ R K R := do
  let result ← Step.onHost
    (Act.mapError (HostError.ofCall name) (Act.ofStep (host.call function views)))
  Step.root host result
  return result

/-- Reads the result and copies it into the output. -/
def deliver (host : HostRuntime σ R K) (result : R) (outLen : Nat) : Step σ R K Unit := do
  let values ← Step.tryHost HostError.ofResult (host.read result)
  Act.checked fun frame =>
    match copyOut values frame.res outLen with
    | .ok res => (.ok (), { frame with res })
    | .error e => (.error e, frame)

/-! ## Bridges -/

/-- What connects one solve to the user functions of a host. -/
structure Bridge (K : Type) where
  /-- The settings. -/
  config : BridgeConfig
  /-- Where the user functions come from. -/
  symbols : Symbols K
  /-- The handles of the long-lived views, once they exist. -/
  reusable : Option (StateViews K)
  /-- The number of invocations whose arguments were accepted. -/
  calls : Nat
  deriving Inhabited

/-- What an invocation leaves behind. -/
structure Evaluation (σ K : Type) where
  /-- How it ended. -/
  outcome : Outcome BridgeError Unit
  /-- The output. -/
  res : Output
  /-- The bridge. -/
  bridge : Bridge K
  /-- The state of the host. -/
  host : σ

namespace Bridge

/-- A bridge that has not been called yet. -/
def start (config : BridgeConfig) (symbols : Symbols K) : Bridge K := ⟨config, symbols, none, 0⟩

/-- The check that every bridge starts from. -/
def validated (config : BridgeConfig) (symbols : Symbols K) : Except BridgeError (Bridge K) :=
  match config.validate with
  | .ok () => .ok (start config symbols)
  | .error e => .error (.config e)

/-- A bridge to functions that are given by their handles. -/
def ofBindings (config : BridgeConfig) (bindings : Bindings K) : Except BridgeError (Bridge K) :=
  validated config (.bound bindings)

/-- A bridge to the functions that the configured names are bound to now. -/
def resolveAtSetup (host : HostRuntime σ R K) (config : BridgeConfig) :
    Act σ BridgeError (Bridge K) :=
  match config.validate with
  | .error e => Act.fail (.config e)
  | .ok () => do return start config (.bound (← Bindings.resolve host config.names))

/-- A bridge that looks the configured names up in every invocation. -/
def resolvePerCall (config : BridgeConfig) : Except BridgeError (Bridge K) :=
  validated config .perCall

/-- The part of an invocation that runs under the guard. -/
def body (host : HostRuntime σ R K) (bridge : Bridge K) (entry : Entry) (admission : Admission) :
    Step σ R K Unit := do
  let (function, name) ← bridge.symbols.obtain host bridge.config.names entry
  let views ← StateViews.obtain host bridge.config.strategy admission.buffers
  let result ← invoke host function name views
  deliver host result admission.outLen

/-- Runs an entry point. -/
def evaluate (host : HostRuntime σ R K) (bridge : Bridge K) (entry : Entry) (call : Invocation)
    (s : σ) : Evaluation σ K :=
  match bridge.config.check entry call with
  | .error e => ⟨.error (.error e), call.res, bridge, s⟩
  | .ok admission =>
    let (outcome, frame) :=
      (body host bridge entry admission).start ⟨s, {}, bridge.reusable, call.res⟩
    { outcome
      res := frame.res
      bridge := { bridge with calls := bridge.calls + 1, reusable := frame.reusable }
      host := frame.guard.close host frame.host }

/-- Releases every root that the bridge holds. -/
def teardown (host : HostRuntime σ R K) (bridge : Bridge K) (s : σ) : σ :=
  let s := match bridge.symbols with
    | .bound bindings => bindings.release host s
    | .perCall => s
  match bridge.reusable with
  | none => s
  | some views => host.release views.yp (host.release views.y (host.release views.t s))

end Bridge

/-! ## Sessions -/

/-- A host together with a bridge into it. -/
structure Session (σ K : Type) where
  /-- The state of the host. -/
  host : σ
  /-- The bridge. -/
  bridge : Bridge K
  deriving Inhabited

namespace Session

/-- What a failing user function asks of the solver. -/
def policy (session : Session σ K) : FailurePolicy := session.bridge.config.userFailure

/-- Tears the bridge down and hands the host back. -/
def intoHost (host : HostRuntime σ R K) (session : Session σ K) : σ :=
  session.bridge.teardown host session.host

end Session

end CallbackBridge
