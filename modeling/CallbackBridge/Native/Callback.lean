/-
# Native callbacks

A callback is called with pointers.  It checks them and the lengths, enters the
registered target with windows of exactly the declared lengths, and turns the outcome
into a status and an IRES value.  A panic of the target does not leave the callback.
-/
import CallbackBridge.Bridge
import CallbackBridge.Native.Registry
namespace CallbackBridge

/-! ## Arguments -/

/-- The pointers of one callback: the memory behind each, or none for a null
pointer. -/
structure CallbackArguments where
  /-- Elapsed time. -/
  t : Option (List Binary64)
  /-- State vector. -/
  y : Option (List Binary64)
  /-- Derivative vector. -/
  yp : Option (List Binary64)
  /-- Output. -/
  res : Option Output
  /-- Integer parameters. -/
  ipar : Option (List Int)
  /-- The solver's flag. -/
  ires : Option Int
  /-- The number of equations, as an argument of its own. -/
  neq : Option Int
  /-- The number of event functions, as an argument of its own. -/
  nrt : Option Int
  deriving Inhabited

/-- What the target gets to see of the arguments. -/
structure Windows where
  /-- One element. -/
  t : List Binary64
  /-- As many elements as there are state variables. -/
  y : List Binary64
  /-- As many elements as there are state variables. -/
  yp : List Binary64
  /-- The integer parameters that the entry point needs. -/
  ipar : LengthParameters
  /-- As many elements as the entry point has to deliver. -/
  res : Output
  deriving DecidableEq, Inhabited

/-- The number of integer parameters that an entry point reads. -/
def Entry.parameterCount : Entry → Nat
  | .residual => LengthParameters.stateLenIndex + 1
  | .event => LengthParameters.eventCountIndex + 1

namespace CallbackArguments

/-- The memory behind a pointer that must not be null. -/
def required {α : Type} : Option α → Except Status α
  | some a => .ok a
  | none => .error .invalidArgument

/-- A length given beside the integer parameters must agree with them; a null pointer
gives none. -/
def crossCheck (given : Option Int) (expected index : Nat) : Except Status Unit :=
  match given with
  | none => .ok ()
  | some value =>
    if value = Int.ofNat expected then .ok ()
    else .error (BridgeError.invalidLengthParameter index value).status

/-- The window of a length onto the memory behind a pointer. -/
def window (pointer : Option (List Binary64)) (len : Nat) : Except Status (List Binary64) := do
  return (← required pointer).take len

/-- The window of a length onto the output behind a pointer. -/
def outputWindow (pointer : Option Output) (len : Nat) : Except Status Output := do
  return (← required pointer).take len

/-- Checks the arguments: `ipar`, the lengths in it, the lengths beside it, the inputs
and the output, in this order. -/
def check (args : CallbackArguments) (entry : Entry) : Except Status Windows := do
  let ipar : LengthParameters := ⟨(← required args.ipar).take entry.parameterCount⟩
  let n ← ipar.stateLen.mapError BridgeError.status
  let outLen ← match entry with
    | .residual => pure n
    | .event => ipar.eventCount.mapError BridgeError.status
  crossCheck args.neq n LengthParameters.stateLenIndex
  crossCheck args.nrt outLen LengthParameters.eventCountIndex
  let t ← window args.t 1
  let y ← window args.y n
  let yp ← window args.yp n
  let res ← if outLen = 0 then pure (Output.ofList []) else outputWindow args.res outLen
  return ⟨t, y, yp, ipar, res⟩

end CallbackArguments

/-! ## Targets -/

/-- The registry and everything else that a callback can change. -/
structure NativeState (τ ω : Type) where
  /-- The registry. -/
  registry : Registry τ := {}
  /-- All the rest. -/
  rest : ω
  deriving Inhabited

/-- What a run of a target leaves behind. -/
structure TargetRun (τ ω : Type) where
  /-- How it ended. -/
  outcome : Outcome BridgeError Unit
  /-- The output window. -/
  res : Output
  /-- The target. -/
  target : τ
  /-- The surroundings. -/
  state : NativeState τ ω

/-- What a kind of target does when it is entered. -/
structure TargetSystem (τ ω : Type) where
  /-- What a failing user function asks of the solver. -/
  policy : τ → FailurePolicy
  /-- Runs an entry point of a target. -/
  run : τ → Entry → Windows → NativeState τ ω → TargetRun τ ω

/-! ## Running a callback -/

/-- What a callback leaves behind the pointers that it may write through. -/
structure CallbackEffect where
  /-- The memory behind the output pointer. -/
  res : Option Output
  /-- The solver's flag. -/
  ires : Option Int
  deriving DecidableEq, Inhabited

/-- How a callback ends that has been checked. -/
structure Verdict where
  /-- Its status. -/
  status : Status
  /-- What it writes into IRES, if anything. -/
  ires : Option Int
  deriving DecidableEq, Repr, Inhabited

namespace Verdict

/-- A callback that is refused. -/
def refused (status : Status) : Verdict := ⟨status, some iresAbort⟩

/-- A callback whose target ended with the given outcome. -/
def ofOutcome (policy : FailurePolicy) : Outcome BridgeError Unit → Verdict
  | .ok () => ⟨.ok, none⟩
  | .error (.error e) => ⟨e.status, some (e.ires policy)⟩
  | .error (.panic _) => ⟨.panicked, some iresAbort⟩

end Verdict

namespace TargetSystem

variable {τ ω : Type}

/-- Enters the registered target with checked arguments, if it may be entered, and
gives the output window as it is afterwards. -/
def dispatch (system : TargetSystem τ ω) (entry : Entry) (windows : Windows)
    (s : NativeState τ ω) : Verdict × Output × NativeState τ ω :=
  match s.registry.available with
  | .error status => (.refused status, windows.res, s)
  | .ok target =>
    let run := system.run target entry windows { s with registry := s.registry.enter }
    (.ofOutcome (system.policy target) run.outcome, run.res,
      { run.state with
        registry := run.state.registry.leave run.target (Outcome.panicked run.outcome) })

/-- Checks the arguments and enters the target; gives the memory behind the output
pointer as it is afterwards. -/
def attempt (system : TargetSystem τ ω) (entry : Entry) (args : CallbackArguments)
    (s : NativeState τ ω) : Verdict × Option Output × NativeState τ ω :=
  match args.check entry with
  | .error status => (.refused status, args.res, s)
  | .ok windows =>
    let (verdict, res, s) := system.dispatch entry windows s
    (verdict, args.res.map fun memory => res.append (memory.drop windows.res.length), s)

/-- Runs a callback and records its status. -/
def callback (system : TargetSystem τ ω) (entry : Entry) (args : CallbackArguments)
    (s : NativeState τ ω) : CallbackEffect × NativeState τ ω :=
  let (verdict, res, s) := system.attempt entry args s
  (⟨res, args.ires.map fun ires => verdict.ires.getD ires⟩,
    { s with registry := s.registry.record verdict.status })

end TargetSystem

end CallbackBridge
