/-
# A solver that drives the callbacks

The solver holds a state and hands it to the callbacks.  Its integration is as simple
as can be: it moves the state along the derivative, asks for the residual, keeps the
step if the callback has no complaint, and halves the step if it is asked to.
-/
import CallbackBridge.Native.Callback
import CallbackBridge.Native.Canary
namespace CallbackBridge

/-! ## The solver's state -/

/-- The state of a solver. -/
structure Solver where
  /-- Elapsed time. -/
  t : Binary64
  /-- State vector. -/
  y : List Binary64
  /-- Derivative vector. -/
  yp : List Binary64
  /-- Integer parameters. -/
  ipar : List Int
  /-- The scalar of the iteration matrix. -/
  cj : Binary64 := .one
  /-- Real parameters. -/
  rpar : List Binary64 := [.zero]
  deriving DecidableEq, Repr, Inhabited

namespace Solver

/-- A solver for `n` state variables and `m` events, in a given state. -/
def ofState (n m : Nat) (t : Binary64) (y yp : List Binary64) : Solver where
  t := t
  y := y
  yp := yp
  ipar := [LengthParameters.ofLength n, LengthParameters.ofLength m]

/-- A solver at rest, for `n` state variables and `m` events. -/
def ofSize (n m : Nat) : Solver :=
  ofState n m .zero (List.replicate n .zero) (List.replicate n .zero)

/-- The solver with other integer parameters. -/
def withParameters (solver : Solver) (ipar : List Int) : Solver := { solver with ipar }

/-- The number of state variables. -/
def stateLen (solver : Solver) : Nat := (solver.ipar[0]?.getD 0).toNat

/-- The number of events. -/
def eventCount (solver : Solver) : Nat := (solver.ipar[1]?.getD 0).toNat

/-- The arguments of a residual callback that writes into a buffer. -/
def residualArguments (solver : Solver) (res : CanaryBuffer) : CallbackArguments where
  t := some [solver.t]
  y := some solver.y
  yp := some solver.yp
  res := some (.ofList res.memory)
  ipar := some solver.ipar
  ires := some 0
  neq := none
  nrt := none

/-- The arguments of an event callback that writes into a buffer. -/
def eventArguments (solver : Solver) (res : CanaryBuffer) (neq nrt : Int) :
    CallbackArguments where
  t := some [solver.t]
  y := some solver.y
  yp := some solver.yp
  res := some (.ofList res.memory)
  ipar := some solver.ipar
  ires := none
  neq := some neq
  nrt := some nrt

/-- A buffer after a callback has written through its pointer. -/
def received (res : CanaryBuffer) (effect : CallbackEffect) : CanaryBuffer :=
  match effect.res with
  | some memory => res.setMemory memory.toList
  | none => res

/-! ## Marching -/

/-- What a march reports. -/
structure MarchReport where
  /-- Steps taken. -/
  accepted : Nat := 0
  /-- Steps tried again with half the length. -/
  retries : Nat := 0
  /-- Whether the march ended early. -/
  aborted : Bool := false
  /-- The length of a step at the end. -/
  finalStep : Binary64
  deriving DecidableEq, Repr

/-- The state one step further along the derivative.  The left operand passes through if
both are not numbers: that is the old time for the time, and the increment for a state
variable. -/
def advance (solver : Solver) (dt : Binary64) : Solver :=
  { solver with
    t := solver.t + dt
    y := (List.zipWith (fun y yp => dt * yp + y) solver.y solver.yp) ++
      solver.y.drop solver.yp.length }

variable {σ : Type}

/-- Takes `remaining` more steps, where the next one may still be halved `retriesLeft`
times and `maxRetries` is that number after a step is taken. -/
def marchFrom (residual : Solver → σ → Int × σ) (maxRetries : Nat) :
    (remaining retriesLeft : Nat) → Binary64 → Solver → MarchReport → σ →
    MarchReport × Solver × σ
  | 0, _, dt, solver, report, s => ({ report with finalStep := dt }, solver, s)
  | remaining + 1, retriesLeft, dt, solver, report, s =>
    let trial := solver.advance dt
    let (ires, s) := residual trial s
    if ires = 0 then
      marchFrom residual maxRetries remaining maxRetries dt trial
        { report with accepted := report.accepted + 1 } s
    else if ires = iresRetry then
      match retriesLeft with
      | 0 => ({ report with aborted := true, finalStep := dt }, solver, s)
      | retriesLeft + 1 =>
        marchFrom residual maxRetries (remaining + 1) retriesLeft (dt * .half) solver
          { report with retries := report.retries + 1 } s
    else ({ report with aborted := true, finalStep := dt }, solver, s)
  termination_by remaining retriesLeft => (remaining, retriesLeft)

/-- Marches a number of steps of a given length, asking `residual` for the flag at each
trial. -/
def march (residual : Solver → σ → Int × σ) (steps : Nat) (dt : Binary64) (maxRetries : Nat)
    (solver : Solver) (s : σ) : MarchReport × Solver × σ :=
  marchFrom residual maxRetries steps maxRetries dt solver { finalStep := dt } s

end Solver

/-! ## Making solvers -/

/-- How a solver comes about. -/
structure SolverSpec where
  /-- The number of state variables. -/
  stateLen : Nat
  /-- The number of events. -/
  eventCount : Nat
  /-- Time, state and derivative to start from, if the solver is not at rest. -/
  state : Option (Binary64 × List Binary64 × List Binary64)
  /-- Integer parameters to use instead of the two numbers. -/
  ipar : Option (List Int)
  deriving DecidableEq, Repr, Inhabited

/-- Makes a solver, if there can be memory for its state and there is a parameter to read
the number of state variables from. -/
def SolverSpec.build (spec : SolverSpec) : Outcome Empty Solver := do
  Limits.reserve spec.stateLen
  let solver := match spec.state with
    | some (t, y, yp) => Solver.ofState spec.stateLen spec.eventCount t y yp
    | none => Solver.ofSize spec.stateLen spec.eventCount
  let solver := (spec.ipar.map solver.withParameters).getD solver
  discard (Limits.element solver.ipar 0)
  return solver

end CallbackBridge
