/-
# Targets

Three kinds of targets can be registered: a session with the managed heap, a plan that
fixes the outcome of every call in advance, and a bridge into the reference-counting
host.
-/
import CallbackBridge.Counted.Store
import CallbackBridge.Heap.Runtime
import CallbackBridge.Native.Callback
namespace CallbackBridge

/-- A heap, the solver memory that its views alias, and a bridge into it. -/
structure HeapSession (F : Type) where
  /-- The heap. -/
  heap : Heap F
  /-- The memory that its views alias. -/
  memory : Memory := {}
  /-- The bridge. -/
  bridge : Bridge Rooted
  deriving Inhabited

/-- The outcome of one planned call. -/
inductive PlannedOutcome where
  /-- The call fails. -/
  | fail (e : BridgeError)
  /-- The call panics. -/
  | panic (message : String)
  /-- The call fills the output with a number. -/
  | fill (value : Binary64)
  deriving DecidableEq, Repr, Inhabited

/-- A target whose calls are planned. -/
structure Plan where
  /-- What a failing call asks of the solver. -/
  policy : FailurePolicy
  /-- The outcomes of the calls still to come; the last one is for all that follow. -/
  outcomes : List PlannedOutcome
  deriving DecidableEq, Repr, Inhabited

/-- The outcome of a planned call, the output after it, and the plan for the calls that
follow. -/
def Plan.call (plan : Plan) (res : Output) : Outcome BridgeError Unit × Output × Plan :=
  match plan.outcomes with
  | [] => (.ok (), res, plan)
  | outcome :: later =>
    let plan := if later.isEmpty then plan else { plan with outcomes := later }
    match outcome with
    | .fail e => (.error (.error e), res, plan)
    | .panic message => (.error (.panic message), res, plan)
    | .fill value => (.ok (), res.fill value, plan)

/-- What a target does when it is entered. -/
inductive TargetBody (F : Type) where
  /-- Evaluate in a session with the managed heap. -/
  | session (session : HeapSession F)
  /-- Follow a plan. -/
  | planned (plan : Plan)
  /-- Evaluate in the reference-counting host, in whose dictionary names are looked
  up. -/
  | counted (bridge : Bridge ObjId) (dict : Option ObjId)
  deriving Inhabited

/-- A target with an identity that it keeps as its state changes. -/
structure Target (F : Type) where
  /-- The identity. -/
  serial : Nat
  /-- What it does. -/
  body : TargetBody F
  deriving Inhabited

namespace Target

variable {F : Type}

/-- What a failing user function asks of the solver. -/
def policy (target : Target F) : FailurePolicy :=
  match target.body with
  | .session session => session.bridge.config.userFailure
  | .planned plan => plan.policy
  | .counted bridge _ => bridge.config.userFailure

/-- The counted objects that a target holds. -/
def held (target : Target F) : List ObjId :=
  match target.body with
  | .counted bridge dict =>
    let functions := match bridge.symbols with
      | .bound bindings => bindings.residual :: bindings.event.toList
      | .perCall => []
    functions ++ dict.toList
  | _ => []

end Target

/-! ## Handing windows to a bridge -/

/-- Exposes the windows of a callback as solver memory and gives the invocation. -/
def Windows.expose (windows : Windows) (m : Memory) : Invocation × Memory :=
  let (t, m) := Buffer.ofValues .time windows.t m
  let (y, m) := Buffer.ofValues .state windows.y m
  let (yp, m) := Buffer.ofValues .derivative windows.yp m
  (⟨t, y, yp, windows.ipar, windows.res⟩, m)

/-- Ends the exposure of the memory of an invocation. -/
def Invocation.withdraw (call : Invocation) (m : Memory) : Memory :=
  ((m.withdraw call.t.region).withdraw call.y.region).withdraw call.yp.region

end CallbackBridge
