/-
# The bindings for clients

A client makes bridges to callables.  A bridge builds a new target whenever one is
needed.  An evaluation registers a target of its own for one native callback and then
puts back what was registered before, so its outcome reaches the client only through
the status of that callback.
-/
import CallbackBridge.Process.Native
namespace CallbackBridge

variable {F G : Type}

/-! ## Objects -/

/-- The object that a source stands for, or the answer that there is no such variable. -/
def ObjectSource.obtain (source : ObjectSource G) : Act (Process F G) ClientAnswer ObjId :=
  match source with
  | new object => Act.total (Process.onStore fun s => s.make object)
  | named name => Act.checked fun p =>
    match p.rest.store.assigned.find? name with
    | some id => (.ok id, p)
    | none => (.error (.unknown "variable"), p)

/-- What can be seen of an array. -/
def Store.inspect (s : Store G) (id : ObjId) : Option ArrayInspection :=
  (s.array? id).map fun a =>
    { dtype := a.dtype
      shape := a.shape
      contiguous := a.isContiguous
      writeable := a.writeable
      base := match a.base with
        | .owned => none
        | .foreign => some (CountedObject.typeName (CountedObject.null : CountedObject G))
        | .derived base => some (s.typeName base) }

/-! ## Making bridges -/

/-- The label of a user function: its qualified name, or else its role. -/
def Store.labelFor (s : Store G) (function : ObjId) (role : String) :
    Except ClientException String :=
  if s.isCallable function then
    match s.get? function with
    | some (.callable _ (some label) _ _) => .ok label
    | _ => .ok role
  else
    .error ⟨"TypeError", role ++ " must be callable, got " ++ s.typeName function⟩

namespace ClientSettings

/-- The policy named by `onUserError`. -/
def policy (settings : ClientSettings) : Except ClientException FailurePolicy :=
  if settings.onUserError = "abort" then .ok .abort
  else if settings.onUserError = "retry" then .ok .retrySmallerStep
  else .error ⟨"ValueError",
    "on_user_error must be \"abort\" or \"retry\", got " ++
      Quoted.encode settings.onUserError⟩

/-- The configuration of a bridge with these settings. -/
def config (settings : ClientSettings) (names : BindingNames) :
    Except ClientException BridgeConfig := do
  let config : BridgeConfig :=
    { userFailure := ← settings.policy
      stateLen := settings.stateLen
      eventCount := settings.eventCount
      names }
  match config.validate with
  | .ok () => return config
  | .error e => throw (.ofBridgeError (.config e))

end ClientSettings

namespace ClientBridge

/-- A bridge to given functions. -/
def ofFunctions (s : Store G) (residual : ObjId) (event : Option ObjId)
    (settings : ClientSettings) : Except ClientException ClientBridge := do
  let residualLabel ← s.labelFor residual "residual"
  let eventLabel ← match event with
    | some id => some <$> s.labelFor id "event"
    | none => pure none
  let config ← settings.config ⟨residualLabel, eventLabel⟩
  return ⟨.injected residual event, config⟩

/-- A bridge to the functions in a dictionary, under the names of an interface. -/
def ofDictionary (dict : ObjId) (interface : String) (perCall : Bool)
    (settings : ClientSettings) : Except ClientException ClientBridge := do
  let names ←
    if interface = "daskr" then pure BindingNames.daskr
    else if interface = "dassl" then pure BindingNames.dassl
    else throw ⟨"ValueError",
      "interface must be \"daskr\" or \"dassl\", got " ++ Quoted.encode interface⟩
  let config ← settings.config names
  return ⟨.dictionary dict perCall, config⟩

/-! ## Building targets -/

/-- What a new target of the bridge does. -/
def targetBody (engine : Engine F G) (bridge : ClientBridge) :
    Act (Process F G) BridgeError (TargetBody F) :=
  match bridge.source with
  | .injected residual event =>
    Act.finish (Outcome.ofExcept ((Bridge.ofBindings bridge.config ⟨residual, event⟩).map
      fun built => .counted built none))
  | .dictionary dict true =>
    Act.finish (Outcome.ofExcept ((Bridge.resolvePerCall bridge.config).map
      fun built => .counted built (some dict)))
  | .dictionary dict false => fun p =>
    let (built, w) :=
      (Bridge.resolveAtSetup (CountedWorld.runtime engine.callable) bridge.config).start
        { process := p, dict := some dict }
    (built.map fun built => .counted built (some dict), w.process)

/-- Registers a new target of the bridge and gives the previous one. -/
def install (engine : Engine F G) (bridge : ClientBridge) :
    Act (Process F G) ClientException (Option (Target F)) := do
  let body ← Act.mapError ClientException.ofBridgeError (bridge.targetBody engine)
  let target ← Act.total (Process.newTarget body)
  Act.mapError ClientException.ofRefusal (Act.checked fun p => p.install target)

/-! ## Evaluating -/

/-- Puts back what was registered before an evaluation. -/
def restore (previous : Option (Target F)) (p : Process F G) :
    Except Status Unit × Process F G :=
  let p := p.update fun s => { s with displaced := none }
  match previous with
  | some target =>
    let (result, p) := p.install target
    (result.map fun _ => (), p)
  | none =>
    let (result, p) := p.uninstall
    (result.map fun _ => (), p)

/-- Runs one callback with a target of the bridge registered, and gives its status and
the output.  What was registered before is held meanwhile and put back at the end. -/
def callOnce (engine : Engine F G) (bridge : ClientBridge) (entry : NativeEntry)
    (args : CallbackArguments) : Act (Process F G) ClientException (Status × Option Output) := do
  let previous ← bridge.install engine
  Act.total fun p => ((), p.update fun s => { s with displaced := previous })
  let effect ← Act.total (engine.callback entry args)
  let status ← Act.total fun p => (p.registry.lastStatus, p)
  Act.mapError ClientException.ofRefusal (Act.checked (restore previous))
  return (status, effect.res)

/-- The entry point and arguments for a request. -/
def arguments (request : Request) (t : Binary64) (y yp : List Binary64) (stride : Nat) :
    Except ClientException (NativeEntry × CallbackArguments) := do
  if stride > 1 ∧ y.length > 1 then
    throw ⟨"TypeError", "The given array is not contiguous or is misaligned."⟩
  if y.length ≠ yp.length then
    throw ⟨"ValueError", "y and yp must have the same length (" ++ toString y.length ++
      " != " ++ toString yp.length ++ ")"⟩
  if y.length > LengthParameters.maxLength then
    throw ⟨"ValueError", "len(y) does not fit in an i32"⟩
  let n := Int.ofNat y.length
  let args (outLen : Nat) (m : Int) : CallbackArguments :=
    { t := some [t]
      y := some y
      yp := some yp
      res := some (.fresh outLen)
      ipar := some [n, m]
      ires := some 0
      neq := some n
      nrt := some m }
  match request with
  | .residual => return (.daskrResidual, args y.length 0)
  | .events count =>
    if count > LengthParameters.maxLength then
      throw ⟨"ValueError", "n_events does not fit in an i32"⟩
    return (.daskrEvent, args count (Int.ofNat count))

/-- Evaluates a request through the native interface. -/
def evaluate (engine : Engine F G) (bridge : ClientBridge) (request : Request) (t : Binary64)
    (y yp : List Binary64) (stride : Nat) :
    Act (Process F G) ClientException CountedArray := do
  let (entry, args) ← Act.finish (Outcome.ofExcept (arguments request t y yp stride))
  let (status, res) ← bridge.callOnce engine entry args
  match ClientException.ofCode? status.code with
  | some e => Act.fail e
  | none => return .ofValues ((res.map Output.toList).getD [])

end ClientBridge

/-! ## All operations -/

namespace ClientStep

/-- Answers with a value or an exception. -/
def answerWith {α : Type} (show_ : α → ClientValue) (act : Act (Process F G) ClientException α) :
    Act (Process F G) Empty ClientAnswer := do
  match ← Act.caught act with
  | .ok a => return .value (show_ a)
  | .error e => return .raised e

/-- Carries out an operation that has its answer early if an object is missing. -/
def answered (act : Act (Process F G) ClientAnswer ClientAnswer) :
    Act (Process F G) Empty ClientAnswer := do
  match ← Act.caught act with
  | .ok answer => return answer
  | .error answer => return answer

/-- Changes the process and has nothing to report. -/
def change {ε : Type} (step : Process F G → Process F G) : Act (Process F G) ε ClientAnswer :=
  Act.total fun p => (.done, step p)

/-- Does something with a bridge of the client. -/
def withBridge (name : String) (act : ClientBridge → Act (Process F G) Empty ClientAnswer) :
    Act (Process F G) Empty ClientAnswer := do
  match ← Act.total fun p => (p.rest.bridges.find? name, p) with
  | some bridge => act bridge
  | none => return .noBridge

/-- Stores a bridge that was made, or answers with the exception. -/
def storeBridge {ε : Type} (name : String)
    (build : Store G → Except ClientException ClientBridge) :
    Act (Process F G) ε ClientAnswer :=
  Act.total fun p =>
    match build p.rest.store with
    | .ok bridge => (.done, p.update fun s => { s with bridges := s.bridges.insert name bridge })
    | .error e => (.raised e, p)

/-- Carries out an operation. -/
def perform (language : Language F G) (engine : Engine F G) (step : ClientStep F G) :
    Act (Process F G) Empty ClientAnswer :=
  match step with
  | make source name => answered do
    let id ← source.obtain
    Act.total fun p =>
      (.made (p.rest.store.typeName id), p.updateStore fun s => s.assign name id)
  | dict name => answered do
    let id ← ObjectSource.obtain (.new (.dict .empty))
    change fun p => p.updateStore fun s => s.assign name id
  | bind holder key source => answered do
    let dict ← ObjectSource.obtain (.named holder)
    let id ← source.obtain
    change fun p => p.updateStore fun s => s.updateDict dict fun entries => entries.insert key id
  | unbind holder key => answered do
    let dict ← ObjectSource.obtain (.named holder)
    change fun p => p.updateStore fun s => s.updateDict dict fun entries => entries.erase key
  | setCallable name enabled => answered do
    let id ← ObjectSource.obtain (.named name)
    change fun p => p.updateStore fun s => s.setEnabled id enabled
  | dropKept => change fun p => p.updateStore fun s => { s with kept := [] }
  | kept => Act.total fun p => (.kept p.rest.store.kept.length, p)
  | new name residual event settings => answered do
    let residual ← residual.obtain
    let event ← event.mapM ObjectSource.obtain
    let settings ← settings.mapM ObjectSource.obtain
    storeBridge name fun s => do
      ClientBridge.ofFunctions s residual (s.unlessNull event) (← s.readSettings settings)
  | fromDictionary name holder interface perCall settings => answered do
    let holder ← holder.obtain
    let interface ← interface.mapM ObjectSource.obtain
    let perCall ← perCall.mapM ObjectSource.obtain
    let settings ← settings.mapM ObjectSource.obtain
    storeBridge name fun s => do
      let dict ← s.readDict "namespace" holder
      let interface ← interface.mapM (s.readText "interface")
      let perCall ← perCall.mapM (s.readTruth "per_call")
      ClientBridge.ofDictionary dict (interface.getD "daskr") (perCall.getD false)
        (← s.readSettings settings)
  | describe name => withBridge name fun bridge => return .value (.text bridge.describe)
  | install name => withBridge name fun bridge =>
    answerWith (fun _ => .null) (bridge.install engine)
  | uninstall => answerWith (fun previous => .bool previous.isSome)
    (Act.mapError ClientException.ofRefusal (Act.checked Process.uninstall))
  | evaluate name request t y yp stride => withBridge name fun bridge =>
    answerWith .array (bridge.evaluate engine request t y yp stride)
  | addresses => return .addresses
  | constants => return .constants
  | lastStatus => Act.total fun p => (.value (.int p.registry.lastStatus.code), p)
  | native step => do return .native (← step.perform language engine)

end ClientStep

end CallbackBridge
