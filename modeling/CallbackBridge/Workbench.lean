/-
# Working on a heap step by step

A workbench holds a managed heap under observation, names for references, handles,
bridges and solver memory, and possibly a session that has taken over the heap.  Each
step is one operation on them.
-/
import CallbackBridge.Process.Machine
import CallbackBridge.Recorded
namespace CallbackBridge

/-! ## Steps and answers -/

/-- How a bridge comes about. -/
inductive BridgeMode where
  /-- Names are looked up now. -/
  | setup
  /-- Names are looked up in every invocation. -/
  | perCall
  /-- Handles are given, by name. -/
  | injected (residual : String) (event : Option String)
  deriving DecidableEq, Repr, Inhabited

/-- The arguments of an evaluation, as values. -/
structure EvaluationInput where
  /-- Elapsed time. -/
  t : List Binary64
  /-- State vector. -/
  y : List Binary64
  /-- Derivative vector. -/
  yp : List Binary64
  /-- Integer parameters. -/
  ipar : List Int
  /-- The output before the call. -/
  res : List Binary64
  deriving DecidableEq, Repr, Inhabited

/-- A step at the workbench; `into` names the reference that it makes. -/
inductive WorkbenchStep (F : Type) where
  /-- Allocate an array. -/
  | array (values : List Binary64) (into : Option String)
  /-- Allocate a text. -/
  | text (text : String) (into : Option String)
  /-- Allocate a function. -/
  | function (f : NativeFunction F) (into : Option String)
  /-- Allocate a function and bind it under its name. -/
  | defineFunction (f : NativeFunction F) (into : Option String)
  /-- Bind a name. -/
  | define (name ref : String)
  /-- Unbind a name. -/
  | undefine (name : String)
  /-- Look a name up in the heap. -/
  | lookup (name : String) (into : Option String)
  /-- Read doubles from the heap. -/
  | read (ref : String)
  /-- Read doubles as the bridge does. -/
  | hostRead (ref : String)
  /-- Look at an object. -/
  | inspect (ref : String)
  /-- Get a reference that user code has saved. -/
  | saved (slot : String) (into : Option String)
  /-- Ask for the number of calls counted under a label. -/
  | calls (label : String)
  /-- Collect. -/
  | collect
  /-- Carry out steps a number of times. -/
  | loop (count : Nat) (steps : List (WorkbenchStep F))
  /-- Look a name up as the bridge does. -/
  | resolve (name : String) (into : Option String)
  /-- Ask as the bridge does whether a value can be called, and for its type. -/
  | isCallable (ref : String)
  /-- Root an object. -/
  | pin (ref : String)
  /-- Undo one pin. -/
  | unpin (ref : String)
  /-- Make a handle. -/
  | persist (ref handle : String)
  /-- Take a reference from a handle. -/
  | attach (handle : String) (into : Option String)
  /-- Give a handle up. -/
  | release (handle : String)
  /-- Call a function as the bridge does. -/
  | hostCall (f : String) (args : StateViews String) (into : Option String)
  /-- Run the code of a new function outside any call. -/
  | nativeCall (f : NativeFunction F) (args : StateViews String) (into : Option String)
  /-- Make a view of new solver memory, which can be named. -/
  | materialize (role : Role) (values : List Binary64) (memory into : Option String)
  /-- Point a view at new solver memory, which can be named. -/
  | repoint (ref : String) (role : Role) (values : List Binary64) (memory : Option String)
  /-- Detach a view. -/
  | retire (ref : String)
  /-- Let the solver write one element of its memory. -/
  | poke (memory : String) (index : Nat) (value : Binary64)
  /-- Make a bridge. -/
  | bridge (name : String) (mode : BridgeMode) (config : BridgeConfig)
  /-- Run an entry point of a bridge, or of the session. -/
  | evaluate (bridge : String) (entry : Entry) (input : EvaluationInput)
  /-- Tear a bridge down. -/
  | teardown (bridge : String)
  /-- Make the heap and a bridge into a session. -/
  | wrap (bridge : String)
  /-- End the session. -/
  | unwrap

/-- The answer to a step. -/
inductive WorkbenchAnswer where
  /-- A reference, or none. -/
  | ref (r : Option ObjRef)
  /-- A function, its name and its description. -/
  | function (r : ObjRef) (name description : String)
  /-- What a name was bound to before it was bound anew. -/
  | previous (r : Option ObjRef)
  /-- What a name was bound to before it was unbound. -/
  | removed (r : Option ObjRef)
  /-- Doubles. -/
  | values (values : List Binary64)
  /-- An error of the host. -/
  | failed (e : HostError)
  /-- An object that was looked at. -/
  | object (inspection : Inspection)
  /-- The number of counted calls. -/
  | calls (count : Option Nat)
  /-- The number of freed objects. -/
  | freed (count : Nat)
  /-- The answer to the last of repeated steps. -/
  | last (answer : Option WorkbenchAnswer)
  /-- Whether a value can be called, and its type. -/
  | callable (callable : Bool) (type : String)
  /-- The number of pins of an object. -/
  | pins (count : Option Nat)
  /-- A handle. -/
  | handle (handle : Rooted)
  /-- Carried out. -/
  | done
  /-- There is no bridge of that name. -/
  | noBridge
  /-- A bridge that was made. -/
  | bridge (config : BridgeConfig) (calls : Nat)
  /-- A bridge that could not be made. -/
  | rejected (e : BridgeError)
  /-- How an evaluation ended, with the calls of the bridge and the output. -/
  | evaluated (outcome : Outcome BridgeError Unit) (calls : Nat) (res : Output)
  /-- A session that was made, with the number of live objects. -/
  | wrapped (config : BridgeConfig) (live : Nat)
  deriving Inhabited

/-! ## The workbench -/

/-- The observed heap of a workbench. -/
abbrev ObservedHeap (F G : Type) : Type :=
  Recorded (HeapWorld F (Process F G)) ObjRef Rooted

/-- A heap under observation and what has been named at it. -/
structure Workbench (F G : Type) where
  /-- The heap. -/
  host : ObservedHeap F G
  /-- What the heap's host admits about reuse. -/
  support : ReuseSupport
  /-- Named references. -/
  refs : NameMap ObjRef := .empty
  /-- Named handles. -/
  handles : NameMap Rooted := .empty
  /-- Named bridges. -/
  bridges : NameMap (Bridge Rooted) := .empty
  /-- Named solver memory. -/
  memory : NameMap Region := .empty
  /-- The bridge of the session, if the heap is in one. -/
  session : Option (Bridge Rooted) := none

/-- An operation at a workbench; its error is a name that stands for nothing. -/
abbrev WorkbenchAct (F G α : Type) : Type := Act (Workbench F G) String α

namespace Workbench

variable {F G α : Type}

/-- A workbench with an empty heap. -/
def ofConfig (heap : HeapConfig) (support : ReuseSupport) (faults : List Fault) :
    Workbench F G where
  host := { host := ⟨Heap.ofConfig heap, {}, Process.start⟩, faults }
  support := support

/-- The heap. -/
def heap (w : Workbench F G) : Heap F := w.host.host.heap

/-- The observed host. -/
def runtime (engine : Engine F G) (w : Workbench F G) :
    HostRuntime (ObservedHeap F G) ObjRef Rooted :=
  Recorded.runtime w.support (HeapWorld.runtime engine.native)

/-- Looks at the workbench. -/
def look (view : Workbench F G → α) : WorkbenchAct F G α := Act.total fun w => (view w, w)

/-- A change of the world below the recorder. -/
def onWorld (step : HeapWorld F (Process F G) → α × HeapWorld F (Process F G)) :
    WorkbenchAct F G α :=
  Act.total fun w =>
    let (a, host) := w.host.below step
    (a, { w with host })

/-- A change of the heap. -/
def onHeap (step : Heap F → α × Heap F) : WorkbenchAct F G α := onWorld (HeapWorld.onHeap step)

/-- Something that the observed host does. -/
def onHost (engine : Engine F G)
    (step : HostRuntime (ObservedHeap F G) ObjRef Rooted → ObservedHeap F G →
      α × ObservedHeap F G) : WorkbenchAct F G α :=
  Act.total fun w =>
    let (a, host) := step (w.runtime engine) w.host
    (a, { w with host })

/-- Something that the observed host does and that yields nothing. -/
def changeHost (engine : Engine F G)
    (step : HostRuntime (ObservedHeap F G) ObjRef Rooted → ObservedHeap F G →
      ObservedHeap F G) : WorkbenchAct F G Unit :=
  onHost engine fun host s => ((), step host s)

/-! ## Names -/

/-- What a name stands for. -/
def named (names : Workbench F G → NameMap α) (name : String) : WorkbenchAct F G α := do
  match (← look names).find? name with
  | some a => return a
  | none => Act.fail name

/-- What three names of references stand for. -/
def namedArgs (args : StateViews String) : WorkbenchAct F G (StateViews ObjRef) := do
  let t ← named refs args.t
  let y ← named refs args.y
  let yp ← named refs args.yp
  return ⟨t, y, yp⟩

/-- Names a reference, if there is a name for it. -/
def name (into : Option String) (r : ObjRef) : WorkbenchAct F G Unit :=
  Act.total fun w =>
    match into with
    | some name => ((), { w with refs := w.refs.insert name r })
    | none => ((), w)

/-- Names a reference and answers with it. -/
def answerRef (into : Option String) (r : ObjRef) : WorkbenchAct F G WorkbenchAnswer := do
  name into r
  return .ref (some r)

/-- Answers with a reference that may be missing, and names it otherwise. -/
def answerOption (into : Option String) : Option ObjRef → WorkbenchAct F G WorkbenchAnswer
  | some r => answerRef into r
  | none => return .ref none

/-- Answers with what a call or the making of a view returned; a panic unwinds. -/
def answerOutcome (into : Option String) :
    Outcome HostError ObjRef → WorkbenchAct F G WorkbenchAnswer
  | .ok r => answerRef into r
  | .error (.error e) => return .failed e
  | .error (.panic message) => Act.panic message

/-- Answers with doubles that were read. -/
def answerValues : Except HostError (List Binary64) → WorkbenchAnswer
  | .ok values => .values values
  | .error e => .failed e

/-- Answers with the number of pins of an object. -/
def answerPins (r : ObjRef) : WorkbenchAct F G WorkbenchAnswer := do
  return .pins (← look fun w => w.heap.pinCount? r)

/-- Exposes solver memory for good and names it, if there is a name for it. -/
def expose (role : Role) (values : List Binary64) (name : Option String) :
    WorkbenchAct F G Buffer := do
  let buffer ← onWorld fun world =>
    let (buffer, memory) := Buffer.ofValues role values world.memory
    (buffer, { world with memory })
  Act.total fun w =>
    match name with
    | some name => (buffer, { w with memory := w.memory.insert name buffer.region })
    | none => (buffer, w)

/-- Makes a function ready for use. -/
def prepare (language : Language F G) (f : NativeFunction F) :
    WorkbenchAct F G (NativeFunction F) :=
  onWorld fun world =>
    let (f, outside) := world.outside.onScratch (language.prepareFunction f)
    (f, { world with outside })

/-! ## Bridges -/

/-- Stores a bridge that was made. -/
def storeBridge (name : String) :
    Outcome BridgeError (Bridge Rooted) → WorkbenchAct F G WorkbenchAnswer
  | .ok bridge => Act.total fun w =>
    (.bridge bridge.config bridge.calls, { w with bridges := w.bridges.insert name bridge })
  | .error (.error e) => return .rejected e
  | .error (.panic message) => Act.panic message

/-- Makes a bridge.  Given handles are used up, also when the bridge is rejected. -/
def makeBridge (engine : Engine F G) (name : String) (mode : BridgeMode)
    (config : BridgeConfig) : WorkbenchAct F G WorkbenchAnswer :=
  match mode with
  | .setup => do
    storeBridge name (← onHost engine fun host => (Bridge.resolveAtSetup host config).start)
  | .perCall => storeBridge name (Outcome.ofExcept (Bridge.resolvePerCall config))
  | .injected residual event => do
    let residualHandle ← named handles residual
    let eventHandle ← look fun w => event.bind w.handles.find?
    Act.total fun w =>
      let left := (event.toList).foldl NameMap.erase (w.handles.erase residual)
      ((), { w with handles := left })
    storeBridge name
      (Outcome.ofExcept (Bridge.ofBindings config ⟨residualHandle, eventHandle⟩))

/-- Runs an entry point of a bridge on values, exposed as solver memory for as long as
it runs.  The answer tells of a panic. -/
def evaluate (engine : Engine F G) (bridge : Bridge Rooted) (entry : Entry)
    (input : EvaluationInput) : WorkbenchAct F G (WorkbenchAnswer × Bridge Rooted) := do
  let windows : Windows := ⟨input.t, input.y, input.yp, ⟨input.ipar⟩, .ofList input.res⟩
  let call ← onWorld fun world =>
    let (call, memory) := windows.expose world.memory
    (call, { world with memory })
  onHost engine fun host s =>
    let result := bridge.evaluate host entry call s
    ((.evaluated result.outcome result.bridge.calls result.res, result.bridge),
      result.host.update fun world => { world with memory := call.withdraw world.memory })

/-! ## Carrying out steps -/

/-- Does something a number of times, each time with what the last time gave. -/
def repeated (act : α → WorkbenchAct F G α) : Nat → α → WorkbenchAct F G α
  | 0, a => pure a
  | count + 1, a => do repeated act count (← act a)

mutual

/-- Carries out a step. -/
def perform (language : Language F G) (engine : Engine F G) (step : WorkbenchStep F) :
    WorkbenchAct F G WorkbenchAnswer :=
  match step with
  | .array values into => do answerRef into (← onHeap fun h => h.alloc (.array values))
  | .text text into => do answerRef into (← onHeap fun h => h.alloc (.text text))
  | .function f into => do
    let f ← prepare language f
    let r ← onHeap fun h => h.alloc (.function f)
    name into r
    return .function r f.name f.describe
  | .defineFunction f into => do
    let f ← prepare language f
    answerRef into (← onHeap fun h => h.defineFunction f)
  | .define name ref => do
    let r ← named refs ref
    return .previous (← onHeap fun h => h.define name r)
  | .undefine name => do return .removed (← onHeap fun h => h.undefine name)
  | .lookup name into => do answerOption into (← look fun w => w.heap.lookup name)
  | .read ref => do
    let r ← named refs ref
    return answerValues (← look fun w => w.heap.read w.host.host.memory r)
  | .hostRead ref => do
    let r ← named refs ref
    return answerValues (← onHost engine fun host => host.read r)
  | .inspect ref => do
    let r ← named refs ref
    return .object (← look fun w => w.heap.inspect r)
  | .saved slot into => do
    answerOption into (← look fun w => w.host.host.outside.rest.scratch.saved.find? slot)
  | .calls label => do
    return .calls (← look fun w => w.host.host.outside.rest.scratch.count? label)
  | .collect => do return .freed (← onHeap Heap.collect)
  | .loop count steps => do
    return .last (← repeated (performAll language engine steps) count none)
  | .resolve name into => do answerOption into (← onHost engine fun host => host.resolve name)
  | .isCallable ref => do
    let r ← named refs ref
    let callable ← onHost engine fun host => host.isCallable r
    return .callable callable (← onHost engine fun host => host.typeName r)
  | .pin ref => do
    let r ← named refs ref
    changeHost engine fun host => host.pin r
    answerPins r
  | .unpin ref => do
    let r ← named refs ref
    changeHost engine fun host => host.unpin r
    answerPins r
  | .persist ref handle => do
    let r ← named refs ref
    let made ← onHost engine fun host => host.persist r
    Act.total fun w => (.handle made, { w with handles := w.handles.insert handle made })
  | .attach handle into => do
    let h ← named handles handle
    answerRef into (← onHost engine fun host => host.attach h)
  | .release handle => do
    let h ← named handles handle
    changeHost engine fun host => host.release h
    Act.total fun w => ((), { w with handles := w.handles.erase handle })
    answerPins h.ref
  | .hostCall f args into => do
    let f ← named refs f
    let args ← namedArgs args
    answerOutcome into (← onHost engine fun host => host.call f args)
  | .nativeCall f args into => do
    let args ← namedArgs args
    let f ← prepare language f
    answerOutcome into (← onWorld (engine.native f.code args).start)
  | .materialize role values memory into => do
    let buffer ← expose role values memory
    let result ← onHost engine fun host => host.materialize buffer
    answerOutcome into (Outcome.ofExcept result)
  | .repoint ref role values memory => do
    let r ← named refs ref
    let buffer ← expose role values memory
    match ← onHost engine fun host => host.repoint r buffer with
    | .ok () => return .done
    | .error e => return .failed e
  | .retire ref => do
    let r ← named refs ref
    changeHost engine fun host => host.retire r
    return .done
  | .poke name index value => do
    let region ← named memory name
    let contents ← look fun w => w.host.host.memory.read region
    discard <| Act.finish (Limits.element contents index)
    onWorld fun world =>
      (.done, { world with memory := world.memory.write region index value })
  | .bridge name mode config => makeBridge engine name mode config
  | .evaluate name entry input => do
    match ← look session with
    | some bridge =>
      let (answer, bridge) ← evaluate engine bridge entry input
      Act.total fun w => (answer, { w with session := some bridge })
    | none =>
      match (← look bridges).find? name with
      | some bridge =>
        let (answer, bridge) ← evaluate engine bridge entry input
        Act.total fun w => (answer, { w with bridges := w.bridges.insert name bridge })
      | none => return .noBridge
  | .teardown name => do
    match (← look bridges).find? name with
    | some bridge =>
      changeHost engine fun host => bridge.teardown host
      Act.total fun w => (.done, { w with bridges := w.bridges.erase name })
    | none => return .noBridge
  | .wrap name => do
    match (← look bridges).find? name with
    | some bridge => Act.total fun w =>
      (.wrapped bridge.config w.heap.liveObjects,
        { w with session := some bridge, bridges := w.bridges.erase name })
    | none => return .noBridge
  | .unwrap => do
    match ← look session with
    | some bridge =>
      changeHost engine fun host s => Session.intoHost host ⟨s, bridge⟩
      Act.total fun w => (.done, { w with session := none })
    | none => Act.fail "session"

/-- Carries out steps and answers for the last of them. -/
def performAll (language : Language F G) (engine : Engine F G) (steps : List (WorkbenchStep F))
    (answer : Option WorkbenchAnswer) : WorkbenchAct F G (Option WorkbenchAnswer) :=
  match steps with
  | [] => return answer
  | step :: rest => do
    performAll language engine rest (some (← perform language engine step))

end

/-! ## Rows -/

/-- What one step shows: its answer, what user code has noted, what the bridge has asked
of the host, and the state of the heap afterwards. -/
structure Row where
  /-- The answer, unless the step panicked or named what does not exist. -/
  answer : Outcome String WorkbenchAnswer
  /-- The notes of user code, in order. -/
  log : List LogEntry
  /-- The operations of the host, in order. -/
  events : List (HostEvent ObjRef Rooted)
  /-- The number of live objects. -/
  live : Nat
  /-- The counters of the heap. -/
  stats : HeapStats

/-- Carries out a step and shows what it did. -/
def row (language : Language F G) (engine : Engine F G) (step : WorkbenchStep F)
    (w : Workbench F G) : Row × Workbench F G :=
  let (answer, w) := (perform language engine step).start w
  let (events, host) := w.host.takeEvents
  let log := host.host.outside.rest.log.reverse
  let host := host.update fun world =>
    { world with outside := world.outside.update fun s => { s with log := [] } }
  let w := { w with host }
  (⟨answer, log, events, w.heap.liveObjects, w.heap.stats⟩, w)

end Workbench

end CallbackBridge
