/-
# The native interface

The operations on the registry and on the solver that drives the callbacks.
-/
import CallbackBridge.Process.Engine
namespace CallbackBridge

variable {F G : Type}

/-! ## Building targets -/

namespace Language

/-- A heap on which the reference residual is defined, and the reference event
functions if there are any. -/
def referenceHeap (language : Language F G) (config : HeapConfig) (m : Nat) : Heap F :=
  let h := (Heap.ofConfig config).defineFunction
    ⟨BindingNames.daskrResidual, language.difference⟩ |>.2
  if m > 0 then
    (h.defineFunction ⟨BindingNames.daskrEvent, language.leadingRoots m⟩).2
  else h

/-- Makes a function ready for use. -/
def prepareFunction (language : Language F G) (f : NativeFunction F) (s : Scratch) :
    NativeFunction F × Scratch :=
  let (code, s) := language.prepare f.code s
  ({ f with code }, s)

/-- Defines functions on a heap, each made ready for use. -/
def defineAll (language : Language F G) (functions : List (NativeFunction F)) (h : Heap F)
    (s : Scratch) : Heap F × Scratch :=
  functions.foldl (fun (h, s) f =>
    let (f, s) := language.prepareFunction f s
    ((h.defineFunction f).2, s)) (h, s)

end Language

/-- Allocates texts on a heap and binds their names. -/
def Heap.defineTexts (h : Heap F) (texts : List (String × String)) : Heap F :=
  texts.foldl (fun h (name, text) =>
    let (r, h) := h.alloc (.text text)
    (h.define name r).2) h

/-- A session with a heap, set up as the settings say. -/
def HeapSession.setUp (engine : Engine F G) (heap : Heap F) (config : BridgeConfig)
    (perCall : Bool) : Act (Process F G) BridgeError (HeapSession F) :=
  if perCall then
    Act.finish (Outcome.ofExcept ((Bridge.resolvePerCall config).map fun bridge =>
      { heap, bridge }))
  else fun p =>
    let (bridge, w) :=
      (Bridge.resolveAtSetup (HeapWorld.runtime engine.native) config).start ⟨heap, {}, p⟩
    (bridge.map fun bridge => { heap := w.heap, bridge }, w.outside)

namespace TargetSpec

/-- Builds a session with given functions and texts. -/
def buildSession (language : Language F G) (engine : Engine F G)
    (functions : List (NativeFunction F)) (reference : Option Nat)
    (texts : List (String × String)) (config : BridgeConfig) (heap : HeapConfig)
    (perCall : Bool) : Act (Process F G) BridgeError (HeapSession F) := do
  let base := match reference with
    | some m => language.referenceHeap heap m
    | none => Heap.ofConfig heap
  let heap ← Act.total (Process.onScratch (language.defineAll functions base))
  HeapSession.setUp engine (heap.defineTexts texts) config perCall

/-- Builds a target, or gives the answer that says why that is not possible.  For a
session with the reference functions alone that is a panic. -/
def build (language : Language F G) (engine : Engine F G) (spec : TargetSpec F) :
    Act (Process F G) NativeAnswer (Target F) :=
  match spec with
  | reference m config heap => do
    match ← Act.caught (HeapSession.setUp engine (language.referenceHeap heap m) config false) with
    | .ok built => Act.total (Process.newTarget (.session built))
    | .error e => Act.panic ("reference heap failed to bind: " ++ e.message)
  | session functions base texts config heap perCall => do
    let built ← Act.mapError NativeAnswer.rejected
      (buildSession language engine functions base texts config heap perCall)
    Act.total (Process.newTarget (.session built))
  | planned plan => Act.total (Process.newTarget (.planned plan))
  | kept name => do
    match ← Act.total fun p => (p.rest.kept.find? name, p) with
    | some target =>
      Act.total fun p => (target, p.update fun s => { s with kept := s.kept.erase name })
    | none => Act.fail (.unknown name)

end TargetSpec

/-! ## The registry -/

namespace Process

/-- Registers a target. -/
def install (target : Target F) (p : Process F G) :
    Except Status (Option (Target F)) × Process F G :=
  let (result, registry) := p.registry.install target
  (result, { p with registry })

/-- Takes the target out. -/
def uninstall (p : Process F G) : Except Status (Option (Target F)) × Process F G :=
  let (result, registry) := p.registry.uninstall
  (result, { p with registry })

/-- Sets a target aside under a name, if both are given. -/
def setAside (name : Option String) (target : Option (Target F)) (p : Process F G) :
    Process F G :=
  match name, target with
  | some name, some target => p.update fun s => { s with kept := s.kept.insert name target }
  | _, _ => p

/-- Answers for an installation or removal, and sets the previous target aside. -/
def answerReplaced (keep : Option String) :
    Except Status (Option (Target F)) × Process F G → NativeAnswer × Process F G
  | (.ok previous, p) => (.replaced previous.isSome, p.setAside keep previous)
  | (.error status, p) => (.refused status, p)

/-- Does something with the solver in use. -/
def withSolver (act : Solver → Act (Process F G) Empty NativeAnswer) :
    Act (Process F G) Empty NativeAnswer := do
  match ← Act.total fun p => (p.rest.solver, p) with
  | some solver => act solver
  | none => return .unknown "solver"

end Process

/-! ## The solver -/

namespace Solver

/-- Asks for the residual, into a given output. -/
def residualInto (engine : Engine F G) (entry : NativeEntry) (solver : Solver)
    (res : CanaryBuffer) (p : Process F G) : (Int × CanaryBuffer) × Process F G :=
  let (effect, p) := engine.callback entry (solver.residualArguments res) p
  ((effect.ires.getD 0, received res effect), p)

/-- Asks for the residual, into an unwritten output. -/
def askResidual (engine : Engine F G) (entry : NativeEntry) (outLen : Option Nat)
    (solver : Solver) : Act (Process F G) Empty (Int × CanaryBuffer) := do
  let res ← Act.finish
    (CanaryBuffer.allocate (outLen.getD solver.stateLen) CanaryBuffer.standardGuard)
  Act.total (solver.residualInto engine entry res)

/-- Asks for the event functions, with the solver's own lengths or given ones. -/
def askRoots (engine : Engine F G) (lengths : Option (Int × Int)) (solver : Solver)
    (p : Process F G) : CanaryBuffer × Process F G :=
  let (neq, nrt) := lengths.getD ((solver.ipar[0]?).getD 0, Int.ofNat solver.eventCount)
  let res := CanaryBuffer.ofLength solver.eventCount
  let (effect, p) := engine.callback .daskrEvent (solver.eventArguments res neq nrt) p
  (received res effect, p)

/-- Marches, asking for the residual at each trial. -/
def marchThrough (engine : Engine F G) (steps : Nat) (dt : Binary64) (maxRetries : Nat)
    (solver : Solver) (p : Process F G) : (MarchReport × Solver) × Process F G :=
  let (report, moved, p) := march (fun trial p =>
    let ((ires, _), p) :=
      trial.residualInto engine .daskrResidual (.ofLength trial.stateLen) p
    (ires, p)) steps dt maxRetries solver p
  ((report, moved), p)

end Solver

/-- Calls an entry point with given pointers. -/
def RawCall.run (engine : Engine F G) (call : RawCall) :
    Act (Process F G) Empty NativeAnswer := do
  let res ← Act.finish (CanaryBuffer.allocate call.outLen call.guardLen)
  let effect ← Act.total (engine.callback call.entry (call.arguments res))
  return .raw (effect.ires.getD call.ires) (Solver.received res effect) call.stateBuffer

/-! ## All operations -/

namespace NativeStep

/-- Carries out an operation. -/
def answer (language : Language F G) (engine : Engine F G) (step : NativeStep F) :
    Act (Process F G) Empty NativeAnswer :=
  match step with
  | install spec keep => do
    match ← Act.caught (spec.build language engine) with
    | .ok target => Act.total fun p => Process.answerReplaced keep (p.install target)
    | .error answer => return answer
  | uninstall keep => Act.total fun p => Process.answerReplaced keep p.uninstall
  | remove => Act.total fun p =>
    let (result, p) := p.uninstall
    (.removal (Registry.removalStatus result), p)
  | isInstalled => Act.total fun p => (.installed p.registry.isInstalled, p)
  | lastStatus => Act.total fun p => (.lastStatus p.registry.lastStatus, p)
  | calls label => Act.total fun p => (.calls (p.rest.scratch.count? label), p)
  | solver spec => do
    let fresh ← Act.finish spec.build
    Act.total fun p => (.solver fresh, p.update fun s => { s with solver := some fresh })
  | residual entry outLen => Process.withSolver fun inUse => do
    let (ires, res) ← inUse.askResidual engine entry outLen
    return .residual ires res
  | roots lengths => Process.withSolver fun inUse => do
    return .roots (← Act.total (inUse.askRoots engine lengths))
  | march steps dt maxRetries => Process.withSolver fun inUse => do
    let (report, moved) ← Act.total (inUse.marchThrough engine steps dt maxRetries)
    Act.total fun p => ((), p.update fun s => { s with solver := some moved })
    return .marched report moved
  | raw call => call.run engine

/-- Carries out an operation and reports the last status with its answer. -/
def perform (language : Language F G) (engine : Engine F G) (step : NativeStep F) :
    Act (Process F G) Empty NativeReply := do
  let answer ← step.answer language engine
  Act.total fun p => (⟨answer, p.registry.lastStatus⟩, p)

end NativeStep

end CallbackBridge
