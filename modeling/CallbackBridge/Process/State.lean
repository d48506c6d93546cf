/-
# The state of a process

Besides the registry, a process holds a solver, the targets that were set aside, what
user code remembers between calls, the counted objects, and the bridges that clients
have made.  `F` is the code of native functions, `G` that of callables.
-/
import CallbackBridge.Native.Target
import CallbackBridge.Process.Answer
namespace CallbackBridge

/-! ## What user code remembers -/

/-- Call counters and saved references, which outlive the calls that use them. -/
structure Scratch where
  /-- The counters, in the order of their making. -/
  counters : List Nat := []
  /-- The latest counter that was made under each label. -/
  labels : NameMap Nat := .empty
  /-- The saved references to heap objects. -/
  saved : NameMap ObjRef := .empty
  deriving Inhabited

namespace Scratch

/-- Makes a counter that stands at zero. -/
def newCounter (s : Scratch) (label : Option String) : Nat × Scratch :=
  let index := s.counters.length
  let labels := match label with
    | some label => s.labels.insert label index
    | none => s.labels
  (index, { s with counters := s.counters ++ [0], labels })

/-- Advances a counter and gives what it was at before. -/
def tick (s : Scratch) (index : Nat) : Nat × Scratch :=
  let count := (s.counters[index]?).getD 0
  (count, { s with counters := s.counters.set index (count + 1) })

/-- What the counter with a label is at. -/
def count? (s : Scratch) (label : String) : Option Nat := do
  s.counters[(← s.labels.find? label)]?

end Scratch

/-! ## Bridges of clients -/

/-- Where a client's bridge gets its user functions from. -/
inductive BridgeSource where
  /-- They were given to it. -/
  | injected (residual : ObjId) (event : Option ObjId)
  /-- They are looked up in a dictionary, once or in every call. -/
  | dictionary (dict : ObjId) (perCall : Bool)
  deriving DecidableEq, Repr, Inhabited

/-- A bridge as a client holds it; a target is built from it when one is needed. -/
structure ClientBridge where
  /-- Where the user functions come from. -/
  source : BridgeSource
  /-- The settings. -/
  config : BridgeConfig
  deriving Repr, Inhabited

namespace ClientBridge

/-- The counted objects that a bridge holds. -/
def held (bridge : ClientBridge) : List ObjId :=
  match bridge.source with
  | .injected residual event => residual :: event.toList
  | .dictionary dict _ => [dict]

/-- A description for people. -/
def describe (bridge : ClientBridge) : String :=
  let source := match bridge.source with
    | .injected _ _ => "injected"
    | .dictionary _ true => "namespace, per call"
    | .dictionary _ false => "namespace"
  "Bridge(residual=" ++ Quoted.encode bridge.config.names.residual ++
    ", event=" ++ Quoted.encodeOption bridge.config.names.event ++
    ", " ++ source ++ ", on_user_error=" ++ bridge.config.userFailure.title ++ ")"

end ClientBridge

/-! ## The process -/

/-- All of a process but its registry. -/
structure Shared (F G : Type) where
  /-- The identity that the next target gets. -/
  nextSerial : Nat := 0
  /-- The targets that were set aside. -/
  kept : NameMap (Target F) := .empty
  /-- The target that an evaluation puts back when it is done. -/
  displaced : Option (Target F) := none
  /-- The solver in use. -/
  solver : Option Solver := none
  /-- What user code remembers. -/
  scratch : Scratch := {}
  /-- What user code has noted, the latest first. -/
  log : List LogEntry := []
  /-- The counted objects. -/
  store : Store G := {}
  /-- The bridges of clients. -/
  bridges : NameMap ClientBridge := .empty
  /-- The warnings given, the latest first. -/
  warnings : List String := []
  /-- The exceptions printed, the latest first. -/
  printed : List String := []
  deriving Inhabited

/-- A process. -/
abbrev Process (F G : Type) : Type := NativeState (Target F) (Shared F G)

namespace Process

variable {F G α : Type}

/-- A process at its start. -/
def start : Process F G := { rest := {} }

/-- A change of everything but the registry. -/
def share (step : Shared F G → α × Shared F G) (p : Process F G) : α × Process F G :=
  let (a, rest) := step p.rest
  (a, { p with rest })

/-- Changes everything but the registry and yields nothing. -/
def update (step : Shared F G → Shared F G) (p : Process F G) : Process F G :=
  { p with rest := step p.rest }

/-- Changes the counted objects. -/
def updateStore (step : Store G → Store G) : Process F G → Process F G :=
  update fun s => { s with store := step s.store }

/-- A change of the counted objects. -/
def onStore (step : Store G → α × Store G) : Process F G → α × Process F G :=
  share fun s =>
    let (a, store) := step s.store
    (a, { s with store })

/-- A change of what user code remembers. -/
def onScratch (step : Scratch → α × Scratch) : Process F G → α × Process F G :=
  share fun s =>
    let (a, scratch) := step s.scratch
    (a, { s with scratch })

/-- Adds a note of user code. -/
def note (entry : LogEntry) : Process F G → Process F G :=
  update fun s => { s with log := entry :: s.log }

/-- Gives a warning. -/
def warn (warning : String) : Process F G → Process F G :=
  update fun s => { s with warnings := warning :: s.warnings }

/-- Prints an exception. -/
def print (e : ClientException) : Process F G → Process F G :=
  update fun s => { s with printed := e.text :: s.printed }

/-- The counted objects that bridges and targets hold. -/
def held (p : Process F G) : List ObjId :=
  let targets := p.rest.kept.values ++ p.rest.displaced.toList ++ p.registry.slot.toList
  p.rest.bridges.values.flatMap ClientBridge.held ++ targets.flatMap Target.held

/-- Makes a target that has not existed before. -/
def newTarget (body : TargetBody F) : Process F G → Target F × Process F G :=
  share fun s => (⟨s.nextSerial, body⟩, { s with nextSerial := s.nextSerial + 1 })

end Process

end CallbackBridge
