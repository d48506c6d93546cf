/-
# User code on the heap

User code is a program that issues heap commands and commands to its surroundings.
A call through the heap opens a scope, which roots what the body allocates until the
call ends, also when it fails or panics.  Errors of a called function come back to
the caller as values; panics unwind through it.

Calls can nest without end, so the machine that runs them counts the levels down;
`Runner.level` adds one level to a machine, whatever the surroundings are.
-/
import CallbackBridge.Heap.Basic
import CallbackBridge.Host
namespace CallbackBridge

/-! ## Commands -/

/-- Commands of some kind and what each is answered with. -/
structure Interface where
  /-- The commands. -/
  Command : Type
  /-- The type of the answer to a command. -/
  Reply : Command → Type

/-- What user code can see of an object. -/
structure Inspection where
  /-- The reference that was looked at. -/
  ref : ObjRef
  /-- The kind of the object; none if it is gone. -/
  kind : Option String
  /-- The number of its pins. -/
  pins : Option Nat
  /-- Its contents, if it is a text. -/
  text : Option String
  deriving DecidableEq, Repr, Inhabited

/-- Looks at an object. -/
def Heap.inspect {F : Type} (h : Heap F) (r : ObjRef) : Inspection :=
  ⟨r, h.kind? r, h.pinCount? r, h.text? r⟩

/-- What user code can ask for. -/
inductive HeapCommand (F : Type) (I : Interface) : Type where
  /-- Allocate an array. -/
  | array (values : List Binary64)
  /-- Allocate a text. -/
  | text (text : String)
  /-- Allocate a function. -/
  | function (f : NativeFunction F)
  /-- Bind a name. -/
  | define (name : String) (value : ObjRef)
  /-- Unbind a name. -/
  | undefine (name : String)
  /-- Look a name up. -/
  | lookup (name : String)
  /-- Read doubles. -/
  | read (r : ObjRef)
  /-- Look at an object. -/
  | inspect (r : ObjRef)
  /-- Collect. -/
  | collect
  /-- Call a function through the heap. -/
  | call (f : ObjRef) (args : StateViews ObjRef)
  /-- Run the code of a function within the present call. -/
  | direct (f : NativeFunction F) (args : StateViews ObjRef)
  /-- Root an object. -/
  | pin (r : ObjRef)
  /-- Undo one pin. -/
  | unpin (r : ObjRef)
  /-- Make a view. -/
  | materialize (buffer : Buffer)
  /-- Point a view at a buffer. -/
  | repoint (r : ObjRef) (buffer : Buffer)
  /-- Detach a view. -/
  | retire (r : ObjRef)
  /-- Ask the surroundings. -/
  | outside (command : I.Command)

/-- The answer to each command. -/
@[reducible] def HeapCommand.Reply {F : Type} {I : Interface} : HeapCommand F I → Type
  | array _ => ObjRef
  | text _ => ObjRef
  | function _ => ObjRef
  | define _ _ => Option ObjRef
  | undefine _ => Option ObjRef
  | lookup _ => Option ObjRef
  | read _ => Except HostError (List Binary64)
  | inspect _ => Inspection
  | collect => Nat
  | call _ _ => Except HostError ObjRef
  | direct _ _ => Except HostError ObjRef
  | pin _ => Unit
  | unpin _ => Unit
  | materialize _ => ObjRef
  | repoint _ _ => Except HostError Unit
  | retire _ => Unit
  | outside command => I.Reply command

/-- A program of user code. -/
abbrev HeapProgram (F : Type) (I : Interface) (α : Type) : Type :=
  Program (HeapCommand F I) HeapCommand.Reply HostError α

/-- The program that issues one command. -/
def HeapCommand.ask {F : Type} {I : Interface} (command : HeapCommand F I) :
    HeapProgram F I command.Reply :=
  Program.perform command

/-- What the code of a function means: a program for each choice of arguments. -/
abbrev UserCode (F : Type) (I : Interface) : Type :=
  F → StateViews ObjRef → HeapProgram F I ObjRef

/-- The function that applies a pure function of three lists to its arguments and
allocates what it yields. -/
def UserCode.ofSlices {F : Type} {I : Interface}
    (f : List Binary64 → List Binary64 → List Binary64 → Outcome String (List Binary64))
    (args : StateViews ObjRef) : HeapProgram F I ObjRef := do
  let t ← readOrFail args.t
  let y ← readOrFail args.y
  let yp ← readOrFail args.yp
  match f t y yp with
  | .ok out => (HeapCommand.array out).ask
  | .error (.error reason) => Program.fail (.userFailure reason)
  | .error (.panic message) => Program.panic message
where
  /-- Reads an argument; an unreadable one is the end of the function. -/
  readOrFail (r : ObjRef) : HeapProgram F I (List Binary64) := do
    match ← (HeapCommand.read r).ask with
    | .ok values => pure values
    | .error e => Program.fail e

/-! ## The machine -/

/-- The heap, the solver memory behind its views, and all the rest. -/
structure HeapWorld (F ω : Type) where
  /-- The heap. -/
  heap : Heap F
  /-- The solver memory that its views alias. -/
  memory : Memory
  /-- The state of the surroundings. -/
  outside : ω
  deriving Inhabited

/-- How the surroundings answer; they may panic, and then user code unwinds. -/
abbrev Surroundings (I : Interface) (ω : Type) : Type :=
  (command : I.Command) → Act ω Empty (I.Reply command)

/-- A machine that runs the code of functions. -/
abbrev Runner (F ω : Type) : Type :=
  F → StateViews ObjRef → Act (HeapWorld F ω) HostError ObjRef

namespace HeapWorld

variable {F ω α : Type} {I : Interface}

/-- A change of the heap. -/
def onHeap (step : Heap F → α × Heap F) (w : HeapWorld F ω) : α × HeapWorld F ω :=
  let (a, heap) := step w.heap
  (a, { w with heap })

/-- Changes the heap and yields nothing. -/
def update (step : Heap F → Heap F) (w : HeapWorld F ω) : HeapWorld F ω :=
  { w with heap := step w.heap }

/-- Something about the heap that may be an error. -/
def examine (look : Heap F → Except HostError α) : Act (HeapWorld F ω) HostError α :=
  Act.checked fun w => (look w.heap, w)

/-- Runs an action in the scope of a new call. -/
def inScope (act : Act (HeapWorld F ω) HostError α) : Act (HeapWorld F ω) HostError α :=
  Act.ensuring (fun w => act (w.update Heap.openScope)) (update Heap.closeScope)

/-- Calls a function through the heap: function and arguments must be live, the body
runs in a scope of its own, and the result must be live when that scope is closed. -/
def call (run : Runner F ω) (f : ObjRef) (args : StateViews ObjRef) :
    Act (HeapWorld F ω) HostError ObjRef := do
  let function ← examine fun h => h.function f
  for arg in args.toList do
    discard <| examine fun h => h.entry arg
  let result ← inScope (run function.code args)
  discard <| examine fun h => h.entry result
  return result

/-- Points a view at a buffer. -/
def repoint (r : ObjRef) (buffer : Buffer) (w : HeapWorld F ω) :
    Except HostError Unit × HeapWorld F ω :=
  match w.heap.repoint r buffer with
  | .ok heap => (.ok (), { w with heap })
  | .error e => (.error e, w)

/-- Carries out one command. -/
def answer (surroundings : Surroundings I ω) (run : Runner F ω) :
    (command : HeapCommand F I) → Act (HeapWorld F ω) HostError command.Reply
  | .array values => Act.total (onHeap fun h => h.alloc (.array values))
  | .text text => Act.total (onHeap fun h => h.alloc (.text text))
  | .function f => Act.total (onHeap fun h => h.alloc (.function f))
  | .define name value => Act.total (onHeap fun h => h.define name value)
  | .undefine name => Act.total (onHeap fun h => h.undefine name)
  | .lookup name => Act.total fun w => (w.heap.lookup name, w)
  | .read r => Act.total fun w => (w.heap.read w.memory r, w)
  | .inspect r => Act.total fun w => (w.heap.inspect r, w)
  | .collect => Act.total (onHeap Heap.collect)
  | .call f args => Act.caught (call run f args)
  | .direct f args => Act.caught (run f.code args)
  | .pin r => Act.total fun w => ((), w.update fun h => h.pin r)
  | .unpin r => Act.total fun w => ((), w.update fun h => h.unpin r)
  | .materialize buffer => Act.total (onHeap fun h => h.materialize buffer)
  | .repoint r buffer => Act.total (repoint r buffer)
  | .retire r => Act.total fun w => ((), w.update fun h => h.retire r)
  | .outside command =>
    Act.zoom outside (fun outside w => { w with outside }) (Act.widen (surroundings command))

end HeapWorld

namespace Runner

variable {F ω : Type} {I : Interface}

/-- The machine without any level left. -/
def exhausted : Runner F ω := fun _ _ => Act.panic "call depth exceeded"

/-- One more level on top of a machine. -/
def level (code : UserCode F I) (surroundings : Surroundings I ω) (below : Runner F ω) :
    Runner F ω :=
  fun f args => (code f args).execute (HeapWorld.answer surroundings below)

end Runner

end CallbackBridge
