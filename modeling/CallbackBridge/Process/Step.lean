/-
# Operations on a process

The operations come in three layers: those of the native interface, those of clients,
and the commands that the two kinds of user code issue.  A `Language` says what the
code of user functions means.
-/
import CallbackBridge.Client.Arguments
import CallbackBridge.Process.State
namespace CallbackBridge

/-! ## Native operations -/

/-- The three native entry points. -/
inductive NativeEntry where
  /-- The residual of the DASKR interface. -/
  | daskrResidual
  /-- The residual of the DASSL interface. -/
  | dasslResidual
  /-- The event functions of the DASKR interface. -/
  | daskrEvent
  deriving DecidableEq, Repr, Inhabited

namespace NativeEntry

/-- What an entry point evaluates. -/
def entry : NativeEntry → Entry
  | daskrResidual => .residual
  | dasslResidual => .residual
  | daskrEvent => .event

/-- The arguments that an entry point takes: only event functions are given the lengths
separately, and only residuals have a flag. -/
def restrict (entry : NativeEntry) (args : CallbackArguments) : CallbackArguments :=
  match entry with
  | daskrResidual | dasslResidual => { args with neq := none, nrt := none }
  | daskrEvent => { args with ires := none }

end NativeEntry

/-- A pointer argument that can be null. -/
inductive PointerArgument where
  /-- Elapsed time. -/
  | t
  /-- State vector. -/
  | y
  /-- Derivative vector. -/
  | yp
  /-- Output. -/
  | res
  /-- Integer parameters. -/
  | ipar
  /-- The solver's flag. -/
  | ires
  /-- The number of equations. -/
  | neq
  /-- The number of event functions. -/
  | nrt
  deriving DecidableEq, Repr

/-- A call of an entry point with given pointers. -/
structure RawCall where
  /-- The entry point. -/
  entry : NativeEntry
  /-- Elapsed time. -/
  t : Binary64
  /-- State vector. -/
  y : List Binary64
  /-- Derivative vector. -/
  yp : List Binary64
  /-- Integer parameters. -/
  ipar : List Int
  /-- The length of the output. -/
  outLen : Nat
  /-- The length of the guards around the output. -/
  guardLen : Nat := CanaryBuffer.standardGuard
  /-- The solver's flag before the call. -/
  ires : Int := 0
  /-- The number of equations. -/
  neq : Int
  /-- The number of event functions. -/
  nrt : Int
  /-- The pointers that are null. -/
  null : List PointerArgument
  deriving Repr

namespace RawCall

/-- What a pointer leads to, unless it is null. -/
def pointer {α : Type} (call : RawCall) (argument : PointerArgument) (memory : α) : Option α :=
  if call.null.contains argument then none else some memory

/-- The state vector between guards. -/
def stateBuffer (call : RawCall) : CanaryBuffer := .ofValues call.y

/-- The arguments that the entry point is called with to write into a buffer. -/
def arguments (call : RawCall) (res : CanaryBuffer) : CallbackArguments :=
  call.entry.restrict
    { t := call.pointer .t [call.t]
      y := call.pointer .y call.stateBuffer.memory
      yp := call.pointer .yp call.yp
      res := call.pointer .res (.ofList res.memory)
      ipar := call.pointer .ipar call.ipar
      ires := call.pointer .ires call.ires
      neq := call.pointer .neq call.neq
      nrt := call.pointer .nrt call.nrt }

end RawCall

/-- How the target of an installation comes about. -/
inductive TargetSpec (F : Type) where
  /-- A session with the reference functions, with `m` event functions. -/
  | reference (m : Nat) (config : BridgeConfig) (heap : HeapConfig)
  /-- A session with given functions and texts, added to the reference functions if a
  number of event functions is given for these. -/
  | session (functions : List (NativeFunction F)) (reference : Option Nat)
      (texts : List (String × String)) (config : BridgeConfig) (heap : HeapConfig)
      (perCall : Bool)
  /-- A plan. -/
  | planned (plan : Plan)
  /-- A target that was set aside. -/
  | kept (name : String)

/-- An operation of the native interface, or of the solver that drives it. -/
inductive NativeStep (F : Type) where
  /-- Register a target and set the previous one aside, if a name is given for it. -/
  | install (target : TargetSpec F) (keep : Option String)
  /-- Take the target out and set it aside, if a name is given for it. -/
  | uninstall (keep : Option String)
  /-- Take the target out and drop it. -/
  | remove
  /-- Ask whether a target is registered. -/
  | isInstalled
  /-- Ask for the last status. -/
  | lastStatus
  /-- Ask for the number of calls counted under a label. -/
  | calls (label : String)
  /-- Put a new solver into use. -/
  | solver (spec : SolverSpec)
  /-- Let the solver ask for a residual, into an output of a given length. -/
  | residual (entry : NativeEntry) (outLen : Option Nat)
  /-- Let the solver ask for the event functions, with given lengths. -/
  | roots (lengths : Option (Int × Int))
  /-- Let the solver march. -/
  | march (steps : Nat) (dt : Binary64) (maxRetries : Nat)
  /-- Call an entry point with given pointers. -/
  | raw (call : RawCall)

/-! ## Operations of clients -/

/-- Where an object comes from. -/
inductive ObjectSource (G : Type) where
  /-- It is made. -/
  | new (object : CountedObject G)
  /-- It is the value of a variable. -/
  | named (name : String)

/-- What a client wants evaluated. -/
inductive Request where
  /-- The residual. -/
  | residual
  /-- So many event functions. -/
  | events (count : Nat)
  deriving DecidableEq, Repr, Inhabited

/-- An operation of a client. -/
inductive ClientStep (F G : Type) where
  /-- Make an object and assign it to a variable. -/
  | make (source : ObjectSource G) (name : String)
  /-- Make an empty dictionary and assign it to a variable. -/
  | dict (name : String)
  /-- Bind a name in a dictionary. -/
  | bind (dict key : String) (source : ObjectSource G)
  /-- Unbind a name in a dictionary. -/
  | unbind (dict key : String)
  /-- Let a callable be called, or no longer. -/
  | setCallable (name : String) (enabled : Bool)
  /-- Drop all kept objects. -/
  | dropKept
  /-- Count the kept objects. -/
  | kept
  /-- Make a bridge to given functions. -/
  | new (name : String) (residual : ObjectSource G) (event : Option (ObjectSource G))
      (settings : SettingArguments (ObjectSource G))
  /-- Make a bridge to the functions in a dictionary. -/
  | fromDictionary (name : String) (dict : ObjectSource G)
      (interface perCall : Option (ObjectSource G))
      (settings : SettingArguments (ObjectSource G))
  /-- Describe a bridge. -/
  | describe (bridge : String)
  /-- Register a bridge as the target. -/
  | install (bridge : String)
  /-- Take the target out. -/
  | uninstall
  /-- Evaluate through a bridge; the state vector is every `stride`-th element of a
  longer array. -/
  | evaluate (bridge : String) (request : Request) (t : Binary64) (y yp : List Binary64)
      (stride : Nat)
  /-- Ask for the addresses of the callbacks. -/
  | addresses
  /-- Ask for the constants of the bindings. -/
  | constants
  /-- Ask for the last status. -/
  | lastStatus
  /-- An operation of the native interface. -/
  | native (step : NativeStep F)

/-! ## Commands of user code -/

/-- What native code asks of the process around its heap. -/
inductive ProcessCommand (F : Type) where
  /-- Advance a counter. -/
  | tick (counter : Nat)
  /-- Make a function ready for use, with counters of its own. -/
  | prepare (f : NativeFunction F)
  /-- Save a reference. -/
  | save (slot : String) (r : ObjRef)
  /-- Get a saved reference. -/
  | saved (slot : String)
  /-- Note something. -/
  | note (entry : LogEntry)
  /-- Carry out a native operation. -/
  | native (step : NativeStep F)

/-- The answer to each command. -/
@[reducible] def ProcessCommand.Reply {F : Type} : ProcessCommand F → Type
  | tick _ => Nat
  | prepare _ => NativeFunction F
  | save _ _ => Unit
  | saved _ => Option ObjRef
  | note _ => Unit
  | native _ => NativeReply

/-- The commands of native code to the process. -/
abbrev ProcessCommand.interface (F : Type) : Interface := ⟨ProcessCommand F, Reply⟩

/-- What the code of a callable asks for. -/
inductive CallableCommand (F G : Type) where
  /-- Make an object. -/
  | make (object : CountedObject G)
  /-- The value of a variable of the program around the bridge. -/
  | fetch (name : String)
  /-- The elements of an array. -/
  | values (id : ObjId)
  /-- Derive an array from every `step`-th element. -/
  | slice (id : ObjId) (start len : Nat) (step : Int)
  /-- Derive an array of another shape. -/
  | reshape (id : ObjId) (shape : List Nat)
  /-- Look at an array. -/
  | inspect (id : ObjId)
  /-- Keep an object beyond the call. -/
  | keep (id : ObjId)
  /-- Drop all kept objects. -/
  | dropKept
  /-- Bind a name in a dictionary. -/
  | bind (dict : ObjId) (key : String) (id : ObjId)
  /-- Unbind a name in a dictionary. -/
  | unbind (dict : ObjId) (key : String)
  /-- Note something. -/
  | note (entry : LogEntry)
  /-- Carry out an operation of the client. -/
  | step (step : ClientStep F G)

/-- The answer to each command. -/
@[reducible] def CallableCommand.Reply {F G : Type} : CallableCommand F G → Type
  | make _ => ObjId
  | fetch _ => Option ObjId
  | values _ => Option (List Binary64)
  | slice _ _ _ _ => Option ObjId
  | reshape _ _ => Option ObjId
  | inspect _ => Option ArrayInspection
  | keep _ => Unit
  | dropKept => Unit
  | bind _ _ _ => Unit
  | unbind _ _ => Unit
  | note _ => Unit
  | step _ => ClientAnswer

/-- A program of a callable. -/
abbrev CallableProgram (F G α : Type) : Type :=
  Program (CallableCommand F G) CallableCommand.Reply ClientException α

/-- The program that issues one command. -/
def CallableCommand.ask {F G : Type} (command : CallableCommand F G) :
    CallableProgram F G command.Reply :=
  Program.perform command

/-! ## Languages -/

/-- What the code of user functions means. -/
structure Language (F G : Type) where
  /-- The code of a native function, ready for use, as a program. -/
  native : UserCode F (ProcessCommand.interface F)
  /-- The code of a callable as a program. -/
  callable : G → StateViews ObjId → CallableProgram F G ObjId
  /-- Makes native code ready for use by giving it counters of its own. -/
  prepare : F → Scratch → F × Scratch
  /-- The reference residual: the state less the derivative. -/
  difference : F
  /-- The reference event functions: the first `m` state variables less the time. -/
  leadingRoots : Nat → F

end CallbackBridge
