/-
# Scripts of native functions

A script is a list of statements that work on named registers.  The registers `t`, `y`
and `yp` hold the arguments until something else is put there; a script that ends
without returning something fails.
-/
import CallbackBridge.Process.Step
import CallbackBridge.Script.Slices
namespace CallbackBridge

/-! ## Code -/

mutual

/-- The code of a native function. -/
inductive Code : Type where
  /-- A function of the elements of the arguments. -/
  | slices (expr : SliceExpr)
  /-- A list of statements. -/
  | script (body : List Statement)
  /-- A function that fails from the call on that has the given number before it; the
  calls are counted by a counter that may have a label. -/
  | limited (inner : Code) (after : Nat) (label : Option String) (counter : Nat)

/-- A statement of a script.  A statement that makes a reference can name a register
for it. -/
inductive Statement : Type where
  /-- Allocate an array. -/
  | array (values : List Binary64) (into : Option String)
  /-- Allocate a text. -/
  | text (text : String) (into : Option String)
  /-- Allocate a function. -/
  | function (f : NativeFunction Code) (into : Option String)
  /-- Allocate the value of an expression over the registers of the arguments. -/
  | expr (expr : SliceExpr) (into : Option String)
  /-- Read doubles and note them, or fail. -/
  | read (ref : String)
  /-- Read doubles and note them, or note the error. -/
  | tryRead (ref : String)
  /-- Look at an object and note what is seen. -/
  | inspect (ref : String)
  /-- Bind a name in the namespace and note what it was bound to. -/
  | define (name ref : String)
  /-- Unbind a name in the namespace and note what it was bound to. -/
  | undefine (name : String)
  /-- Look a name up in the namespace, or fail. -/
  | lookup (name : String) (into : Option String)
  /-- Collect and note the number of freed objects. -/
  | collect
  /-- Save a reference beyond the call. -/
  | save (ref slot : String)
  /-- Get a saved reference, or fail. -/
  | load (slot : String) (into : Option String)
  /-- Call a function through the heap, or fail as it does. -/
  | call (f : String) (args : StateViews String) (into : Option String)
  /-- Call a function through the heap, or note its error. -/
  | tryCall (f : String) (args : StateViews String) (into : Option String)
  /-- Run the code of a new function within this call. -/
  | direct (f : NativeFunction Code) (args : StateViews String) (into : Option String)
  /-- Run statements a number of times. -/
  | loop (count : Nat) (body : List Statement)
  /-- Carry out a native operation and note its reply. -/
  | native (step : NativeStep Code)
  /-- Fail as user code. -/
  | fail (message : String)
  /-- Fail with a given error. -/
  | raise (e : HostError)
  /-- Panic. -/
  | panic (message : String)
  /-- Return a reference. -/
  | return_ (ref : String)

end

instance : Inhabited Code := ⟨.script []⟩

namespace Code

/-- The code made ready for use: every limit gets a counter of its own, the innermost
first. -/
def prepare : Code → Scratch → Code × Scratch
  | slices expr, s => (slices expr, s)
  | script body, s => (script body, s)
  | limited inner after label _, s =>
    let (inner, s) := prepare inner s
    let (counter, s) := s.newCounter label
    (limited inner after label counter, s)

end Code

/-! ## Meaning of scripts -/

/-- A program of native code in a process. -/
abbrev ScriptProgram (α : Type) : Type :=
  HeapProgram Code (ProcessCommand.interface Code) α

/-- The registers of a running script. -/
structure Registers where
  /-- The references, by the names of their registers. -/
  names : NameMap ObjRef

/-- Where a script stands after a statement. -/
inductive Flow where
  /-- It goes on. -/
  | next (registers : Registers)
  /-- It has returned something. -/
  | returned (ref : ObjRef)

namespace Registers

/-- The registers at the start of a script. -/
def ofArguments (args : StateViews ObjRef) : Registers where
  names := ((NameMap.empty.insert "t" args.t).insert "y" args.y).insert "yp" args.yp

/-- The reference in a register. -/
def get (registers : Registers) (name : String) : ScriptProgram ObjRef :=
  match registers.names.find? name with
  | some r => pure r
  | none => Program.fail (.userFailure ("no register " ++ name))

/-- The references in three registers. -/
def getAll (registers : Registers) (names : StateViews String) :
    ScriptProgram (StateViews ObjRef) := do
  let t ← registers.get names.t
  let y ← registers.get names.y
  let yp ← registers.get names.yp
  return ⟨t, y, yp⟩

/-- The names of the registers that hold the arguments at the start. -/
def argumentNames : StateViews String := ⟨"t", "y", "yp"⟩

/-- Goes on with a reference put into a register, if one is named. -/
def put (registers : Registers) (into : Option String) (r : ObjRef) : Flow :=
  match into with
  | some name => .next ⟨registers.names.insert name r⟩
  | none => .next registers

end Registers

namespace Statement

/-- Issues a command to the heap. -/
def heap (command : HeapCommand Code (ProcessCommand.interface Code)) :
    ScriptProgram command.Reply :=
  command.ask

/-- Issues a command to the process. -/
def process (command : ProcessCommand Code) : ScriptProgram command.Reply :=
  (HeapCommand.outside command : HeapCommand Code (ProcessCommand.interface Code)).ask

/-- Notes something. -/
def note (entry : LogEntry) : ScriptProgram Unit := process (.note entry)

/-- Goes on with what a call returned, or fails as it did. -/
def orFail {α : Type} : Except HostError α → ScriptProgram α
  | .ok a => pure a
  | .error e => Program.fail e

/-- Repeats a piece of a script until it returns something. -/
def repeatFlow (body : Registers → ScriptProgram Flow) : Nat → Registers → ScriptProgram Flow
  | 0, registers => pure (.next registers)
  | count + 1, registers => do
    match ← body registers with
    | .next registers => repeatFlow body count registers
    | .returned r => pure (.returned r)

mutual

/-- Runs a statement. -/
def run (registers : Registers) : Statement → ScriptProgram Flow
  | array values into => do return registers.put into (← heap (.array values))
  | text contents into => do return registers.put into (← heap (.text contents))
  | function f into => do
    let f ← process (.prepare f)
    return registers.put into (← heap (.function f))
  | expr value into => do
    let args ← registers.getAll Registers.argumentNames
    return registers.put into (← UserCode.ofSlices value.eval args)
  | read ref => do
    let values ← orFail (← heap (.read (← registers.get ref)))
    note (.values values)
    return .next registers
  | tryRead ref => do
    match ← heap (.read (← registers.get ref)) with
    | .ok values => note (.values values)
    | .error e => note (.failure e)
    return .next registers
  | inspect ref => do
    note (.object (← heap (.inspect (← registers.get ref))))
    return .next registers
  | define name ref => do
    note (.previous (← heap (.define name (← registers.get ref))))
    return .next registers
  | undefine name => do
    note (.removed (← heap (.undefine name)))
    return .next registers
  | lookup name into => do
    match ← heap (.lookup name) with
    | some r => return registers.put into r
    | none => Program.fail (.userFailure ("unbound " ++ name))
  | collect => do
    note (.freed (← heap .collect))
    return .next registers
  | save ref slot => do
    process (.save slot (← registers.get ref))
    return .next registers
  | load slot into => do
    match ← process (.saved slot) with
    | some r => return registers.put into r
    | none => Program.fail (.userFailure ("nothing saved in " ++ slot))
  | call f args into => do
    let result ← heap (.call (← registers.get f) (← registers.getAll args))
    return registers.put into (← orFail result)
  | tryCall f args into => do
    match ← heap (.call (← registers.get f) (← registers.getAll args)) with
    | .ok r => return registers.put into r
    | .error e =>
      note (.failure e)
      return .next registers
  | direct f args into => do
    let f ← process (.prepare f)
    let result ← heap (.direct f (← registers.getAll args))
    return registers.put into (← orFail result)
  | loop count body => repeatFlow (runAll · body) count registers
  | native step => do
    note (.native (← process (.native step)))
    return .next registers
  | fail message => Program.fail (.userFailure message)
  | raise e => Program.fail e
  | panic message => Program.panic message
  | return_ ref => do return .returned (← registers.get ref)

/-- Runs statements, up to the first that returns something. -/
def runAll (registers : Registers) : List Statement → ScriptProgram Flow
  | [] => pure (.next registers)
  | statement :: rest => do
    match ← run registers statement with
    | .next registers => runAll registers rest
    | .returned r => pure (.returned r)

end

end Statement

namespace Code

/-- The program that a piece of code stands for. -/
def meaning : Code → StateViews ObjRef → ScriptProgram ObjRef
  | slices expr, args => UserCode.ofSlices expr.eval args
  | script body, args => do
    match ← Statement.runAll (.ofArguments args) body with
    | .returned r => return r
    | .next _ => Program.fail (.userFailure "no return")
  | limited inner after _ counter, args => do
    let made ← Statement.process (.tick counter)
    if made ≥ after then
      Program.fail (.userFailure ("deliberate failure on call " ++ toString (made + 1)))
    else
      inner.meaning args

end Code

end CallbackBridge
