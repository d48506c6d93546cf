/-
# Scripts of callables

A callable's body is a list of statements that work on named registers.  The registers
`t`, `y` and `yp` hold the arguments until something else is put there.  Registers are
apart from the variables of the program around the bridge: a dictionary to be changed is
the value of a variable, and so is an object to be taken over into a register.  A body
that ends without returning something returns the null object.
-/
import CallbackBridge.Script.Native
namespace CallbackBridge

/-! ## Code -/

mutual

/-- The code of a callable. -/
inductive CallableCode : Type where
  /-- A list of statements. -/
  | body (statements : List CallableStatement)

/-- A statement of a callable's body.  A statement that makes an object can name a
register for it. -/
inductive CallableStatement : Type where
  /-- Make an object, or take the value of a variable. -/
  | make (source : ObjectSource CallableCode) (into : Option String)
  /-- Make an array with the value of an expression over the registers of the
  arguments. -/
  | expr (value : SliceExpr) (into : Option String)
  /-- Make an array that owns the elements of another. -/
  | copy (source : String) (into : Option String)
  /-- Derive an array from every `step`-th element. -/
  | slice (source : String) (start len : Nat) (step : Int) (into : Option String)
  /-- Derive an array of another shape. -/
  | reshape (source : String) (shape : List Nat) (into : Option String)
  /-- Note the elements of an array. -/
  | read (ref : String)
  /-- Look at an array and note what is seen. -/
  | inspect (ref : String)
  /-- Keep an object beyond the call. -/
  | keep (ref : String)
  /-- Drop all kept objects. -/
  | dropKept
  /-- Bind a name in a dictionary. -/
  | bind (dict key ref : String)
  /-- Unbind a name in a dictionary. -/
  | unbind (dict key : String)
  /-- Carry out an operation of the client and note the answer. -/
  | step (operation : ClientStep Code CallableCode)
  /-- Raise an exception. -/
  | raise (e : ClientException)
  /-- Raise an exception once the time exceeds a limit. -/
  | raiseAfter (limit : Binary64) (e : ClientException)
  /-- Return an object. -/
  | return_ (ref : String)

end

instance : Inhabited CallableCode := ⟨.body []⟩

/-! ## Meaning of bodies -/

/-- A program of a callable in a process. -/
abbrev BodyProgram (α : Type) : Type := CallableProgram Code CallableCode α

/-- The registers of a running body. -/
structure Locals where
  /-- The objects, by the names of their registers. -/
  names : NameMap ObjId

/-- Where a body stands after a statement. -/
inductive BodyFlow where
  /-- It goes on. -/
  | next (locals : Locals)
  /-- It has returned something. -/
  | returned (id : ObjId)

/-- Issues a command. -/
def CallableCode.command (command : CallableCommand Code CallableCode) :
    BodyProgram command.Reply :=
  command.ask

open CallableCode (command)

namespace Locals

/-- The registers at the start of a body. -/
def ofArguments (args : StateViews ObjId) : Locals where
  names := ((NameMap.empty.insert "t" args.t).insert "y" args.y).insert "yp" args.yp

/-- An object that must be there. -/
def required (name : String) : Option ObjId → BodyProgram ObjId
  | some id => pure id
  | none => Program.fail ⟨"NameError", "name '" ++ name ++ "' is not defined"⟩

/-- The object in a register. -/
def get (locals : Locals) (name : String) : BodyProgram ObjId :=
  required name (locals.names.find? name)

/-- The value of a variable. -/
def fetch (name : String) : BodyProgram ObjId := do
  required name (← command (.fetch name))

/-- Goes on with an object put into a register, if one is named. -/
def put (locals : Locals) (into : Option String) (id : ObjId) : BodyFlow :=
  match into with
  | some name => .next ⟨locals.names.insert name id⟩
  | none => .next locals

end Locals

namespace CallableStatement

/-- The elements of an array, or an exception for any other object. -/
def elements (id : ObjId) : BodyProgram (List Binary64) := do
  match ← command (.values id) with
  | some values => return values
  | none => Program.fail notArray
where
  /-- The exception for an object that is not an array. -/
  notArray : ClientException := ⟨"TypeError", "not an array"⟩

/-- Makes an array that owns the given elements. -/
def newArray (values : List Binary64) : BodyProgram ObjId :=
  command (.make (.array (.ofValues values)))

/-- What a derivation made, or an exception if there was no array to derive from. -/
def derived (id : Option ObjId) : BodyProgram ObjId :=
  match id with
  | some id => pure id
  | none => Program.fail elements.notArray

/-- Goes on with the value of an expression, raises its failure or panics with it. -/
def valueOf {α : Type} : Outcome String α → BodyProgram α
  | .ok a => pure a
  | .error (.error message) => Program.fail ⟨"RuntimeError", message⟩
  | .error (.panic message) => Program.panic message

/-- Runs a statement. -/
def run (locals : Locals) : CallableStatement → BodyProgram BodyFlow
  | make (.new object) into => do return locals.put into (← command (.make object))
  | make (.named name) into => do return locals.put into (← Locals.fetch name)
  | expr value into => do
    let t ← elements (← locals.get "t")
    let y ← elements (← locals.get "y")
    let yp ← elements (← locals.get "yp")
    return locals.put into (← newArray (← valueOf (value.eval t y yp)))
  | copy source into => do
    return locals.put into (← newArray (← elements (← locals.get source)))
  | slice source start len stride into => do
    let made ← command (.slice (← locals.get source) start len stride)
    return locals.put into (← derived made)
  | reshape source shape into => do
    let made ← command (.reshape (← locals.get source) shape)
    return locals.put into (← derived made)
  | read ref => do
    command (.note (.values (← elements (← locals.get ref))))
    return .next locals
  | inspect ref => do
    match ← command (.inspect (← locals.get ref)) with
    | some inspection => command (.note (.array inspection))
    | none => Program.fail elements.notArray
    return .next locals
  | keep ref => do
    command (.keep (← locals.get ref))
    return .next locals
  | dropKept => do
    command .dropKept
    return .next locals
  | bind dict key ref => do
    command (.bind (← Locals.fetch dict) key (← locals.get ref))
    return .next locals
  | unbind dict key => do
    command (.unbind (← Locals.fetch dict) key)
    return .next locals
  | step operation => do
    command (.note (.client (← command (.step operation))))
    return .next locals
  | raise e => Program.fail e
  | raiseAfter limit e => do
    let time ← valueOf (SliceExpr.elapsed (← elements (← locals.get "t")))
    if time.exceeds limit then Program.fail e else return .next locals
  | return_ ref => do return .returned (← locals.get ref)

/-- Runs statements, up to the first that returns something. -/
def runAll (locals : Locals) : List CallableStatement → BodyProgram BodyFlow
  | [] => pure (.next locals)
  | statement :: rest => do
    match ← statement.run locals with
    | .next locals => runAll locals rest
    | .returned id => pure (.returned id)

end CallableStatement

/-- The program that the code of a callable stands for. -/
def CallableCode.meaning : CallableCode → StateViews ObjId → BodyProgram ObjId
  | .body statements, args => do
    match ← CallableStatement.runAll (.ofArguments args) statements with
    | .returned id => return id
    | .next _ => command (.make .null)

/-- The language of scripts, for both kinds of user code. -/
def scripts : Language Code CallableCode where
  native := Code.meaning
  callable := CallableCode.meaning
  prepare := Code.prepare
  difference := .slices .sub
  leadingRoots m := .slices (.roots m)

end CallbackBridge
