/-
# Arguments of clients

A client hands counted objects over as arguments.  Reading an argument yields the value
that its object stands for, or else an exception that names the argument.  Arguments are
read in the order of the parameters and before anything is done with them.
-/
import CallbackBridge.Client.Exception
import CallbackBridge.Counted.Store
import CallbackBridge.Limits
namespace CallbackBridge

variable {G α β : Type}

/-! ## Settings -/

/-- The settings of a bridge that a client makes. -/
structure ClientSettings where
  /-- What a failing user function asks of the solver. -/
  onUserError : String
  /-- The state length that every call must have. -/
  stateLen : Option Nat
  /-- The event count that every event call must have. -/
  eventCount : Option Nat
  deriving DecidableEq, Repr, Inhabited

/-- The settings as a client gives them, each as an `α` unless it is left out. -/
structure SettingArguments (α : Type) where
  /-- What a failing user function asks of the solver. -/
  onUserError : Option α
  /-- The state length that every call must have. -/
  stateLen : Option α
  /-- The event count that every event call must have. -/
  eventCount : Option α
  deriving DecidableEq, Repr, Inhabited

/-- Replaces what is given, in the order of the parameters. -/
def SettingArguments.mapM {m : Type → Type} [Monad m] (f : α → m β)
    (given : SettingArguments α) : m (SettingArguments β) := do
  return ⟨← given.onUserError.mapM f, ← given.stateLen.mapM f, ← given.eventCount.mapM f⟩

/-! ## Reading objects -/

namespace CountedObject

/-- The text that an object is. -/
def text? : CountedObject G → Option String
  | scalar (.text value) => some value
  | _ => none

/-- The truth value that an object is. -/
def truth? : CountedObject G → Option Bool
  | scalar (.bool value) => some value
  | _ => none

/-- The integer that an object counts as: true is one and false is zero. -/
def integer? : CountedObject G → Option Int
  | scalar (.int value) => some value
  | scalar (.bool value) => some (if value then 1 else 0)
  | _ => none

/-- Whether an object is a dictionary. -/
def isDict : CountedObject G → Bool
  | dict _ => true
  | _ => false

end CountedObject

/-- The exception for an argument of the wrong type. -/
def ClientException.wrongType (parameter complaint : String) : ClientException :=
  ⟨"TypeError", "argument '" ++ parameter ++ "': " ++ complaint⟩

namespace Store

/-- Reads an argument that must be of a type. -/
def readAs (s : Store G) (type : String) (read? : CountedObject G → Option α)
    (parameter : String) (id : ObjId) : Except ClientException α :=
  match (s.get? id).bind read? with
  | some value => .ok value
  | none => .error (.wrongType parameter
      ("'" ++ s.typeName id ++ "' object is not an instance of '" ++ type ++ "'"))

/-- Reads an argument that must be a text. -/
def readText (s : Store G) : String → ObjId → Except ClientException String :=
  s.readAs "str" CountedObject.text?

/-- Reads an argument that must be a truth value. -/
def readTruth (s : Store G) : String → ObjId → Except ClientException Bool :=
  s.readAs "bool" CountedObject.truth?

/-- Reads an argument that must be a dictionary. -/
def readDict (s : Store G) (parameter : String) (id : ObjId) : Except ClientException ObjId :=
  s.readAs "dict" (fun object => if object.isDict then some id else none) parameter id

/-- Reads an argument that must be a size, which is a machine word. -/
def readSize (s : Store G) (parameter : String) (id : ObjId) : Except ClientException Nat :=
  match (s.get? id).bind CountedObject.integer? with
  | some (.ofNat size) =>
    if size < Limits.wordCount then .ok size
    else .error ⟨"OverflowError", "int too big to convert"⟩
  | some (.negSucc _) => .error ⟨"OverflowError", "can't convert negative int to unsigned"⟩
  | none => .error (.wrongType parameter
      ("'" ++ s.typeName id ++ "' object cannot be interpreted as an integer"))

/-- An argument for which the null object may stand as if it was left out. -/
def unlessNull (s : Store G) (given : Option ObjId) : Option ObjId :=
  given.filter fun id => !(s.get? id matches some .null)

/-- Reads the settings of a bridge.  By default a failing user function ends the solve
and no lengths are expected. -/
def readSettings (s : Store G) (given : SettingArguments ObjId) :
    Except ClientException ClientSettings := do
  return {
    onUserError := (← given.onUserError.mapM (s.readText "on_user_error")).getD "abort"
    stateLen := ← (s.unlessNull given.stateLen).mapM (s.readSize "state_len")
    eventCount := ← (s.unlessNull given.eventCount).mapM (s.readSize "event_count") }

end Store

end CallbackBridge
