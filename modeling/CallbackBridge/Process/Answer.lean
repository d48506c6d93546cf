/-
# Answers

What the operations on a process answer, and what user code notes while it runs.
-/
import CallbackBridge.Client.Exception
import CallbackBridge.Counted.Store
import CallbackBridge.Heap.Program
import CallbackBridge.Native.Solver
namespace CallbackBridge

/-! ## Native operations -/

/-- The answer to a native operation. -/
inductive NativeAnswer where
  /-- An installation or removal was carried out; whether there was a target
  before. -/
  | replaced (previous : Bool)
  /-- The registry refused. -/
  | refused (status : Status)
  /-- A target could not be built. -/
  | rejected (e : BridgeError)
  /-- A removal that hands no target back. -/
  | removal (status : Status)
  /-- Whether a target is registered. -/
  | installed (installed : Bool)
  /-- The last status. -/
  | lastStatus (status : Status)
  /-- The number of calls counted under a name. -/
  | calls (count : Option Nat)
  /-- The solver as it was set up. -/
  | solver (solver : Solver)
  /-- A residual callback. -/
  | residual (ires : Int) (res : CanaryBuffer)
  /-- An event callback. -/
  | roots (res : CanaryBuffer)
  /-- A march and the solver after it. -/
  | marched (report : Solver.MarchReport) (solver : Solver)
  /-- A callback with given pointers: flag, output and state buffer afterwards. -/
  | raw (ires : Int) (res y : CanaryBuffer)
  /-- Something is named that does not exist. -/
  | unknown (what : String)
  deriving Repr, Inhabited

/-- A native answer with the last status after the operation. -/
structure NativeReply where
  /-- The answer. -/
  answer : NativeAnswer
  /-- The last status. -/
  status : Status
  deriving Repr, Inhabited

/-! ## Operations of the client -/

/-- What a client can see of an array. -/
structure ArrayInspection where
  /-- The element type. -/
  dtype : String
  /-- The length in each dimension. -/
  shape : List Nat
  /-- Whether the elements lie side by side. -/
  contiguous : Bool
  /-- Whether elements can be assigned. -/
  writeable : Bool
  /-- The type of what the memory belongs to, if not to the array. -/
  base : Option String
  deriving DecidableEq, Repr, Inhabited

/-- The value of an operation of the client. -/
inductive ClientValue where
  /-- Nothing. -/
  | null
  /-- A truth value. -/
  | bool (value : Bool)
  /-- A number. -/
  | int (value : Int)
  /-- A text. -/
  | text (value : String)
  /-- An array. -/
  | array (a : CountedArray)
  deriving Repr, Inhabited

/-- The answer to an operation of the client. -/
inductive ClientAnswer where
  /-- Carried out. -/
  | done
  /-- The type of an object that was made. -/
  | made (type : String)
  /-- The number of kept objects. -/
  | kept (count : Nat)
  /-- A value. -/
  | value (v : ClientValue)
  /-- An exception. -/
  | raised (e : ClientException)
  /-- There is no bridge of that name. -/
  | noBridge
  /-- The addresses of the callbacks. -/
  | addresses
  /-- The constants of the bindings. -/
  | constants
  /-- The reply of a native operation. -/
  | native (reply : NativeReply)
  /-- Something is named that does not exist. -/
  | unknown (what : String)
  deriving Repr, Inhabited

/-! ## Notes of user code -/

/-- What user code notes while it runs. -/
inductive LogEntry where
  /-- Doubles that it has read. -/
  | values (values : List Binary64)
  /-- An error that it has met. -/
  | failure (e : HostError)
  /-- An object of the heap that it has looked at. -/
  | object (inspection : Inspection)
  /-- What a name was bound to before it was bound anew. -/
  | previous (ref : Option ObjRef)
  /-- What a name was bound to before it was unbound. -/
  | removed (ref : Option ObjRef)
  /-- The number of objects that a collection freed. -/
  | freed (count : Nat)
  /-- The reply of a native operation. -/
  | native (reply : NativeReply)
  /-- The answer to an operation of the client. -/
  | client (answer : ClientAnswer)
  /-- An array that it has looked at. -/
  | array (inspection : ArrayInspection)
  deriving Repr, Inhabited

end CallbackBridge
