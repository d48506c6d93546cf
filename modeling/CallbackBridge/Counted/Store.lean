/-
# Reference-counted objects

A second kind of host counts references instead of tracing them.  Its objects are
held by variables, by a list of kept objects, by dictionaries and by the arrays that
are derived from them.  An object that nothing holds is gone, so its own references do
not count; `Store.references` says how often an object is held.  Counting cannot tell
that objects only hold each other, so these stay.
-/
import CallbackBridge.Binary64
import CallbackBridge.NameMap
namespace CallbackBridge

/-! ## Objects -/

/-- The identity of a counted object. -/
structure ObjId where
  /-- Position in the order in which objects were made. -/
  index : Nat
  deriving DecidableEq, Repr, Inhabited

/-- What an array says that its memory belongs to. -/
inductive ArrayBase where
  /-- Itself. -/
  | owned
  /-- Something outside the host, stood for by the null object. -/
  | foreign
  /-- Another array. -/
  | derived (source : ObjId)
  deriving DecidableEq, Repr, Inhabited

/-- An array: a way to walk through memory. -/
structure CountedArray where
  /-- The element type. -/
  dtype : String := "float64"
  /-- The length in each dimension. -/
  shape : List Nat
  /-- The place of the first element in memory. -/
  offset : Int := 0
  /-- The distance of neighbours in memory, in elements; negative if they lie in the
  opposite order. -/
  stride : Int := 1
  /-- What the memory belongs to. -/
  base : ArrayBase := .owned
  /-- Whether elements can be assigned. -/
  writeable : Bool := true
  /-- The memory, if it holds doubles. -/
  memory : List Binary64
  deriving DecidableEq, Repr, Inhabited

namespace CountedArray

/-- An array that owns the given doubles. -/
def ofValues (values : List Binary64) : CountedArray :=
  { shape := [values.length], memory := values }

/-- The number of elements. -/
def size (a : CountedArray) : Nat := a.shape.foldl (· * ·) 1

/-- The place of an element in memory. -/
def place (a : CountedArray) (index : Nat) : Int := a.offset + Int.ofNat index * a.stride

/-- The elements, in the order of the walk through memory. -/
def elements (a : CountedArray) : List Binary64 :=
  let memory := a.memory.toArray
  (List.range a.size).map fun index => (memory[(a.place index).toNat]?).getD .zero

/-- Whether the elements lie side by side in memory. -/
def isContiguous (a : CountedArray) : Bool := a.stride == 1 || a.size ≤ 1

end CountedArray

/-- A value that never changes and holds nothing. -/
inductive Scalar where
  /-- A truth value. -/
  | bool (value : Bool)
  /-- An integer. -/
  | int (value : Int)
  /-- A double. -/
  | float (value : Binary64)
  /-- A text. -/
  | text (value : String)
  deriving DecidableEq, Repr, Inhabited

/-- The name of the type of a scalar. -/
def Scalar.typeName : Scalar → String
  | bool _ => "bool"
  | int _ => "int"
  | float _ => "float"
  | text _ => "str"

/-- A counted object; `G` is the code of callables. -/
inductive CountedObject (G : Type) where
  /-- The null object. -/
  | null
  /-- A scalar. -/
  | scalar (value : Scalar)
  /-- An object of which only the type is of interest. -/
  | plain (type : String)
  /-- An array. -/
  | array (a : CountedArray)
  /-- A dictionary with names as keys. -/
  | dict (entries : NameMap ObjId)
  /-- Something that can be called while it is enabled; the label is its qualified
  name, if it has one that is a text. -/
  | callable (type : String) (label : Option String) (enabled : Bool) (code : G)
  deriving Inhabited

namespace CountedObject

variable {G : Type}

/-- The name of the type of an object. -/
def typeName : CountedObject G → String
  | null => "NoneType"
  | scalar value => value.typeName
  | plain type => type
  | array _ => "ndarray"
  | dict _ => "dict"
  | callable type _ _ _ => type

/-- Whether an object can be called. -/
def isCallable : CountedObject G → Bool
  | callable _ _ enabled _ => enabled
  | _ => false

/-- The objects that an object holds, one entry for each reference. -/
def held : CountedObject G → List ObjId
  | array { base := .derived base, .. } => [base]
  | dict entries => entries.values
  | _ => []

end CountedObject

/-! ## The store -/

/-- All objects ever made, with what holds them from outside. -/
structure Store (G : Type) where
  /-- The objects, in the order of their making. -/
  objects : Array (CountedObject G) := #[]
  /-- The variables of the program around the bridge. -/
  assigned : NameMap ObjId := .empty
  /-- The objects that user code keeps beyond a call. -/
  kept : List ObjId := []
  deriving Inhabited

namespace Store

variable {G : Type}

/-- The object with an identity. -/
def get? (s : Store G) (id : ObjId) : Option (CountedObject G) := s.objects[id.index]?

/-- The array with an identity. -/
def array? (s : Store G) (id : ObjId) : Option CountedArray :=
  match s.get? id with
  | some (.array a) => some a
  | _ => none

/-- Makes an object. -/
def make (s : Store G) (object : CountedObject G) : ObjId × Store G :=
  (⟨s.objects.size⟩, { s with objects := s.objects.push object })

/-- Replaces an object. -/
def set (s : Store G) (id : ObjId) (object : CountedObject G) : Store G :=
  { s with objects := s.objects.setIfInBounds id.index object }

/-- The name of the type of an object. -/
def typeName (s : Store G) (id : ObjId) : String :=
  ((s.get? id).map CountedObject.typeName).getD "<unknown type>"

/-- Whether an object can be called. -/
def isCallable (s : Store G) (id : ObjId) : Bool :=
  ((s.get? id).map CountedObject.isCallable).getD false

/-- Assigns a variable. -/
def assign (s : Store G) (name : String) (id : ObjId) : Store G :=
  { s with assigned := s.assigned.insert name id }

/-- Changes the entries of a dictionary; nothing happens to other objects. -/
def updateDict (s : Store G) (id : ObjId) (change : NameMap ObjId → NameMap ObjId) : Store G :=
  match s.get? id with
  | some (.dict entries) => s.set id (.dict (change entries))
  | _ => s

/-- Looks a name up in a dictionary. -/
def lookup (s : Store G) (id : ObjId) (name : String) : Option ObjId :=
  match s.get? id with
  | some (.dict entries) => entries.find? name
  | _ => none

/-- Lets a callable be called, or no longer. -/
def setEnabled (s : Store G) (id : ObjId) (enabled : Bool) : Store G :=
  match s.get? id with
  | some (.callable type label _ code) => s.set id (.callable type label enabled code)
  | _ => s

/-! ## Deriving arrays -/

/-- What an array derived from the given one belongs to: that array, or what it is
itself derived from. -/
def baseFor (id : ObjId) (a : CountedArray) : ArrayBase :=
  match a.base with
  | .derived base => .derived base
  | _ => .derived id

/-- Every `step`-th element of an array from `start` on, `len` of them; a negative step
goes towards the start of the array. -/
def slice (s : Store G) (id : ObjId) (start len : Nat) (step : Int) :
    Option (ObjId × Store G) :=
  (s.array? id).map fun a =>
    s.make (.array { a with
      shape := [len]
      offset := a.place start
      stride := a.stride * step
      base := baseFor id a })

/-- The same walk through memory in another shape, which also says where it ends. -/
def reshape (s : Store G) (id : ObjId) (shape : List Nat) : Option (ObjId × Store G) :=
  (s.array? id).map fun a => s.make (.array { a with shape, base := baseFor id a })

/-! ## Counting references -/

/-- The objects that an object holds, one entry for each reference. -/
def heldBy (s : Store G) (id : ObjId) : List ObjId :=
  match s.get? id with
  | some object => object.held
  | none => []

/-- Adds to `found` what is held by the objects of the frontier, and so on for a number
of rounds. -/
def close (s : Store G) : (rounds : Nat) → (found frontier : List ObjId) → List ObjId
  | 0, found, _ => found
  | rounds + 1, found, frontier =>
    let fresh := ((frontier.flatMap s.heldBy).filter fun id => !found.contains id).eraseDups
    if fresh.isEmpty then found else close s rounds (found ++ fresh) fresh

/-- The objects that are held, directly or through others, by the given ones. -/
def reachable (s : Store G) (roots : List ObjId) : List ObjId :=
  let roots := roots.eraseDups
  close s s.objects.size roots roots

/-- Whether an object holds itself, directly or through others. -/
def isCircular (s : Store G) (id : ObjId) : Bool := (s.reachable (s.heldBy id)).contains id

/-- The objects that hold themselves.  They are never gone, whoever else holds them. -/
def circular (s : Store G) : List ObjId :=
  ((List.range s.objects.size).map ObjId.mk).filter s.isCircular

/-- How often an object is held: by the variables, by the kept list, by the holders
named in `others`, and by objects that are held themselves. -/
def references (s : Store G) (others : List ObjId) (id : ObjId) : Nat :=
  let roots := s.assigned.values ++ s.kept ++ others
  (roots ++ (s.reachable (roots ++ s.circular)).flatMap s.heldBy).count id

end Store

end CallbackBridge
