/-
# Heap objects

The heap holds four kinds of objects: arrays of doubles that it owns, views that
alias solver memory, functions and texts.  A view that is retired aliases nothing
and has length zero.
-/
import CallbackBridge.Buffer
import CallbackBridge.Error
import CallbackBridge.Text.Quoted
namespace CallbackBridge

/-- A user function: its name and its code, whatever code is. -/
structure NativeFunction (F : Type) where
  /-- The name under which it is defined. -/
  name : String
  /-- What it does. -/
  code : F
  deriving Repr, Inhabited

/-- A description of a function for people; its code is not shown. -/
def NativeFunction.describe {F : Type} (f : NativeFunction F) : String :=
  "NativeFunction \x7b name: " ++ Quoted.encode f.name ++ ", .. \x7d"

/-- An array that aliases solver memory. -/
structure ArrayView where
  /-- The memory behind the view; none for a retired view. -/
  region : Option Region
  /-- The shape that the view shows. -/
  shape : ViewShape
  deriving DecidableEq, Repr, Inhabited

namespace ArrayView

/-- A view of a buffer. -/
def ofBuffer (buffer : Buffer) : ArrayView := ⟨some buffer.region, buffer.shape⟩

/-- The view detached from its memory. -/
def retire (view : ArrayView) : ArrayView :=
  ⟨none, { view.shape with len := 0, nrows := 0 }⟩

/-- What the view shows at present. -/
def read (view : ArrayView) (m : Memory) : Except HostError (List Binary64) :=
  match view.region with
  | none => .error .retiredView
  | some region => .ok ((m.read region).take view.shape.len)

end ArrayView

/-- An object of the heap. -/
inductive Object (F : Type) where
  /-- Doubles that the heap owns. -/
  | array (values : List Binary64)
  /-- Doubles that the solver owns. -/
  | view (view : ArrayView)
  /-- A user function. -/
  | function (f : NativeFunction F)
  /-- A text. -/
  | text (text : String)
  deriving Repr, Inhabited

/-- The name of the kind of an object. -/
def Object.kind {F : Type} : Object F → String
  | .array _ => "array"
  | .view _ => "view"
  | .function _ => "function"
  | .text _ => "text"

/-- An object together with the number of its pins. -/
structure HeapEntry (F : Type) where
  /-- The object. -/
  object : Object F
  /-- How often it is pinned at present. -/
  pins : Nat
  deriving Repr, Inhabited

end CallbackBridge
