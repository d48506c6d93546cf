/-
# Solver memory and the windows onto it

The solver owns the memory behind `t`, `y` and `yp`.  A buffer names a region of
that memory, how many of its leading elements it covers and which argument it was
passed as; it holds no copy, so whoever reads through it sees what the solver has
written last.
-/
import CallbackBridge.Binary64
namespace CallbackBridge

/-! ## Roles -/

/-- The solver argument that a view aliases. -/
inductive Role where
  /-- Elapsed time, a single number. -/
  | time
  /-- The state vector. -/
  | state
  /-- The derivative vector. -/
  | derivative
  deriving DecidableEq, Repr, Inhabited

/-- The name of the argument in the solver's interface. -/
def Role.argument : Role → String
  | .time => "t"
  | .state => "y"
  | .derivative => "yp"

/-- The name of the role itself. -/
def Role.title : Role → String
  | .time => "Time"
  | .state => "State"
  | .derivative => "Derivative"

/-! ## Memory -/

/-- The address of a region of solver memory. -/
structure Region where
  /-- Position in the order in which regions were exposed. -/
  index : Nat
  deriving DecidableEq, Repr, Inhabited

/-- Solver memory as far as it is exposed at present.  Regions are never exposed
twice under one address. -/
structure Memory where
  /-- The address that the next region gets. -/
  next : Nat := 0
  /-- The exposed regions and their contents. -/
  regions : List (Region × List Binary64) := []
  deriving Inhabited

namespace Memory

/-- The contents of a region; nothing if it is not exposed. -/
def read (m : Memory) (region : Region) : List Binary64 :=
  (m.regions.lookup region).getD []

/-- Exposes a new region with the given contents. -/
def expose (m : Memory) (contents : List Binary64) : Region × Memory :=
  (⟨m.next⟩, { next := m.next + 1, regions := (⟨m.next⟩, contents) :: m.regions })

/-- Ends the exposure of a region. -/
def withdraw (m : Memory) (region : Region) : Memory :=
  { m with regions := m.regions.filter fun entry => entry.1 ≠ region }

/-- The solver writes one element of a region. -/
def write (m : Memory) (region : Region) (index : Nat) (value : Binary64) : Memory :=
  { m with
    regions := m.regions.map fun entry =>
      if entry.1 = region then (entry.1, entry.2.set index value) else entry }

end Memory

/-! ## Buffers -/

/-- The shape of a one-dimensional view: a column of doubles. -/
structure ViewShape where
  /-- The argument that the view aliases. -/
  role : Role
  /-- The number of elements. -/
  len : Nat
  /-- The number of rows, equal to the number of elements for a column. -/
  nrows : Nat
  deriving DecidableEq, Repr, Inhabited

/-- A window onto the leading elements of a region of solver memory. -/
structure Buffer where
  /-- The argument as which the solver passed the memory. -/
  role : Role
  /-- The memory behind the window. -/
  region : Region
  /-- The number of elements. -/
  len : Nat
  deriving DecidableEq, Repr, Inhabited

namespace Buffer

/-- Whether the window covers no element. -/
def isEmpty (b : Buffer) : Bool := b.len == 0

/-- The window onto the leading `len` elements, if there are that many. -/
def cut? (b : Buffer) (len : Nat) : Option Buffer :=
  if b.len < len then none else some { b with len }

/-- The shape of a view onto the buffer. -/
def shape (b : Buffer) : ViewShape := ⟨b.role, b.len, b.len⟩

/-- The elements that the window shows at present. -/
def values (b : Buffer) (m : Memory) : List Binary64 := (m.read b.region).take b.len

/-- Exposes values as solver memory and takes a window onto all of them. -/
def ofValues (role : Role) (values : List Binary64) (m : Memory) : Buffer × Memory :=
  let (region, m) := m.expose values
  (⟨role, region, values.length⟩, m)

/-- A description for people, with the address written as `address`. -/
def describe (b : Buffer) (address : String) : String :=
  "RawBuffer \x7b role: " ++ b.role.title ++ ", ptr: " ++ address ++
    ", len: " ++ toString b.len ++ " \x7d"

end Buffer

end CallbackBridge
