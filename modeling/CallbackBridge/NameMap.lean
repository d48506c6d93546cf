/-
# Finite maps keyed by name

Names bind values in the order in which they were first bound.  Rebinding a name
keeps its place; unbinding it closes the gap.
-/
namespace CallbackBridge

/-- A finite map from names to values, in order of first binding. -/
structure NameMap (α : Type) where
  /-- The bindings, each name at most once. -/
  entries : List (String × α) := []
  deriving Inhabited

namespace NameMap

variable {α : Type}

/-- The map that binds nothing. -/
def empty : NameMap α := {}

/-- The value bound to a name. -/
def find? (m : NameMap α) (name : String) : Option α := m.entries.lookup name

/-- Binds a name, in its old place if it had one and at the end otherwise. -/
def insert (m : NameMap α) (name : String) (value : α) : NameMap α :=
  ⟨go m.entries⟩
where
  /-- Walks the bindings up to the one to replace. -/
  go : List (String × α) → List (String × α)
    | [] => [(name, value)]
    | (key, old) :: rest =>
      if key = name then (name, value) :: rest else (key, old) :: go rest

/-- Removes the binding of a name, if there is one. -/
def erase (m : NameMap α) (name : String) : NameMap α :=
  ⟨m.entries.filter fun entry => entry.1 ≠ name⟩

/-- The bound values, in order. -/
def values (m : NameMap α) : List α := m.entries.map Prod.snd

end NameMap

end CallbackBridge
