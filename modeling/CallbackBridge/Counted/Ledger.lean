/-
# Accounting for references to views

When a view is retired, some references to it are known: the one through which it is
being looked at, one for each pin, and one for each result that was derived from it.
Whatever is held beyond that has escaped from the call.
-/
import CallbackBridge.Buffer
namespace CallbackBridge

/-! ## Counts by key -/

/-- A count for each key; keys that do not occur count zero. -/
structure Tally (α : Type) where
  /-- The counted keys, each once. -/
  entries : List (α × Nat) := []
  deriving DecidableEq, Repr, Inhabited

namespace Tally

variable {α : Type} [DecidableEq α]

/-- The count of a key. -/
def count (t : Tally α) (key : α) : Nat := (t.entries.lookup key).getD 0

/-- Forgets a key. -/
def erase (t : Tally α) (key : α) : Tally α :=
  ⟨t.entries.filter fun entry => entry.1 ≠ key⟩

/-- Counts a key once more. -/
def increment (t : Tally α) (key : α) : Tally α :=
  ⟨(key, t.count key + 1) :: (t.erase key).entries⟩

/-- Takes one from the count of a key, if there is one to take. -/
def decrement? (t : Tally α) (key : α) : Option (Tally α) :=
  match t.count key with
  | 0 => none
  | 1 => some (t.erase key)
  | n + 2 => some ⟨(key, n + 1) :: (t.erase key).entries⟩

end Tally

/-! ## The ledger -/

/-- The references to the views of one call that are accounted for, by address. -/
structure RefLedger (α : Type) where
  /-- The pins of each value. -/
  pins : Tally α := {}
  /-- The views and the arguments that they alias. -/
  views : List (α × Role) := []
  /-- The results derived from each view. -/
  derived : Tally α := {}
  deriving DecidableEq, Repr, Inhabited

namespace RefLedger

variable {α : Type} [DecidableEq α]

/-- Takes note of a view. -/
def trackView (l : RefLedger α) (view : α) (role : Role) : RefLedger α :=
  { l with views := (view, role) :: l.views.filter fun entry => entry.1 ≠ view }

/-- Whether a value is a view of this call. -/
def isView (l : RefLedger α) (value : α) : Bool := (l.views.lookup value).isSome

/-- Takes note of a result that was derived from a view. -/
def derive (l : RefLedger α) (view : α) : RefLedger α :=
  { l with derived := l.derived.increment view }

/-- Takes note of a pin. -/
def pin (l : RefLedger α) (value : α) : RefLedger α :=
  { l with pins := l.pins.increment value }

/-- Takes note of the end of a pin; tells whether there was one. -/
def unpin (l : RefLedger α) (value : α) : Bool × RefLedger α :=
  match l.pins.decrement? value with
  | some pins => (true, { l with pins })
  | none => (false, l)

/-- Forgets a view; gives its argument and how many of the `held` references are not
accounted for.  Nothing happens to a value that is not a view. -/
def retire (l : RefLedger α) (view : α) (held : Nat) : Option (Role × Nat) × RefLedger α :=
  match l.views.lookup view with
  | none => (none, l)
  | some role =>
    let accounted := 1 + l.pins.count view + l.derived.count view
    (some (role, held - accounted),
      { l with
        views := l.views.filter fun entry => entry.1 ≠ view
        derived := l.derived.erase view })

end RefLedger

end CallbackBridge
