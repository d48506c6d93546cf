/-
# Limits of memory

Sizes are machine words, and a piece of memory can only be so large.  Code panics when
it computes a size that is no word, when it asks for more memory than there can be, and
when it looks for an element that is not there.
-/
import CallbackBridge.Outcome
namespace CallbackBridge.Limits

/-- The number of machine words of 64 bits. -/
def wordCount : Nat := 18446744073709551616

/-- The number of doubles that are too many for one piece of memory: half of all
addresses, at eight for each. -/
def tooManyDoubles : Nat := 1152921504606846976

variable {ε α : Type}

/-- The product of two sizes. -/
def multiply (a b : Nat) : Outcome ε Nat :=
  if a * b < wordCount then .ok (a * b)
  else .error (.panic "attempt to multiply with overflow")

/-- The sum of two sizes. -/
def add (a b : Nat) : Outcome ε Nat :=
  if a + b < wordCount then .ok (a + b)
  else .error (.panic "attempt to add with overflow")

/-- Asks for memory for a number of doubles. -/
def reserve (len : Nat) : Outcome ε Unit :=
  if len < tooManyDoubles then .ok () else .error (.panic "capacity overflow")

/-- The element at an index. -/
def element (elements : List α) (index : Nat) : Outcome ε α :=
  match elements[index]? with
  | some a => .ok a
  | none => .error (.panic ("index out of bounds: the len is " ++ toString elements.length ++
      " but the index is " ++ toString index))

end CallbackBridge.Limits
