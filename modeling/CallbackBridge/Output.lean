/-
# The solver's output

An output is memory that the solver sets aside for a result and that nobody reads before
it is written.  A fresh one holds zeros only; these are counted and not listed, so that
room for a great many values costs nothing until some are written.
-/
import CallbackBridge.Binary64
namespace CallbackBridge

/-- The contents of an output. -/
structure Output where
  /-- The leading elements, one by one. -/
  leading : List Binary64
  /-- The number of zeros that follow. -/
  zeros : Nat := 0
  deriving DecidableEq, Repr, Inhabited

namespace Output

/-- An output that holds the given elements. -/
def ofList (values : List Binary64) : Output := { leading := values }

/-- An output of a given length that nobody has written. -/
def fresh (len : Nat) : Output := { leading := [], zeros := len }

/-- All elements, one by one. -/
def toList (o : Output) : List Binary64 := o.leading ++ List.replicate o.zeros .zero

/-- The number of elements. -/
def length (o : Output) : Nat := o.leading.length + o.zeros

/-- The leading `len` elements. -/
def take (o : Output) (len : Nat) : Output :=
  ⟨o.leading.take len, min (len - o.leading.length) o.zeros⟩

/-- What follows the leading `len` elements. -/
def drop (o : Output) (len : Nat) : Output :=
  ⟨o.leading.drop len, o.zeros - (len - o.leading.length)⟩

/-- One output after another. -/
def append (o rest : Output) : Output :=
  if rest.leading.isEmpty then ⟨o.leading, o.zeros + rest.zeros⟩
  else ⟨o.toList ++ rest.leading, rest.zeros⟩

/-- The output with values written over its leading elements. -/
def overwrite (o : Output) (values : List Binary64) : Output :=
  (ofList values).append (o.drop values.length)

/-- The output with one value written over every element. -/
def fill (o : Output) (value : Binary64) : Output := ofList (List.replicate o.length value)

/-! ## All elements of what the operations give -/

theorem toList_ofList (values : List Binary64) : (ofList values).toList = values := by
  simp [ofList, toList]

theorem length_toList (o : Output) : o.toList.length = o.length := by
  simp [toList, length]

theorem toList_take (o : Output) (len : Nat) : (o.take len).toList = o.toList.take len := by
  simp [take, toList, List.take_append, List.take_replicate]

theorem toList_drop (o : Output) (len : Nat) : (o.drop len).toList = o.toList.drop len := by
  simp [drop, toList, List.drop_append, List.drop_replicate]

theorem toList_append (o rest : Output) :
    (o.append rest).toList = o.toList ++ rest.toList := by
  unfold append
  split
  · next h => simp [toList, List.isEmpty_iff.mp h]
  · simp [toList]

theorem toList_overwrite (o : Output) (values : List Binary64) :
    (o.overwrite values).toList = values ++ o.toList.drop values.length := by
  simp [overwrite, toList_append, toList_ofList, toList_drop]

end Output

end CallbackBridge
