/-
# Double-precision numbers, kept as their bits

The bridge moves numbers and never interprets them, so a number is its 64-bit
pattern: two numbers are equal exactly when they agree bit for bit, also where
they are not-a-number.  Arithmetic is that of the IEEE format; a not-a-number
operand passes through an operation unchanged but for its quiet bit, the left
one first, which is what keeps a marked pattern recognisable.
-/
namespace CallbackBridge

/-- A number in the IEEE double-precision format, given by its bits. -/
structure Binary64 where
  /-- Sign, exponent and fraction, from the highest bit down. -/
  bits : UInt64
  deriving DecidableEq, Repr, Inhabited

namespace Binary64

/-! ## Classes of patterns -/

/-- All exponent bits are set and some fraction bit is. -/
def isNaN (x : Binary64) : Bool :=
  x.bits &&& 0x7fffffffffffffff > 0x7ff0000000000000

/-- The same pattern with the quiet bit set. -/
def quiet (x : Binary64) : Binary64 := ⟨x.bits ||| 0x0008000000000000⟩

/-- Positive zero. -/
def zero : Binary64 := ⟨0⟩

/-- The number one. -/
def one : Binary64 := ⟨0x3ff0000000000000⟩

/-- One half, the factor by which a rejected step shrinks. -/
def half : Binary64 := ⟨0x3fe0000000000000⟩

/-- The pattern that marks memory nobody has written: a quiet not-a-number that
no arithmetic produces on its own. -/
def canary : Binary64 := ⟨0x7ff8deadbeef0001⟩

/-! ## Arithmetic -/

/-- The number as the machine computes with it. -/
def toFloat (x : Binary64) : Float := Float.ofBits x.bits

/-- The pattern of a machine number. -/
def ofFloat (x : Float) : Binary64 := ⟨x.toBits⟩

/-- The nearest number to a count. -/
def ofNat (n : Nat) : Binary64 := ofFloat (Float.ofNat n)

/-- A binary operation with not-a-number operands passed through, the left one
first. -/
def lift (op : Float → Float → Float) (x y : Binary64) : Binary64 :=
  if x.isNaN then x.quiet
  else if y.isNaN then y.quiet
  else ofFloat (op x.toFloat y.toFloat)

instance : Add Binary64 := ⟨lift (· + ·)⟩

instance : Sub Binary64 := ⟨lift (· - ·)⟩

instance : Mul Binary64 := ⟨lift (· * ·)⟩

/-- Strictly greater in the order of numbers; false as soon as one side is not a
number. -/
def exceeds (x y : Binary64) : Bool := y.toFloat < x.toFloat

end Binary64

end CallbackBridge
