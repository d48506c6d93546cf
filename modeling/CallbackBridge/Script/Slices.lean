/-
# Functions of three slices

Small expressions for the value of a user function in terms of the elements of `t`,
`y` and `yp`.
-/
import CallbackBridge.Buffer
import CallbackBridge.Limits
namespace CallbackBridge

/-- An expression over the elements of the three arguments. -/
inductive SliceExpr where
  /-- The state less the derivative, up to the shorter of the two. -/
  | sub
  /-- The first `count` elements of the state, each less the time. -/
  | roots (count : Nat)
  /-- Fixed values. -/
  | const (values : List Binary64)
  /-- The three lengths. -/
  | lens
  /-- One of the arguments. -/
  | echo (source : Role)
  /-- All three arguments, one after the other. -/
  | concat
  /-- One of the arguments, from the end to the start. -/
  | rev (source : Role)
  /-- The leading elements of one of the arguments. -/
  | take (source : Role) (count : Nat)
  /-- Each element of one of the arguments times a factor. -/
  | scale (source : Role) (factor : Binary64)
  /-- One value a number of times. -/
  | fill (value : Binary64) (count : Nat)
  /-- A failure. -/
  | fail (message : String)
  /-- A failure once the time exceeds a limit, and another expression until then. -/
  | failAfter (limit : Binary64) (message : String) (otherwise : SliceExpr)
  /-- A panic. -/
  | panic (message : String)
  deriving Repr, Inhabited

namespace SliceExpr

/-- The argument in a role. -/
def argument (t y yp : List Binary64) : Role → List Binary64
  | .time => t
  | .state => y
  | .derivative => yp

/-- The elapsed time. -/
def elapsed (t : List Binary64) : Outcome String Binary64 := Limits.element t 0

/-- The value of an expression, given `t`, `y` and `yp`. -/
def eval : SliceExpr → List Binary64 → List Binary64 → List Binary64 →
    Outcome String (List Binary64)
  | sub, _, y, yp => .ok (List.zipWith (· - ·) y yp)
  | roots count, t, y, _ =>
    match y.take count with
    | [] => .ok []
    | leading => do
      let time ← elapsed t
      return leading.map (· - time)
  | const values, _, _, _ => .ok values
  | lens, t, y, yp => .ok [.ofNat t.length, .ofNat y.length, .ofNat yp.length]
  | echo source, t, y, yp => .ok (argument t y yp source)
  | concat, t, y, yp => .ok (t ++ y ++ yp)
  | rev source, t, y, yp => .ok (argument t y yp source).reverse
  | take source count, t, y, yp => .ok ((argument t y yp source).take count)
  | scale source factor, t, y, yp => .ok ((argument t y yp source).map (· * factor))
  | fill value count, _, _, _ => do
    Limits.reserve count
    return List.replicate count value
  | fail message, _, _, _ => .error (.error message)
  | failAfter limit message otherwise, t, y, yp => do
    if (← elapsed t).exceeds limit then .error (.error message) else otherwise.eval t y yp
  | panic message, _, _, _ => .error (.panic message)

end SliceExpr

end CallbackBridge
