/-
# The seam between the bridge and a managed host

A host is given by what its operations do to its state.  `R` are references that
are valid during one call, `K` are handles that root a value from one call to the
next.  The bridge is written against this interface alone, so whatever is true of
it for every `HostRuntime` is true of every host.
-/
import CallbackBridge.Buffer
import CallbackBridge.Error
import CallbackBridge.Outcome
namespace CallbackBridge

/-- Something for each of the three inputs of a call, in argument order. -/
structure StateViews (α : Type) where
  /-- For the elapsed time. -/
  t : α
  /-- For the state vector. -/
  y : α
  /-- For the derivative vector. -/
  yp : α
  deriving DecidableEq, Repr, Inhabited

/-- The three parts as a list, in argument order. -/
def StateViews.toList {α : Type} (v : StateViews α) : List α := [v.t, v.y, v.yp]

/-- A garbage-collected runtime that the bridge can call into. -/
structure HostRuntime (σ R K : Type) where
  /-- Whether `repoint` is implemented. -/
  supportsReuse : Bool
  /-- Looks up a name in the host's namespace. -/
  resolve : String → σ → Option R × σ
  /-- Whether a value can be called. -/
  isCallable : R → σ → Bool × σ
  /-- The host's name for the type of a value. -/
  typeName : R → σ → String × σ
  /-- Makes a view of a buffer without copying it. -/
  materialize : Buffer → σ → Except HostError R × σ
  /-- Points an existing view at a buffer. -/
  repoint : R → Buffer → σ → Except HostError Unit × σ
  /-- Detaches a view from the buffer it aliased. -/
  retire : R → σ → σ
  /-- Roots a value. -/
  pin : R → σ → σ
  /-- Undoes one `pin`. -/
  unpin : R → σ → σ
  /-- Roots a value beyond the current call. -/
  persist : R → σ → K × σ
  /-- A reference for the current call from a handle. -/
  attach : K → σ → R × σ
  /-- Gives up the root that a handle holds. -/
  release : K → σ → σ
  /-- Calls a function with the three views. -/
  call : R → StateViews R → σ → Outcome HostError R × σ
  /-- Reads a value as contiguous doubles. -/
  read : R → σ → Except HostError (List Binary64) × σ

end CallbackBridge
