/-
# A host under observation

Wrapping a host notes every operation that the bridge asks of it, in order, and can
make chosen operations fail without being carried out.  What happens inside the
host, for example inside user code, is not noted.
-/
import CallbackBridge.Host
namespace CallbackBridge

/-! ## What is noted -/

/-- An operation of a host as seen from outside. -/
inductive HostEvent (R K : Type) where
  /-- A name was looked up. -/
  | resolve (name : String)
  /-- A value was asked whether it can be called. -/
  | isCallable (value : R)
  /-- The type of a value was asked for. -/
  | typeName (value : R)
  /-- A view was made, or not. -/
  | materialize (shape : ViewShape) (view : Option R)
  /-- A view was pointed at a buffer. -/
  | repoint (view : R) (shape : ViewShape)
  /-- A view was detached. -/
  | retire (view : R)
  /-- A value was rooted. -/
  | pin (value : R)
  /-- A pin was undone. -/
  | unpin (value : R)
  /-- A value was rooted beyond the call. -/
  | persist (value : R)
  /-- A reference was taken from a handle. -/
  | attach (handle : K)
  /-- A handle was given up. -/
  | release (handle : K)
  /-- A function was called. -/
  | call (function : R) (views : StateViews R)
  /-- A value was read. -/
  | read (value : R)
  deriving DecidableEq, Repr

/-- The written form of a shape. -/
def ViewShape.text (shape : ViewShape) : String :=
  shape.role.argument ++ " " ++ toString shape.len ++ "x" ++ toString shape.nrows

/-- The written form of an event. -/
def HostEvent.text {R K : Type} (ref : R → String) (root : K → R) : HostEvent R K → String
  | resolve name => "resolve " ++ name
  | isCallable value => "is_callable " ++ ref value
  | typeName value => "type_name " ++ ref value
  | materialize shape (some view) => "materialize " ++ shape.text ++ " -> " ++ ref view
  | materialize shape none => "materialize " ++ shape.text ++ " fails"
  | repoint view shape => "repoint " ++ ref view ++ " " ++ shape.text
  | retire view => "retire " ++ ref view
  | pin value => "pin " ++ ref value
  | unpin value => "unpin " ++ ref value
  | persist value => "persist " ++ ref value
  | attach handle => "attach " ++ ref (root handle)
  | release handle => "release " ++ ref (root handle)
  | call function views =>
    "call " ++ ref function ++ " " ++ ref views.t ++ " " ++ ref views.y ++ " " ++ ref views.yp
  | read value => "read " ++ ref value

/-! ## Faults -/

/-- The operations that can be made to fail. -/
inductive FallibleOperation where
  /-- Looking a name up: it is not found. -/
  | resolve
  /-- Asking whether a value can be called: it cannot. -/
  | isCallable
  /-- Making a view. -/
  | materialize
  /-- Pointing a view at a buffer. -/
  | repoint
  /-- Calling a function. -/
  | call
  /-- Reading a value. -/
  | read
  deriving DecidableEq, Repr

/-- An operation that is to fail. -/
structure Fault where
  /-- Which operation. -/
  operation : FallibleOperation
  /-- At which of its occurrences, counted from one. -/
  occurrence : Nat
  /-- With which error. -/
  error : HostError
  deriving DecidableEq, Repr

/-- What a host can do about pointing views at new buffers. -/
inductive ReuseSupport where
  /-- It does so. -/
  | full
  /-- It admits that it cannot. -/
  | none
  /-- It claims to, but every attempt fails. -/
  | nominal
  deriving DecidableEq, Repr, Inhabited

/-! ## The wrapper -/

/-- A host's state, with what was noted and what is to fail. -/
structure Recorded (σ R K : Type) where
  /-- The state of the host. -/
  host : σ
  /-- The noted operations, the latest first. -/
  events : List (HostEvent R K) := []
  /-- How often each operation has occurred. -/
  occurrences : List (FallibleOperation × Nat) := []
  /-- The operations that are to fail. -/
  faults : List Fault := []

namespace Recorded

variable {σ R K α : Type}

/-- Notes an event. -/
def note (event : HostEvent R K) (s : Recorded σ R K) : Recorded σ R K :=
  { s with events := event :: s.events }

/-- How often an operation has occurred. -/
def count (s : Recorded σ R K) (operation : FallibleOperation) : Nat :=
  (s.occurrences.lookup operation).getD 0

/-- Counts an occurrence of an operation and tells whether it is to fail. -/
def occur (operation : FallibleOperation) (s : Recorded σ R K) :
    Option HostError × Recorded σ R K :=
  let occurrence := s.count operation + 1
  let fault := s.faults.find? fun fault =>
    fault.operation = operation && fault.occurrence = occurrence
  let others := s.occurrences.filter fun entry => entry.1 ≠ operation
  (fault.map Fault.error, { s with occurrences := (operation, occurrence) :: others })

/-- An operation of the host below. -/
def below (operation : σ → α × σ) (s : Recorded σ R K) : α × Recorded σ R K :=
  let (a, host) := operation s.host
  (a, { s with host })

/-- A change of the host below. -/
def update (change : σ → σ) (s : Recorded σ R K) : Recorded σ R K :=
  { s with host := change s.host }

/-- The noted events, the earliest first, and the state with none. -/
def takeEvents (s : Recorded σ R K) : List (HostEvent R K) × Recorded σ R K :=
  (s.events.reverse, { s with events := [] })

/-- The host below, seen through the wrapper. -/
def runtime (support : ReuseSupport) (host : HostRuntime σ R K) :
    HostRuntime (Recorded σ R K) R K where
  supportsReuse := match support with
    | .full => host.supportsReuse
    | .none => false
    | .nominal => true
  resolve name s :=
    match occur .resolve (s.note (.resolve name)) with
    | (some _, s) => (none, s)
    | (none, s) => s.below (host.resolve name)
  isCallable value s :=
    match occur .isCallable (s.note (.isCallable value)) with
    | (some _, s) => (false, s)
    | (none, s) => s.below (host.isCallable value)
  typeName value s := (s.note (.typeName value)).below (host.typeName value)
  materialize buffer s :=
    match occur .materialize s with
    | (some e, s) => (.error e, s.note (.materialize buffer.shape none))
    | (none, s) =>
      match s.below (host.materialize buffer) with
      | (.ok view, s) => (.ok view, s.note (.materialize buffer.shape (some view)))
      | (.error e, s) => (.error e, s.note (.materialize buffer.shape none))
  repoint view buffer s :=
    match support with
    | .full =>
      match occur .repoint (s.note (.repoint view buffer.shape)) with
      | (some e, s) => (.error e, s)
      | (none, s) => s.below (host.repoint view buffer)
    | _ => (.error (.unsupported "view reuse"), s)
  retire view s := (s.note (.retire view)).update (host.retire view)
  pin value s := (s.note (.pin value)).update (host.pin value)
  unpin value s := (s.note (.unpin value)).update (host.unpin value)
  persist value s := (s.note (.persist value)).below (host.persist value)
  attach handle s := (s.note (.attach handle)).below (host.attach handle)
  release handle s := (s.note (.release handle)).update (host.release handle)
  call function views s :=
    match occur .call (s.note (.call function views)) with
    | (some e, s) => (.error (.error e), s)
    | (none, s) => s.below (host.call function views)
  read value s :=
    match occur .read (s.note (.read value)) with
    | (some e, s) => (.error e, s)
    | (none, s) => s.below (host.read value)

end Recorded

end CallbackBridge
