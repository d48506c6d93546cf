/-
# The reference-counting host

One invocation sees the counted objects of the process, a dictionary in which names
are looked up, and a ledger of the references that it can account for.  A view is an
array that shows solver memory; when it is retired, references that the ledger does
not account for are warned about, because they outlive the call.
-/
import CallbackBridge.Counted.Ledger
import CallbackBridge.Process.Step
namespace CallbackBridge

/-! ## The world of one invocation -/

/-- What the host works on during one invocation. -/
structure CountedWorld (F G : Type) where
  /-- The process with the counted objects. -/
  process : Process F G
  /-- The solver memory that views alias. -/
  memory : Memory := {}
  /-- The dictionary in which names are looked up. -/
  dict : Option ObjId
  /-- The references that are accounted for. -/
  ledger : RefLedger ObjId := {}
  /-- The references that the guard of the invocation holds, one for each pin. -/
  pinned : List ObjId := []

/-- A machine that runs the code of callables. -/
abbrev CallableRunner (F G : Type) : Type :=
  G → StateViews ObjId → Act (Process F G) ClientException ObjId

/-- What is wrong with an array as a result, if it is not a one-dimensional array of
doubles. -/
def CountedArray.describe (a : CountedArray) : String :=
  match a.shape with
  | [] => "0-d " ++ a.dtype ++ " ndarray"
  | [n] => a.dtype ++ " ndarray of length " ++ toString n
  | dims => toString dims.length ++ "-d " ++ a.dtype ++ " ndarray of shape [" ++
      ", ".intercalate (dims.map toString) ++ "]"

/-- The array that shows the memory behind a buffer. -/
def CountedArray.ofBuffer (buffer : Buffer) (m : Memory) : CountedArray where
  shape := [buffer.shape.nrows]
  base := .foreign
  writeable := false
  memory := buffer.values m

namespace CountedWorld

variable {F G : Type}

/-- The counted objects. -/
def store (w : CountedWorld F G) : Store G := w.process.rest.store

/-- How often an object is held, the reference through which it is looked at
included. -/
def refCount (w : CountedWorld F G) (id : ObjId) : Nat :=
  1 + w.store.references (w.process.held ++ w.pinned) id

/-- Gives a warning. -/
def warn (warning : String) (w : CountedWorld F G) : CountedWorld F G :=
  { w with process := w.process.warn warning }

/-- The warning about a view that outlives its call. -/
def escapeWarning (role : Role) (extra : Nat) : String :=
  "'" ++ role.argument ++ "' array outlived its callback (" ++ toString extra ++
    " extra references); it aliases solver memory that is reused after the call"

/-- Makes a view of a buffer. -/
def materialize (buffer : Buffer) (w : CountedWorld F G) : ObjId × CountedWorld F G :=
  let (view, process) :=
    w.process.onStore fun s => s.make (.array (.ofBuffer buffer w.memory))
  (view, { w with process, ledger := w.ledger.trackView view buffer.role })

/-- Takes a view off the ledger and warns if it is held by someone unknown. -/
def retire (view : ObjId) (w : CountedWorld F G) : CountedWorld F G :=
  match w.ledger.retire view (w.refCount view) with
  | (some (role, extra), ledger) =>
    let w := { w with ledger }
    if extra > 0 then w.warn (escapeWarning role extra) else w
  | (none, ledger) => { w with ledger }

/-- Takes note of a pin. -/
def pin (id : ObjId) (w : CountedWorld F G) : CountedWorld F G :=
  { w with ledger := w.ledger.pin id, pinned := id :: w.pinned }

/-- Takes note of the end of a pin. -/
def unpin (id : ObjId) (w : CountedWorld F G) : CountedWorld F G :=
  match w.ledger.unpin id with
  | (true, ledger) => { w with ledger, pinned := w.pinned.erase id }
  | (false, ledger) =>
    { w with ledger }.warn ("unbalanced unpin of a " ++ w.store.typeName id)

/-- Takes note of a result that was derived from one of the views. -/
def noteDerived (result : ObjId) (w : CountedWorld F G) : CountedWorld F G :=
  match w.store.array? result with
  | some { base := .derived base, .. } =>
    if w.ledger.isView base then { w with ledger := w.ledger.derive base } else w
  | _ => w

/-- Calls a callable.  An exception is printed and becomes a failure of user code. -/
def call (run : CallableRunner F G) (function : ObjId) (views : StateViews ObjId)
    (w : CountedWorld F G) : Outcome HostError ObjId × CountedWorld F G :=
  match w.store.get? function with
  | some (.callable _ _ true code) =>
    match (run code views).start w.process with
    | (.ok result, process) => (.ok result, { w with process }.noteDerived result)
    | (.error (.error e), process) =>
      (.error (.error (.userFailure e.text)), { w with process := process.print e })
    | (.error (.panic message), process) => (.error (.panic message), { w with process })
  | _ => (.error (.error (.notCallable (w.store.typeName function))), w)

/-- Reads a one-dimensional contiguous array of doubles. -/
def read (id : ObjId) (w : CountedWorld F G) : Except HostError (List Binary64) :=
  match w.store.array? id with
  | none => .error (.notF64Array (w.store.typeName id))
  | some a =>
    if a.dtype ≠ "float64" ∨ a.shape.length ≠ 1 then .error (.notF64Array a.describe)
    else if a.isContiguous then .ok a.elements
    else .error (.notF64Array "non-contiguous ndarray")

/-- The reference-counting host, with a machine that runs callables.  A handle is a
reference like any other. -/
def runtime (run : CallableRunner F G) : HostRuntime (CountedWorld F G) ObjId ObjId where
  supportsReuse := false
  resolve name w := (w.dict.bind fun dict => w.store.lookup dict name, w)
  isCallable id w := (w.store.isCallable id, w)
  typeName id w := (w.store.typeName id, w)
  materialize buffer w :=
    let (view, w) := w.materialize buffer
    (.ok view, w)
  repoint _ _ w := (.error (.unsupported "view reuse"), w)
  retire := retire
  pin := pin
  unpin := unpin
  persist id w := (id, w)
  attach id w := (id, w)
  release _ w := w
  call function views w := call run function views w
  read id w := (w.read id, w)

end CountedWorld

end CallbackBridge
