/-
# The managed heap

The heap collects on its own before every so-many-th allocation.  A collection keeps
exactly the objects that are pinned, bound to a name in the namespace, or allocated
in a call that has not ended yet.  Objects do not refer to each other, so there is
nothing to trace.
-/
import CallbackBridge.Heap.Object
import CallbackBridge.Heap.Table
import CallbackBridge.NameMap
namespace CallbackBridge

/-! ## Settings and counters -/

/-- How often the heap collects on its own. -/
structure HeapConfig where
  /-- A collection comes before every allocation whose number is a multiple of this;
  none does if it is zero. -/
  collectEvery : Nat
  deriving DecidableEq, Repr

namespace HeapConfig

/-- The usual setting. -/
def standard : HeapConfig := ⟨1024⟩

/-- A collection before every allocation. -/
def stress : HeapConfig := ⟨1⟩

/-- Only the collections that are asked for. -/
def manual : HeapConfig := ⟨0⟩

instance : Inhabited HeapConfig := ⟨standard⟩

end HeapConfig

/-- What the heap has done so far. -/
structure HeapStats where
  /-- Objects allocated. -/
  allocations : Nat := 0
  /-- Collections run. -/
  collections : Nat := 0
  /-- Objects freed. -/
  freed : Nat := 0
  /-- Retirements of views. -/
  retiredViews : Nat := 0
  deriving DecidableEq, Repr, Inhabited

/-! ## The heap -/

/-- A garbage-collected heap with a namespace. -/
structure Heap (F : Type) where
  /-- The objects. -/
  table : Table (HeapEntry F) := {}
  /-- The namespace. -/
  globals : NameMap ObjRef := .empty
  /-- For each call in progress, the innermost first, the objects allocated while it
  was the innermost one, the latest first. -/
  scopes : List (List ObjRef) := []
  /-- The settings. -/
  config : HeapConfig := .standard
  /-- The counters. -/
  stats : HeapStats := {}
  deriving Inhabited

namespace Heap

variable {F : Type}

/-- An empty heap. -/
def ofConfig (config : HeapConfig) : Heap F := { config }

/-! ## Looking at objects -/

/-- The entry behind a reference. -/
def entry? (h : Heap F) (r : ObjRef) : Option (HeapEntry F) := h.table.get? r

/-- The entry behind a reference, or the error for a stale one. -/
def entry (h : Heap F) (r : ObjRef) : Except HostError (HeapEntry F) :=
  match h.entry? r with
  | some entry => .ok entry
  | none => .error (.staleReference r.text)

/-- Whether a reference leads to an object. -/
def isLive (h : Heap F) (r : ObjRef) : Bool := (h.entry? r).isSome

/-- The kind of the object behind a reference. -/
def kind? (h : Heap F) (r : ObjRef) : Option String :=
  (h.entry? r).map fun entry => entry.object.kind

/-- The number of pins of the object behind a reference. -/
def pinCount? (h : Heap F) (r : ObjRef) : Option Nat := (h.entry? r).map HeapEntry.pins

/-- The text behind a reference. -/
def text? (h : Heap F) (r : ObjRef) : Option String :=
  match h.entry? r with
  | some ⟨.text text, _⟩ => some text
  | _ => none

/-- The doubles behind a reference, given the solver memory. -/
def read (h : Heap F) (m : Memory) (r : ObjRef) : Except HostError (List Binary64) := do
  match (← h.entry r).object with
  | .array values => .ok values
  | .view view => view.read m
  | other => .error (.notF64Array other.kind)

/-- The function behind a reference. -/
def function (h : Heap F) (r : ObjRef) : Except HostError (NativeFunction F) := do
  match (← h.entry r).object with
  | .function f => .ok f
  | other => .error (.notCallable other.kind)

/-- The number of live objects. -/
def liveObjects (h : Heap F) : Nat := h.table.live

/-! ## Collecting and allocating -/

/-- What a collection keeps besides pinned objects. -/
def roots (h : Heap F) : List ObjRef := h.globals.values ++ h.scopes.flatten

/-- The same references, where each is found without a walk through all of them. -/
def rootSet (h : Heap F) : Std.TreeSet ObjRef := .ofList h.roots

/-- Looking a reference up in the set answers as the list does. -/
theorem contains_rootSet (h : Heap F) (r : ObjRef) : h.rootSet.contains r = h.roots.contains r :=
  Std.TreeSet.contains_ofList

/-- Whether a collection keeps an object. -/
def isRooted (h : Heap F) (r : ObjRef) (entry : HeapEntry F) : Bool :=
  entry.pins > 0 || h.roots.contains r

/-- Frees all that is not rooted and counts it. -/
def collect (h : Heap F) : Nat × Heap F :=
  let roots := h.rootSet
  let (freed, table) := h.table.sweep fun r entry => entry.pins > 0 || roots.contains r
  (freed,
    { h with
      table
      stats := { h.stats with
        collections := h.stats.collections + 1
        freed := h.stats.freed + freed } })

/-- What a collection keeps is what is rooted. -/
theorem keep_eq_isRooted (h : Heap F) :
    (fun r (entry : HeapEntry F) => entry.pins > 0 || h.rootSet.contains r) = h.isRooted := by
  funext r entry
  rw [contains_rootSet, isRooted]

/-- Counts an allocation and collects if one is due. -/
def prepare (h : Heap F) : Heap F :=
  let h := { h with stats := { h.stats with allocations := h.stats.allocations + 1 } }
  let every := h.config.collectEvery
  if every > 0 ∧ h.stats.allocations % every = 0 then h.collect.2 else h

/-- Records an allocation with the innermost call in progress. -/
def noteLocal (h : Heap F) (r : ObjRef) : Heap F :=
  match h.scopes with
  | [] => h
  | innermost :: outer => { h with scopes := (r :: innermost) :: outer }

/-- Allocates an object. -/
def alloc (h : Heap F) (object : Object F) : ObjRef × Heap F :=
  let h := h.prepare
  let (r, table) := h.table.insert ⟨object, 0⟩
  (r, { h with table }.noteLocal r)

/-! ## The namespace -/

/-- Binds a name and gives what it was bound to. -/
def define (h : Heap F) (name : String) (value : ObjRef) : Option ObjRef × Heap F :=
  (h.globals.find? name, { h with globals := h.globals.insert name value })

/-- Unbinds a name and gives what it was bound to. -/
def undefine (h : Heap F) (name : String) : Option ObjRef × Heap F :=
  (h.globals.find? name, { h with globals := h.globals.erase name })

/-- What a name is bound to, unless that is gone. -/
def lookup (h : Heap F) (name : String) : Option ObjRef := (h.globals.find? name).filter h.isLive

/-- Allocates a function and binds it under its name. -/
def defineFunction (h : Heap F) (f : NativeFunction F) : ObjRef × Heap F :=
  let (r, h) := h.alloc (.function f)
  (r, (h.define f.name r).2)

/-! ## Pins -/

/-- Pins an object once more; a stale reference changes nothing. -/
def pin (h : Heap F) (r : ObjRef) : Heap F :=
  { h with table := h.table.modify r fun entry => { entry with pins := entry.pins + 1 } }

/-- Undoes one pin; a stale reference changes nothing. -/
def unpin (h : Heap F) (r : ObjRef) : Heap F :=
  { h with table := h.table.modify r fun entry => { entry with pins := entry.pins - 1 } }

/-! ## Views -/

/-- Makes a view of a buffer. -/
def materialize (h : Heap F) (buffer : Buffer) : ObjRef × Heap F :=
  h.alloc (.view (.ofBuffer buffer))

/-- Replaces the object behind a reference and leaves its pins. -/
def setObject (h : Heap F) (r : ObjRef) (object : Object F) : Heap F :=
  { h with table := h.table.modify r fun entry => { entry with object } }

/-- Points a view at a buffer. -/
def repoint (h : Heap F) (r : ObjRef) (buffer : Buffer) : Except HostError (Heap F) := do
  match (← h.entry r).object with
  | .view _ => .ok (h.setObject r (.view (.ofBuffer buffer)))
  | _ => .error (.unsupported "repointing a non-view value")

/-- Detaches a view from its memory and counts that; nothing happens for any other
reference. -/
def retire (h : Heap F) (r : ObjRef) : Heap F :=
  match h.entry? r with
  | some ⟨.view view, _⟩ =>
    { h.setObject r (.view view.retire) with
      stats := { h.stats with retiredViews := h.stats.retiredViews + 1 } }
  | _ => h

/-! ## Calls in progress -/

/-- Opens the scope of a call. -/
def openScope (h : Heap F) : Heap F := { h with scopes := [] :: h.scopes }

/-- Closes the scope of the innermost call. -/
def closeScope (h : Heap F) : Heap F := { h with scopes := h.scopes.tail }

end Heap

end CallbackBridge
