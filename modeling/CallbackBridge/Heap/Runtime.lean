/-
# The heap as a host

A handle roots its object by one pin.  A view is an object like any other, made by
an allocation, so making one can set off a collection.
-/
import CallbackBridge.Bridge
import CallbackBridge.Heap.Program
namespace CallbackBridge

/-- A handle that roots an object of the heap. -/
structure Rooted where
  /-- The rooted object. -/
  ref : ObjRef
  deriving DecidableEq, Repr, Inhabited

/-- The written form of a handle. -/
def Rooted.text (handle : Rooted) : String := "Rooted(" ++ handle.ref.text ++ ")"

namespace HeapWorld

variable {F ω : Type}

/-- The managed heap as a host, with a machine that runs user code. -/
def runtime (run : Runner F ω) : HostRuntime (HeapWorld F ω) ObjRef Rooted where
  supportsReuse := true
  resolve name w := (w.heap.lookup name, w)
  isCallable r w := (w.heap.kind? r == some "function", w)
  typeName r w := ((w.heap.kind? r).getD "stale reference", w)
  materialize buffer w :=
    let (r, w) := onHeap (fun h => h.materialize buffer) w
    (.ok r, w)
  repoint r buffer w := repoint r buffer w
  retire r w := w.update fun h => h.retire r
  pin r w := w.update fun h => h.pin r
  unpin r w := w.update fun h => h.unpin r
  persist r w := (⟨r⟩, w.update fun h => h.pin r)
  attach handle w := (handle.ref, w)
  release handle w := w.update fun h => h.unpin handle.ref
  call f views w := call run f views w
  read r w := (w.heap.read w.memory r, w)

end HeapWorld

end CallbackBridge
