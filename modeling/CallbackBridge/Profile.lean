/-
# Profiles of repeated calls

A profile sets up a session with the reference residual and calls it again and again
with the same arguments.
-/
import CallbackBridge.Process.Machine
namespace CallbackBridge

/-- What a profile measures. -/
structure Profile where
  /-- The number of state variables. -/
  size : Nat
  /-- How views are obtained. -/
  strategy : ViewStrategy
  /-- Whether names are looked up in every call. -/
  perCall : Bool
  /-- The settings of the heap. -/
  heap : HeapConfig
  /-- The number of calls. -/
  calls : Nat
  deriving DecidableEq, Repr, Inhabited

/-- What a profile reports. -/
structure ProfileReport where
  /-- The output after the last call. -/
  res : Output
  /-- The integer parameters. -/
  ipar : List Int
  /-- The number of live objects after each call. -/
  live : List Nat
  /-- The number of calls that the bridge has accepted. -/
  calls : Nat
  /-- The counters of the heap before the session ends. -/
  stats : HeapStats
  /-- The number of live objects after the session has ended. -/
  after : Nat
  /-- Whether the size is one of those that are profiled. -/
  profiled : Bool
  deriving DecidableEq, Repr, Inhabited

namespace Profile

/-- The sizes that are profiled. -/
def sizes : List Nat := [1, 16, 256, 4096]

/-- The windows of every call: the state counts up from zero and the derivative is one. -/
def windows (profile : Profile) (res : Output) : Windows where
  t := [.zero]
  y := (List.range profile.size).map .ofNat
  yp := List.replicate profile.size .one
  ipar := ⟨[Int.ofNat profile.size, 0]⟩
  res := res

variable {F G : Type}

/-- A heap on which only the reference residual is defined. -/
def residualHeap (language : Language F G) (profile : Profile) : Heap F :=
  ((Heap.ofConfig profile.heap).defineFunction
    ⟨BindingNames.daskrResidual, language.difference⟩).2

/-- The size, which has to fit into an integer parameter. -/
def checkedSize (profile : Profile) : Outcome BridgeError Nat :=
  if profile.size ≤ LengthParameters.maxLength then .ok profile.size
  else .error (.panic "system size fits in ipar: TryFromIntError(PosOverflow)")

/-- Calls the residual a number of times; gives the session and the output at the end and
the number of live objects after each call. -/
def repeatCalls (engine : Engine F G) (profile : Profile) :
    Nat → HeapSession F → Output → Process F G → Outcome BridgeError
      (HeapSession F × Output × List Nat)
  | 0, session, res, _ => .ok (session, res, [])
  | count + 1, session, res, p => do
    let (result, session) := engine.runSession session .residual (profile.windows res) p
    result.outcome
    let (final, res, live) ←
      repeatCalls engine profile count session result.res result.host.outside
    return (final, res, session.heap.liveObjects :: live)

/-- Runs a profile. -/
def run (language : Language F G) (engine : Engine F G) (profile : Profile) :
    Outcome BridgeError ProfileReport := do
  let session ← ((HeapSession.setUp engine (profile.residualHeap language)
    { strategy := profile.strategy } profile.perCall).start Process.start).1
  let size ← profile.checkedSize
  let (session, res, live) ←
    repeatCalls engine profile profile.calls session (.fresh size) Process.start
  let host := HeapWorld.runtime engine.native
  let world := session.bridge.teardown host ⟨session.heap, session.memory, Process.start⟩
  return {
    res
    ipar := [Int.ofNat size, 0]
    live
    calls := session.bridge.calls
    stats := session.heap.stats
    after := world.heap.liveObjects
    profiled := sizes.contains size }

end Profile

end CallbackBridge
