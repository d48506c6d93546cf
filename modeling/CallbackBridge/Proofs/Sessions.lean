/-
# Sessions with a managed heap

A session is a heap together with a bridge into it.  `Reaches` says which sessions there
are: they begin on any heap that a program has built, and go on by programs of a client
and by invocations, each on any host that is backed by the heap.  `Occurs` adds the worlds in
between: between two operations of an invocation, and inside user code.
-/
import CallbackBridge.Proofs.Admission
import CallbackBridge.Proofs.HeapHosts
namespace CallbackBridge

open HeapWorld

variable {F ω : Type} {I : Interface}

/-! ## Steps of a session -/

/-- Exposes windows as solver memory. -/
def HeapWorld.expose (windows : Windows) (w : HeapWorld F ω) : Invocation × HeapWorld F ω :=
  let (call, memory) := windows.expose w.memory
  (call, { w with memory })

/-- Exposing windows leaves the heap alone. -/
theorem HeapWorld.exposed_of_expose {windows : Windows} {w w' : HeapWorld F ω}
    {call : Invocation} (h : w.expose windows = (call, w')) :
    w' = { w with memory := w'.memory } ∧ Exposed windows w.memory call w'.memory := by
  unfold HeapWorld.expose at h
  cases h
  exact ⟨rfl, Windows.exposed rfl⟩

/-- Ends the exposure of the memory of an invocation. -/
def HeapWorld.withdraw (call : Invocation) (w : HeapWorld F ω) : HeapWorld F ω :=
  { w with memory := call.withdraw w.memory }

/-- Runs a program of the client. -/
def HeapWorld.perform {α : Type} (surroundings : Surroundings I ω) (run : Runner F ω)
    (program : HeapProgram F I α) (w : HeapWorld F ω) : HeapWorld F ω :=
  ((program.execute (answer surroundings run)).start w).2

/-- Programs bring no reference back to life. -/
theorem HeapWorld.forward_perform {α : Type} (surroundings : Surroundings I ω)
    (code : UserCode F I) (stack : List (Surroundings I ω)) (program : HeapProgram F I α)
    (w : HeapWorld F ω) : w.Forward (perform surroundings (Runner.ofStack code stack) program w) :=
  (runClosed_forward (I := I)).execute
    ((runClosed_forward (I := I)).runner (fun f args => (code f args).all_true) stack)
    surroundings program.all_true w

/-- Invocations bring no reference back to life. -/
theorem Bridge.forward_evaluate {σ : Type} {host : HostRuntime σ ObjRef Rooted}
    {world : σ → HeapWorld F ω} {code : UserCode F I} {stack : List (Surroundings I ω)}
    (hhost : HeapBacked (Runner.ofStack code stack) host world) (bridge : Bridge Rooted)
    (entry : Entry) (call : Invocation) (s : σ) :
    (world s).Forward (world (bridge.evaluate host entry call s).host) :=
  ((bridge.evaluate_traced host entry call s).chain.carries hhost).forward

/-! ## The beginning of a session -/

/-- The heaps that programs build from an empty one. -/
inductive Built (code : UserCode F I) : HeapWorld F ω → Prop where
  /-- A heap that a program has built. -/
  | program {α : Type} {config : HeapConfig} {memory : Memory} {outside : ω}
      {surroundings : Surroundings I ω} {stack : List (Surroundings I ω)}
      {program : HeapProgram F I α} :
      Built code (perform surroundings (Runner.ofStack code stack) program
        ⟨Heap.ofConfig config, memory, outside⟩)

/-- The table of a heap that a program has built is sound. -/
theorem Built.sound {code : UserCode F I} {w : HeapWorld F ω} (h : Built code w)
    (room : w.heap.table.Addressable) : w.heap.table.Sound := by
  cases h with
  | program => exact (forward_perform _ code _ _ _).1.sound room Table.sound_empty

/-- A bridge that starts from settings that are in order has not been entered. -/
theorem Bridge.validated_eq_ok {config : BridgeConfig} {symbols : Symbols Rooted}
    {bridge : Bridge Rooted} (h : Bridge.validated config symbols = .ok bridge) :
    bridge = Bridge.start config symbols := by
  unfold validated at h
  split at h
  · cases h
    rfl
  · cases h

/-- Settings that are in order are enough for a bridge that looks names up in every
invocation. -/
theorem Bridge.resolvePerCall_of_validate {K : Type} {config : BridgeConfig}
    (hvalid : config.validate = .ok ()) :
    resolvePerCall config = .ok (start config (.perCall : Symbols K)) := by
  unfold resolvePerCall validated
  rw [hvalid]

/-- The ways in which names can be looked up for a session. -/
inductive Resolves (run : Runner F ω) (w : HeapWorld F ω) (config : BridgeConfig) :
    Session (HeapWorld F ω) Rooted → Prop where
  /-- They are looked up at setup. -/
  | setup {bridge : Bridge Rooted} {w' : HeapWorld F ω}
      (hresolve : (Bridge.resolveAtSetup (HeapWorld.runtime run) config).start w =
        (.ok bridge, w')) :
      Resolves run w config ⟨w', bridge⟩
  /-- They are looked up in every invocation. -/
  | perCall {bridge : Bridge Rooted} (hbridge : Bridge.resolvePerCall config = .ok bridge) :
      Resolves run w config ⟨w, bridge⟩

/-- The ways in which a session can begin on a heap. -/
inductive Begins (run : Runner F ω) (w : HeapWorld F ω) :
    Session (HeapWorld F ω) Rooted → Prop where
  /-- The functions are found by their names. -/
  | resolved {config : BridgeConfig} {session : Session (HeapWorld F ω) Rooted}
      (hresolves : Resolves run w config session) : Begins run w session
  /-- Handles are given that root live objects, each by a pin of its own. -/
  | injected {config : BridgeConfig} {bridge : Bridge Rooted} {bindings : Bindings Rooted}
      (hlive : ∀ entry handle, bindings.handle? entry = some handle →
        w.heap.isLive handle.ref)
      (hbridge : Bridge.ofBindings config bindings = .ok bridge) :
      Begins run w ⟨w.update fun h => h.pinAll bindings, bridge⟩

/-- What a session begins with that looks its names up: handles of what was found, each by a
pin of its own, or none. -/
theorem Resolves.cases {run : Runner F ω} {w : HeapWorld F ω} {config : BridgeConfig}
    {session : Session (HeapWorld F ω) Rooted} (h : Resolves run w config session) :
    (∃ bindings, w.heap.bindings config.names = .ok bindings ∧
      session = ⟨w.update fun h => h.pinAll bindings, Bridge.start config (.bound bindings)⟩) ∨
    session = ⟨w, Bridge.start config .perCall⟩ := by
  cases h with
  | @setup bridge w' hresolve =>
    unfold Bridge.resolveAtSetup at hresolve
    split at hresolve
    · cases hresolve
    · rw [Act.start_bind, start_resolve_runtime] at hresolve
      cases hbindings : w.heap.bindings config.names with
      | error e =>
        rw [hbindings] at hresolve
        cases hresolve
      | ok bindings =>
        rw [hbindings] at hresolve
        cases hresolve
        exact Or.inl ⟨bindings, rfl, rfl⟩
  | @perCall bridge hbridge =>
    rw [Bridge.validated_eq_ok hbridge]
    exact Or.inr rfl

/-- What a session begins with: the bridge has handles, each a pin of its own on an object
that is there, or it has none. -/
inductive Begun (w : HeapWorld F ω) : Session (HeapWorld F ω) Rooted → Prop where
  /-- There are handles. -/
  | bound {config : BridgeConfig} {bindings : Bindings Rooted}
      (hlive : ∀ entry handle, bindings.handle? entry = some handle →
        w.heap.isLive handle.ref) :
      Begun w ⟨w.update fun h => h.pinAll bindings, Bridge.start config (.bound bindings)⟩
  /-- There are no handles. -/
  | perCall {config : BridgeConfig} : Begun w ⟨w, Bridge.start config .perCall⟩

/-- However a session begins, each of its handles roots what is there. -/
theorem Begins.begun {run : Runner F ω} {w : HeapWorld F ω}
    {session : Session (HeapWorld F ω) Rooted} (h : Begins run w session) : Begun w session := by
  cases h with
  | resolved hresolves =>
    rcases hresolves.cases with ⟨bindings, hbindings, rfl⟩ | rfl
    · refine .bound fun entry handle hhandle => ?_
      obtain ⟨name, -, hcallable⟩ := (Heap.handle?_eq_some_iff hbindings).mp hhandle
      obtain ⟨-, function, pins, hentry⟩ := Heap.entry?_of_callable hcallable
      exact Heap.isLive_of_eq_some hentry
    · exact .perCall
  | @injected config bridge bindings hlive hbridge =>
    rw [Bridge.validated_eq_ok hbridge]
    exact .bound hlive

/-- Beginning a session only pins. -/
theorem Begun.evolves {w : HeapWorld F ω} {session : Session (HeapWorld F ω) Rooted}
    (h : Begun w session) : w.heap.table.Evolves HeapEntry.fixedSorts session.host.heap.table := by
  cases h with
  | bound _ => exact w.heap.evolves_pinAll _
  | perCall => exact .refl _

/-! ## The course of a session -/

/-- The views that operations have made, in order. -/
def madeViews (ops : List (HostOperation ObjRef Rooted)) : List ObjRef :=
  ops.filterMap fun
    | .materialize _ (.ok view) => some view
    | _ => none

theorem madeViews_append (ops ops' : List (HostOperation ObjRef Rooted)) :
    madeViews (ops ++ ops') = madeViews ops ++ madeViews ops' :=
  List.filterMap_append

/-- What has happened so far that outlives an invocation. -/
structure History where
  /-- The views that the bridge has made. -/
  made : List ObjRef := []
  /-- The solver memory of the invocations that have ended. -/
  ended : List Region := []

namespace History

/-- The history while an invocation is in progress that has asked for operations. -/
def during (history : History) (ops : List (HostOperation ObjRef Rooted)) : History :=
  { history with made := history.made ++ madeViews ops }

/-- The history after an invocation. -/
def after (history : History) (call : Invocation) (ops : List (HostOperation ObjRef Rooted)) :
    History where
  made := history.made ++ madeViews ops
  ended := history.ended ++ [call.t.region, call.y.region, call.yp.region]

end History

/-- How a session can go on, when programs of the client issue only allowed commands. -/
inductive Continues (code : UserCode F I) (allowed : HeapCommand F I → Prop)
    (begun : Session (HeapWorld F ω) Rooted) :
    History → Session (HeapWorld F ω) Rooted → Prop where
  /-- Nothing has happened yet. -/
  | start : Continues code allowed begun {} begun
  /-- The client runs a program. -/
  | client {α : Type} {history : History} {session : Session (HeapWorld F ω) Rooted}
      {surroundings : Surroundings I ω} {stack : List (Surroundings I ω)}
      {program : HeapProgram F I α}
      (hcontinues : Continues code allowed begun history session) (hprogram : program.All allowed) :
      Continues code allowed begun history
        ⟨perform surroundings (Runner.ofStack code stack) program session.host,
          session.bridge⟩
  /-- The solver and the surroundings go on; no address is given out again. -/
  | elapses {history : History} {session : Session (HeapWorld F ω) Rooted} {memory : Memory}
      {outside : ω} (hcontinues : Continues code allowed begun history session)
      (hnext : session.host.memory.next ≤ memory.next) :
      Continues code allowed begun history ⟨⟨session.host.heap, memory, outside⟩, session.bridge⟩
  /-- The bridge is entered. -/
  | enters {σ : Type} {history : History} {session : Session (HeapWorld F ω) Rooted}
      {host : HostRuntime σ ObjRef Rooted} {world : σ → HeapWorld F ω} {s : σ}
      {windows : Windows} {call : Invocation} {entry : Entry} {stack : List (Surroundings I ω)}
      (hcontinues : Continues code allowed begun history session)
      (hhost : HeapBacked (Runner.ofStack code stack) host world)
      (hexpose : session.host.expose windows = (call, world s)) :
      Continues code allowed begun
        (history.after call (session.bridge.operations host entry call s))
        ⟨(world (session.bridge.evaluate host entry call s).host).withdraw call,
          (session.bridge.evaluate host entry call s).bridge⟩

/-- The sessions that can be reached from a heap that a program has built. -/
inductive Reaches (code : UserCode F I) (allowed : HeapCommand F I → Prop) :
    History → Session (HeapWorld F ω) Rooted → Prop where
  /-- A session begins and goes on. -/
  | begins {w : HeapWorld F ω} {stack : List (Surroundings I ω)} {history : History}
      {begun session : Session (HeapWorld F ω) Rooted} (hbuilt : Built code w)
      (hbegins : Begins (Runner.ofStack code stack) w begun)
      (hcontinues : Continues code allowed begun history session) :
      Reaches code allowed history session

/-- The worlds that occur, with the invocation in progress if there is one. -/
inductive Occurs (code : UserCode F I) (allowed : HeapCommand F I → Prop) :
    History → Option Invocation → HeapWorld F ω → Prop where
  /-- Between invocations. -/
  | between {history : History} {session : Session (HeapWorld F ω) Rooted}
      (hreaches : Reaches code allowed history session) :
      Occurs code allowed history none session.host
  /-- Inside a program of the client. -/
  | client {α : Type} {history : History} {session : Session (HeapWorld F ω) Rooted}
      {surroundings : Surroundings I ω} {stack : List (Surroundings I ω)}
      {program : HeapProgram F I α} {v : HeapWorld F ω}
      (hreaches : Reaches code allowed history session) (hprogram : program.All allowed)
      (hvisits : Visits code (surroundings :: stack) program session.host v) :
      Occurs code allowed history none v
  /-- Between two operations of an invocation. -/
  | during {σ : Type} {history : History} {session : Session (HeapWorld F ω) Rooted}
      {host : HostRuntime σ ObjRef Rooted} {world : σ → HeapWorld F ω} {s u : σ}
      {windows : Windows} {call : Invocation} {entry : Entry} {stack : List (Surroundings I ω)}
      {pre post : List (Moment σ ObjRef Rooted)}
      (hreaches : Reaches code allowed history session)
      (hhost : HeapBacked (Runner.ofStack code stack) host world)
      (hexpose : session.host.expose windows = (call, world s))
      (htrace : session.bridge.trace host entry call s = pre ++ post)
      (hchain : Chain host s pre u) :
      Occurs code allowed (history.during (pre.map Moment.operation)) (some call) (world u)
  /-- Inside the body of the user function. -/
  | inside {σ : Type} {history : History} {session : Session (HeapWorld F ω) Rooted}
      {host : HostRuntime σ ObjRef Rooted} {world : σ → HeapWorld F ω} {s u : σ}
      {windows : Windows} {call : Invocation} {entry : Entry} {stack : List (Surroundings I ω)}
      {pre post : List (Moment σ ObjRef Rooted)} {moment : Moment σ ObjRef Rooted}
      {f : ObjRef} {views : StateViews ObjRef} {outcome : Outcome HostError ObjRef}
      {function : NativeFunction F} {v : HeapWorld F ω}
      (hreaches : Reaches code allowed history session)
      (hhost : HeapBacked (Runner.ofStack code stack) host world)
      (hexpose : session.host.expose windows = (call, world s))
      (htrace : session.bridge.trace host entry call s = pre ++ moment :: post)
      (hchain : Chain host s pre u) (hcall : moment.operation = .call f views outcome)
      (hf : (world u).heap.function f = .ok function)
      (hvisits : Visits code stack (code function.code views)
        ((world u).update Heap.openScope) v) :
      Occurs code allowed (history.during (pre.map Moment.operation)) (some call) v

/-! ## A small session

A heap with one function, which gives the state back, and a bridge that keeps its views. -/

namespace Echo

/-- There is nothing to ask of the surroundings. -/
def interface : Interface := ⟨Empty, fun _ => Empty⟩

/-- The surroundings, which are never asked. -/
def surroundings : Surroundings interface Unit := fun command => Empty.elim command

/-- The code of the function. -/
def code : UserCode Unit interface := fun _ => UserCode.ofSlices fun _ y _ => .ok y

/-- The machine, with one level. -/
def run : Runner Unit Unit := Runner.ofStack code [surroundings]

/-- Defines the function. -/
def setUp : HeapProgram Unit interface Unit := do
  let f ← (HeapCommand.function ⟨"echo", ()⟩).ask
  discard (HeapCommand.define "echo" f).ask

/-- The heap with the function. -/
def world : HeapWorld Unit Unit :=
  perform surroundings run setUp ⟨Heap.ofConfig .manual, {}, ()⟩

/-- The settings of the bridge. -/
def config : BridgeConfig := { strategy := .reuse, names := ⟨"echo", none⟩ }

/-- The session before the first invocation. -/
def session : Session (HeapWorld Unit Unit) Rooted := ⟨world, Bridge.start config .perCall⟩

/-- Arguments for two state variables: the time 1, the state (2, 3) and the derivative (4, 5). -/
def windows : Windows where
  t := [.one]
  y := [⟨0x4000000000000000⟩, ⟨0x4008000000000000⟩]
  yp := [⟨0x4010000000000000⟩, ⟨0x4014000000000000⟩]
  ipar := ⟨[2]⟩
  res := .fresh 2

/-- The invocation with these arguments. -/
def call : Invocation := (world.expose windows).1

/-- The heap when the invocation begins. -/
def entered : HeapWorld Unit Unit := (world.expose windows).2

/-- The heap was built by a program. -/
theorem built : Built code world := .program

/-- The session begins on that heap. -/
theorem resolves : Resolves run world config session :=
  .perCall (Bridge.resolvePerCall_of_validate (by decide))

/-- The first invocation. -/
def evaluation : Evaluation (HeapWorld Unit Unit) Rooted :=
  session.bridge.evaluate (HeapWorld.runtime run) .residual call entered

/-- The session after the first invocation. -/
def served : Session (HeapWorld Unit Unit) Rooted :=
  ⟨evaluation.host.withdraw call, evaluation.bridge⟩

/-- What has happened in the first invocation. -/
def history : History :=
  History.after {} call
    (session.bridge.operations (HeapWorld.runtime run) .residual call entered)

/-- The session goes on by the first invocation. -/
theorem continues (allowed : HeapCommand Unit interface → Prop) :
    Continues code allowed session history served :=
  @Continues.enters _ _ _ _ _ _ _ _ _ _ id _ _ _ .residual _ .start (heapBacked_runtime run)
    (show world.expose windows = (call, entered) from rfl)

/-- The second invocation, with the same arguments. -/
def again : Invocation × HeapWorld Unit Unit := served.host.expose windows

/-- The session can be reached. -/
theorem reaches (allowed : HeapCommand Unit interface → Prop) :
    Reaches code allowed history served :=
  .begins built (.resolved resolves) (continues allowed)

/-- The code does what every code may do. -/
theorem all_code {allowed : HeapCommand Unit interface → Prop}
    (hread : ∀ r, allowed (.read r)) (harray : ∀ values, allowed (.array values)) (f : Unit)
    (args : StateViews ObjRef) : (code f args).All allowed :=
  UserCode.all_ofSlices hread harray _ args

end Echo

end CallbackBridge
