/-
# What acts on a heap

Programs of clients, the bodies of functions that calls nest, and bridges that are set up,
entered and torn down act on a heap only by the events that their logs tell
(`HeapWorld.actsByLogs`).  The points in between are reached by parts of these logs: those
between two commands of a body, however deep it is nested, and those between two operations
of a bridge.  So whatever is true after every run of events is true at each of these points.
-/
import CallbackBridge.Proofs.HeapLogs
import CallbackBridge.Proofs.Lifetimes
import CallbackBridge.Proofs.Setup
namespace CallbackBridge

variable {F ω : Type} {I : Interface}

/-! ## Logs of a host -/

/-- What the operation of a moment has done to the heap. -/
def Moment.log (below : Journal F ω) (moment : Moment (HeapWorld F ω) ObjRef Rooted) :
    List (HeapEvent F) :=
  moment.operation.log below moment.before

/-- **Operations that follow each other run their logs.** -/
theorem Chain.runs_log {run : Runner F ω} {below : Journal F ω} (hrun : run.Journals below)
    {moments : List (Moment (HeapWorld F ω) ObjRef Rooted)} {w w' : HeapWorld F ω}
    (h : Chain (HeapWorld.runtime run) w moments w') :
    w.heap.Runs (moments.flatMap (Moment.log below)) w'.heap := by
  induction moments generalizing w with
  | nil => exact congrArg HeapWorld.heap h
  | cons moment rest ih =>
    obtain ⟨rfl, hperforms, hrest⟩ := h
    exact (HostOperation.runs_log hrun hperforms).append (ih hrest)

/-- **Each point of the body of a function that is called is reached by a part of the log of the
call**, in which the call has begun. -/
theorem Visits.runs_callLog {code : UserCode F I} {stack : List (Surroundings I ω)} {f : ObjRef}
    {args : StateViews ObjRef} {function : NativeFunction F} {w v : HeapWorld F ω}
    (hf : w.heap.function f = .ok function) (hargs : ∀ arg ∈ args.toList, w.heap.isLive arg)
    (h : Visits code stack (code function.code args) (w.update Heap.openScope) v) :
    ∃ log, .enter :: log <+: HeapWorld.callLog (Journal.ofStack code stack) f args w ∧
      w.heap.Runs (.enter :: log) v.heap := by
  obtain ⟨log, hbegins, hruns⟩ := h.runs_log
  exact ⟨log, HeapWorld.enter_prefix_callLog hf hargs hbegins, _, rfl, hruns⟩

/-- What a teardown does: each handle is given up. -/
theorem Bridge.runs_teardown (run : Runner F ω) (bridge : Bridge Rooted) (w : HeapWorld F ω) :
    w.heap.Runs (bridge.handles.map fun handle => .unpin handle.ref)
      (bridge.teardown (HeapWorld.runtime run) w).heap := by
  rw [teardown_eq_foldl]
  induction bridge.handles generalizing w with
  | nil => exact rfl
  | cons handle rest ih => exact ⟨_, rfl, ih (w.update fun h => h.unpin handle.ref)⟩

/-- What handles are made of: each is a pin. -/
theorem Heap.runs_pinAll (h : Heap F) (bindings : Bindings Rooted) :
    h.Runs ((Symbols.bound bindings).owed.map .pin) (h.pinAll bindings) := by
  obtain ⟨residual, event⟩ := bindings
  cases event with
  | none => exact ⟨_, rfl, rfl⟩
  | some event => exact ⟨_, rfl, _, rfl, rfl⟩

/-- What a setup does: each function that it binds is pinned. -/
theorem Bridge.runs_setup (run : Runner F ω) (config : BridgeConfig) (w : HeapWorld F ω) :
    ∃ pinned : List ObjRef, w.heap.Runs (pinned.map .pin)
      ((Bridge.resolveAtSetup (HeapWorld.runtime run) config).start w).2.heap := by
  unfold Bridge.resolveAtSetup
  split
  · exact ⟨[], rfl⟩
  · rw [Act.start_bind, start_resolve_runtime]
    cases w.heap.bindings config.names with
    | error e => exact ⟨[], rfl⟩
    | ok bindings => exact ⟨_, w.heap.runs_pinAll bindings⟩

/-! ## All that acts on a heap -/

/-- Whatever acts on the heap of a world does what its log tells, on a machine with the given
levels. -/
structure HeapWorld.ActsByLogs (code : UserCode F I) (stack : List (Surroundings I ω))
    (w : HeapWorld F ω) : Prop where
  /-- A program of a client, whether it ends, fails or panics. -/
  client : ∀ {α : Type} (surroundings : Surroundings I ω) (p : HeapProgram F I α),
    w.heap.Runs (p.logOn code (surroundings :: stack) w)
      (w.perform surroundings (Runner.ofStack code stack) p).heap
  /-- A program, up to any of the points that it passes through, inside nested calls as well. -/
  inside : ∀ {α : Type} (p : HeapProgram F I α) (v : HeapWorld F ω), Visits code stack p w v →
    ∃ log, log <+: p.logOn code stack w ∧ w.heap.Runs log v.heap
  /-- The heap as a host, up to any of the points between its operations. -/
  host : ∀ (moments : List (Moment (HeapWorld F ω) ObjRef Rooted)) (w' : HeapWorld F ω),
    Chain (HeapWorld.runtime (Runner.ofStack code stack)) w moments w' →
      w.heap.Runs (moments.flatMap (Moment.log (Journal.ofStack code stack))) w'.heap
  /-- A function that the heap as a host calls, up to any of the points of its body. -/
  called : ∀ {f : ObjRef} {args : StateViews ObjRef} {function : NativeFunction F}
    {v : HeapWorld F ω}, w.heap.function f = .ok function →
      (∀ arg ∈ args.toList, w.heap.isLive arg) →
      Visits code stack (code function.code args) (w.update Heap.openScope) v →
      ∃ log, .enter :: log <+: HeapWorld.callLog (Journal.ofStack code stack) f args w ∧
        w.heap.Runs (.enter :: log) v.heap
  /-- An invocation of a bridge. -/
  invocation : ∀ (bridge : Bridge Rooted) (entry : Entry) (call : Invocation),
    w.heap.Runs
      ((bridge.trace (HeapWorld.runtime (Runner.ofStack code stack)) entry call w).flatMap
        (Moment.log (Journal.ofStack code stack)))
      (bridge.evaluate (HeapWorld.runtime (Runner.ofStack code stack)) entry call w).host.heap
  /-- The setup of a bridge, whether it fails or not. -/
  setup : ∀ config : BridgeConfig, ∃ pinned : List ObjRef, w.heap.Runs (pinned.map .pin)
    ((Bridge.resolveAtSetup (HeapWorld.runtime (Runner.ofStack code stack)) config).start w).2.heap
  /-- The teardown of a bridge. -/
  teardown : ∀ bridge : Bridge Rooted,
    w.heap.Runs (bridge.handles.map fun handle => .unpin handle.ref)
      (bridge.teardown (HeapWorld.runtime (Runner.ofStack code stack)) w).heap

/-- **Whatever acts on a heap does what its log tells.** -/
theorem HeapWorld.actsByLogs (code : UserCode F I) (stack : List (Surroundings I ω))
    (w : HeapWorld F ω) : w.ActsByLogs code stack where
  client surroundings p :=
    Program.runs_log (Runner.journals_ofStack code stack) surroundings p w
  inside _ _ h := h.runs_log
  host _ _ h := h.runs_log (Runner.journals_ofStack code stack)
  called hf hargs h := h.runs_callLog hf hargs
  invocation bridge entry call :=
    (bridge.evaluate_traced _ entry call w).chain.runs_log (Runner.journals_ofStack code stack)
  setup config := Bridge.runs_setup _ config w
  teardown bridge := Bridge.runs_teardown _ bridge w

/-! ## Logs of a session -/

section Sessions

variable {code : UserCode F I} {allowed : HeapCommand F I → Prop} {history : History}

/-- What a host does that is backed by the heap is told by a log, or it has done nothing. -/
theorem HeapStep.exists_runs {stack : List (Surroundings I ω)}
    {op : HostOperation ObjRef Rooted} {w w' : HeapWorld F ω}
    (h : HeapStep (Runner.ofStack code stack) op w w') : ∃ log, w.heap.Runs log w'.heap := by
  rcases h with hdone | ⟨-, rfl⟩
  · exact ⟨_, HostOperation.runs_log (Runner.journals_ofStack code stack) hdone⟩
  · exact ⟨[], rfl⟩

/-- What follows each other is told by a log. -/
theorem Carries.exists_runs {stack : List (Surroundings I ω)}
    {ops : List (HostOperation ObjRef Rooted)} {w w' : HeapWorld F ω}
    (h : HeapRun code stack w ops w') : ∃ log, w.heap.Runs log w'.heap := by
  refine h.relates (P := fun w w' : HeapWorld F ω => ∃ log, w.heap.Runs log w'.heap)
    (fun _ => ⟨[], rfl⟩) ?_ fun _ _ _ _ hstep => hstep.exists_runs
  rintro _ _ _ ⟨log, hruns⟩ ⟨log', hruns'⟩
  exact ⟨log ++ log', hruns.append hruns'⟩

/-- The course of a session is told by a log. -/
theorem Continues.exists_runs {begun session : Session (HeapWorld F ω) Rooted}
    (h : Continues code allowed begun history session) :
    ∃ log, begun.host.heap.Runs log session.host.heap := by
  induction h with
  | start => exact ⟨[], rfl⟩
  | @client _ _ session surroundings stack program _ _ ih =>
    obtain ⟨log, hruns⟩ := ih
    have hprogram := (HeapWorld.actsByLogs code stack session.host).client surroundings program
    exact ⟨_, hruns.append hprogram⟩
  | elapses _ _ ih => exact ih
  | @enters _ _ session host world s windows call entry stack _ hhost hexpose ih =>
    obtain ⟨log, hruns⟩ := ih
    have hheap : (world s).heap = session.host.heap := by
      rw [(HeapWorld.exposed_of_expose hexpose).1]
    obtain ⟨log', hruns'⟩ :=
      ((session.bridge.evaluate_traced host entry call s).chain.carries hhost).exists_runs
    rw [hheap] at hruns'
    exact ⟨_, hruns.append hruns'⟩

/-- **All that has happened to the heap of a session is told by a log**, from the empty heap
on. -/
theorem Reaches.exists_runs {session : Session (HeapWorld F ω) Rooted}
    (h : Reaches code allowed history session) :
    ∃ config log, (Heap.ofConfig config).Runs log session.host.heap := by
  obtain ⟨hbuilt, hbegins, hcontinues⟩ := h
  obtain ⟨log', hruns'⟩ := hcontinues.exists_runs
  cases hbuilt with
  | @program _ config memory outside surroundings stack program =>
    have hbuilding := (HeapWorld.actsByLogs code stack
      ⟨Heap.ofConfig config, memory, outside⟩).client surroundings program
    -- beginning only pins
    cases hbegins.begun with
    | @bound _ bindings _ =>
      exact ⟨config, _, (hbuilding.append (Heap.runs_pinAll _ bindings)).append hruns'⟩
    | perCall => exact ⟨config, _, hbuilding.append hruns'⟩

end Sessions

end CallbackBridge
