/-
# The heap refines the ideal heap

User code and hosts act on the heap only by what can be told to an ideal heap: each command,
each program, each call and each operation of a host has a log of events, and the heap runs
that log (`HeapWorld.runs_callLog`, `HeapWorld.runs_commandLog`, `Program.runs_log`,
`HostOperation.runs_log`).  A call logs what its body does between an `enter` and a `leave`,
however the body ends and however deep calls nest.

The points that a program passes through are reached by the parts of its log
(`Visits.runs_log`).  So what user code sees at any of them is the ideal heap
(`heap_refines_ideal`).
-/
import CallbackBridge.Proofs.HeapHosts
import CallbackBridge.Proofs.IdealHeap
import CallbackBridge.Proofs.Sessions
namespace CallbackBridge

variable {F ω : Type} {I : Interface}

/-! ## Logs -/

/-- What running the code of a function with some arguments does to the heap of a world. -/
abbrev Journal (F ω : Type) : Type :=
  F → StateViews ObjRef → HeapWorld F ω → List (HeapEvent F)

namespace HeapWorld

/-- What a call does: nothing if it is refused, else what its body does in a scope of its
own. -/
def callLog (below : Journal F ω) (f : ObjRef) (args : StateViews ObjRef) (w : HeapWorld F ω) :
    List (HeapEvent F) :=
  match w.heap.function f with
  | .error _ => []
  | .ok function =>
    if args.toList.all w.heap.isLive then
      .enter :: below function.code args (w.update Heap.openScope) ++ [.leave]
    else []

/-- What a command does. -/
def commandLog (below : Journal F ω) (w : HeapWorld F ω) :
    HeapCommand F I → List (HeapEvent F)
  | .array values => [.alloc (.array values) (w.heap.alloc (.array values)).1]
  | .text content => [.alloc (.text content) (w.heap.alloc (.text content)).1]
  | .function f => [.alloc (.function f) (w.heap.alloc (.function f)).1]
  | .materialize buffer => [.alloc (.view buffer) (w.heap.materialize buffer).1]
  | .define name value => [.define name value]
  | .undefine name => [.undefine name]
  | .collect => [.collect]
  | .pin r => [.pin r]
  | .unpin r => [.unpin r]
  | .repoint r buffer =>
    match w.heap.repoint r buffer with
    | .ok _ => [.repoint r buffer]
    | .error _ => []
  | .retire r => [.retire r]
  | .call f args => callLog below f args w
  | .direct f args => below f.code args w
  | .lookup _ => []
  | .read _ => []
  | .inspect _ => []
  | .outside _ => []

end HeapWorld

/-- What a program does: what its commands do, up to the one that panics. -/
def Program.log {α : Type} (surroundings : Surroundings I ω) (run : Runner F ω)
    (below : Journal F ω) : HeapProgram F I α → HeapWorld F ω → List (HeapEvent F)
  | .done _, _ => []
  | .ask command next, w =>
    HeapWorld.commandLog below w command ++
      match (HeapWorld.answer surroundings run command).start w with
      | (.ok reply, w') => (next reply).log surroundings run below w'
      | (.error _, _) => []

/-- What the code of functions does on a machine with a stack of levels. -/
def Journal.ofStack (code : UserCode F I) : List (Surroundings I ω) → Journal F ω
  | [] => fun _ _ _ => []
  | surroundings :: stack => fun f args =>
    (code f args).log surroundings (Runner.ofStack code stack) (ofStack code stack)

/-- What an operation of the heap as a host does. -/
def HostOperation.log (below : Journal F ω) (w : HeapWorld F ω) :
    HostOperation ObjRef Rooted → List (HeapEvent F)
  | .materialize buffer (.ok view) => [.alloc (.view buffer) view]
  | .repoint view buffer (.ok _) => [.repoint view buffer]
  | .retire view => [.retire view]
  | .pin r => [.pin r]
  | .unpin r => [.unpin r]
  | .persist r _ => [.pin r]
  | .release handle => [.unpin handle.ref]
  | .call f views _ => HeapWorld.callLog below f views w
  | _ => []

/-! ## The heap runs the logs -/

/-- The machine does to the heap what the journal tells. -/
def Runner.Journals (run : Runner F ω) (below : Journal F ω) : Prop :=
  ∀ f args (w : HeapWorld F ω), w.heap.Runs (below f args w) ((run f args).start w).2.heap

namespace HeapWorld

variable {run : Runner F ω} {below : Journal F ω} {f : ObjRef} {args : StateViews ObjRef}
  {w : HeapWorld F ω}

/-- A call that is not refused logs its body in a scope. -/
theorem callLog_entered {function : NativeFunction F} (hf : w.heap.function f = .ok function)
    (hargs : ∀ arg ∈ args.toList, w.heap.isLive arg) :
    callLog below f args w =
      .enter :: below function.code args (w.update Heap.openScope) ++ [.leave] := by
  unfold callLog
  rw [hf]
  exact if_pos (List.all_eq_true.mpr hargs)

/-- **A call runs its log**, however its body ends. -/
theorem runs_callLog (hrun : run.Journals below) (f : ObjRef) (args : StateViews ObjRef)
    (w : HeapWorld F ω) :
    w.heap.Runs (callLog below f args w) ((call run f args).start w).2.heap := by
  rcases call_cases run f args w with
    ⟨e, hf, hcall⟩ | ⟨arg, harg, hdead, hcall⟩ | ⟨function, hf, hargs⟩
  · rw [hcall]
    unfold callLog
    rw [hf]
    exact rfl
  · rw [hcall]
    unfold callLog
    have hrefused : ¬ args.toList.all w.heap.isLive := fun hall => by
      rw [List.all_eq_true.mp hall arg harg] at hdead
      cases hdead
    split
    · exact rfl
    · rw [if_neg hrefused]
      exact rfl
  · rw [start_call_entered run hf hargs, callLog_entered hf hargs]
    have hbody := hrun function.code args (w.update Heap.openScope)
    exact ⟨_, rfl, hbody.append (Heap.Does.runs rfl)⟩

/-- **A command runs its log**, whether it panics or not. -/
theorem runs_commandLog (hrun : run.Journals below) (surroundings : Surroundings I ω)
    (command : HeapCommand F I) (w : HeapWorld F ω) :
    w.heap.Runs (commandLog below w command)
      ((answer surroundings run command).start w).2.heap := by
  cases command with
  | array values => exact Heap.Does.runs rfl
  | text content => exact Heap.Does.runs rfl
  | function f => exact Heap.Does.runs rfl
  | materialize buffer => exact Heap.Does.runs rfl
  | repoint r buffer =>
    show w.heap.Runs (match w.heap.repoint r buffer with
      | .ok _ => [.repoint r buffer]
      | .error _ => []) (HeapWorld.repoint r buffer w).2.heap
    unfold HeapWorld.repoint
    cases hrepoint : w.heap.repoint r buffer with
    | ok heap => exact Heap.Does.runs hrepoint
    | error e => exact rfl
  | call f args =>
    show w.heap.Runs (callLog below f args w) ((Act.caught (call run f args)).start w).2.heap
    rw [Act.start_caught_snd]
    exact runs_callLog hrun f args w
  | direct f args =>
    show w.heap.Runs (below f.code args w) ((Act.caught (run f.code args)).start w).2.heap
    rw [Act.start_caught_snd]
    exact hrun f.code args w
  | define name value => exact Heap.Does.runs rfl
  | undefine name => exact Heap.Does.runs rfl
  | collect => exact Heap.Does.runs rfl
  | pin r => exact Heap.Does.runs rfl
  | unpin r => exact Heap.Does.runs rfl
  | retire r => exact Heap.Does.runs rfl
  | lookup name => exact rfl
  | read r => exact rfl
  | inspect r => exact rfl
  | outside command => exact rfl

end HeapWorld

/-- **A program runs its log**, to its end or to a panic. -/
theorem Program.runs_log {α : Type} {run : Runner F ω} {below : Journal F ω}
    (hrun : run.Journals below) (surroundings : Surroundings I ω) (p : HeapProgram F I α)
    (w : HeapWorld F ω) :
    w.heap.Runs (p.log surroundings run below w)
      ((p.execute (HeapWorld.answer surroundings run)).start w).2.heap := by
  induction p generalizing w with
  | done outcome => exact rfl
  | ask command next ih =>
    have hstep := HeapWorld.runs_commandLog hrun surroundings command w
    rw [Program.start_execute_ask]
    unfold log
    cases hreply : (HeapWorld.answer surroundings run command).start w with
    | mk outcome w' =>
      rw [hreply] at hstep
      cases outcome with
      | error stop => exact hstep.append rfl
      | ok reply => exact hstep.append (ih reply w')

/-- **The code of functions runs its log**, whatever the number of levels of the machine. -/
theorem Runner.journals_ofStack (code : UserCode F I) (stack : List (Surroundings I ω)) :
    (Runner.ofStack code stack).Journals (Journal.ofStack code stack) := by
  induction stack with
  | nil => exact fun _ _ _ => rfl
  | cons surroundings stack ih =>
    exact fun f args w => Program.runs_log ih surroundings (code f args) w

/-- **An operation of the heap as a host runs its log.** -/
theorem HostOperation.runs_log {run : Runner F ω} {below : Journal F ω} (hrun : run.Journals below)
    {op : HostOperation ObjRef Rooted} {w w' : HeapWorld F ω}
    (h : op.Performs (HeapWorld.runtime run) w w') : w.heap.Runs (op.log below w) w'.heap := by
  have hstep : HeapStep run op w w' := Or.inl h
  cases op with
  | resolve name found =>
    rw [hstep.resolve.1]
    exact rfl
  | isCallable r callable =>
    rw [hstep.isCallable.1]
    exact rfl
  | typeName r name =>
    rw [hstep.typeName]
    exact rfl
  | materialize buffer made =>
    cases made with
    | ok view =>
      obtain ⟨rfl, rfl⟩ := hstep.materialize
      exact Heap.Does.runs rfl
    | error e =>
      rw [hstep.materialize_error]
      exact rfl
  | repoint view buffer done =>
    cases done with
    | ok _ =>
      obtain ⟨heap, hrepoint, rfl⟩ := hstep.repoint
      exact Heap.Does.runs hrepoint
    | error e =>
      rw [hstep.repoint_error]
      exact rfl
  | retire view =>
    rw [hstep.retire]
    exact Heap.Does.runs rfl
  | pin r =>
    rw [hstep.pin]
    exact Heap.Does.runs rfl
  | unpin r =>
    rw [hstep.unpin]
    exact Heap.Does.runs rfl
  | persist r handle =>
    rw [hstep.persist.2]
    exact Heap.Does.runs rfl
  | attach handle r =>
    rw [hstep.attach.1]
    exact rfl
  | release handle =>
    rw [hstep.release]
    exact Heap.Does.runs rfl
  | call f views outcome =>
    have hruns := HeapWorld.runs_callLog hrun f views w
    change (HeapWorld.call run f views).start w = (outcome, w') at h
    rw [h] at hruns
    exact hruns
  | read r result =>
    rw [hstep.read]
    exact rfl

/-! ## The points of a run -/

/-- What a program does on a machine whose first level runs it. -/
def Program.logOn {α : Type} (code : UserCode F I) :
    List (Surroundings I ω) → HeapProgram F I α → HeapWorld F ω → List (HeapEvent F)
  | [], _, _ => []
  | surroundings :: stack, p, w =>
    p.log surroundings (Runner.ofStack code stack) (Journal.ofStack code stack) w

/-- The journal of a machine tells what the code of functions does on it. -/
theorem Journal.ofStack_eq_logOn (code : UserCode F I) (stack : List (Surroundings I ω)) (f : F)
    (args : StateViews ObjRef) (w : HeapWorld F ω) :
    ofStack code stack f args w = Program.logOn code stack (code f args) w := by
  cases stack <;> rfl

/-- What a program does begins with what its first command does. -/
theorem Program.commandLog_prefix_logOn {α : Type} (code : UserCode F I)
    (surroundings : Surroundings I ω) (stack : List (Surroundings I ω))
    (command : HeapCommand F I) (next : command.Reply → HeapProgram F I α) (w : HeapWorld F ω) :
    HeapWorld.commandLog (Journal.ofStack code stack) w command <+:
      Program.logOn code (surroundings :: stack) (.ask command next) w := by
  unfold logOn log
  exact List.prefix_append _ _

/-- What a call does begins with what the first part of its body does, in a scope. -/
theorem HeapWorld.enter_prefix_callLog {code : UserCode F I} {stack : List (Surroundings I ω)}
    {f : ObjRef} {args : StateViews ObjRef} {function : NativeFunction F} {w : HeapWorld F ω}
    {log : List (HeapEvent F)} (hf : w.heap.function f = .ok function)
    (hargs : ∀ arg ∈ args.toList, w.heap.isLive arg)
    (hbegins : log <+: Program.logOn code stack (code function.code args)
      (w.update Heap.openScope)) :
    .enter :: log <+: callLog (Journal.ofStack code stack) f args w := by
  rw [callLog_entered hf hargs, Journal.ofStack_eq_logOn]
  exact (List.prefix_cons_inj _).mpr hbegins |>.trans (List.prefix_append _ _)

/-- **Each point of a run is reached by a part of its log.** -/
theorem Visits.runs_log {α : Type} {code : UserCode F I} {stack : List (Surroundings I ω)}
    {p : HeapProgram F I α} {w v : HeapWorld F ω} (h : Visits code stack p w v) :
    ∃ log, log <+: Program.logOn code stack p w ∧ w.heap.Runs log v.heap := by
  induction h with
  | here => exact ⟨[], List.nil_prefix, rfl⟩
  | @next _ surroundings stack command cont reply w w' v hanswer hrest ih =>
    obtain ⟨log, hbegins, hruns⟩ := ih
    have hstep :=
      HeapWorld.runs_commandLog (Runner.journals_ofStack code stack) surroundings command w
    rw [hanswer] at hstep
    have hlog : Program.logOn code (surroundings :: stack) (.ask command cont) w =
        HeapWorld.commandLog (Journal.ofStack code stack) w command ++
          Program.logOn code (surroundings :: stack) (cont reply) w' := by
      simp only [Program.logOn, Program.log, hanswer]
    refine ⟨_, ?_, hstep.append hruns⟩
    rw [hlog]
    exact (List.prefix_append_right_inj _).mpr hbegins
  | @unwound _ surroundings stack command cont stop w w' hanswer =>
    have hstep :=
      HeapWorld.runs_commandLog (Runner.journals_ofStack code stack) surroundings command w
    rw [hanswer] at hstep
    exact ⟨_, Program.commandLog_prefix_logOn code surroundings stack command cont w, hstep⟩
  | @called _ surroundings stack f args cont function w v hf hargs hbody ih =>
    -- the call has begun, and a part of its body has been run
    obtain ⟨log, hbegins, hruns⟩ := ih
    refine ⟨.enter :: log, ?_, _, rfl, hruns⟩
    exact .trans (HeapWorld.enter_prefix_callLog hf hargs hbegins)
      (Program.commandLog_prefix_logOn code surroundings stack (.call f args) cont w)
  | @entered _ surroundings stack f args cont w v hbody ih =>
    obtain ⟨log, hbegins, hruns⟩ := ih
    refine ⟨log, .trans ?_ (Program.commandLog_prefix_logOn code surroundings stack
      (.direct f args) cont w), hruns⟩
    show _ <+: Journal.ofStack code stack f.code args w
    rw [Journal.ofStack_eq_logOn]
    exact hbegins

/-! ## Refinement -/

/-- **The heap refines the ideal heap**, which has neither places nor generations.

After any run of events from an empty heap, whatever is looked at through references and names
is what the ideal heap says that was told the same events (`Heap.Agrees`): until it is
collected, an object has the kind and the pins that the ideal heap gives it, and reads as
what it was made as, or as what is now in the buffer to which a view is attached; from then
on its reference is stale, whatever is run afterwards.  The references in question are all
that were allocated, and an object is what the events tell of its reference
(`HeapEvent.story`).

Everything that acts on the heap is such a run: programs of user code, with the calls that
they nest, to their ends and to every point that they pass through, and all operations of the
heap as a host.  The solver is free to change its memory at any time: what is said of reads is
said of any memory.

References have 32 bits for the place, so there must be no more places than that.  About the
reuse of places nothing is assumed, as a place whose generations are used up is not taken
again, and nothing about the roles of buffers. -/
theorem heap_refines_ideal (code : UserCode F I) (config : HeapConfig) :
    (∀ {log : List (HeapEvent F)} {h : Heap F}, (Heap.ofConfig config).Runs log h →
      h.table.Addressable →
        h.Agrees ((IdealHeap.ofConfig config).replay log) ∧
        (∀ r, r ∈ ((IdealHeap.ofConfig config).replay log).handed ↔
          ∃ made, .alloc made r ∈ log) ∧
        ∀ r object, ((IdealHeap.ofConfig config).replay log).objects r = some object →
          HeapEvent.story r log = some (object.made, object.attached)) ∧
    ∀ (stack : List (Surroundings I ω)) (w : HeapWorld F ω),
      (∀ {α : Type} (surroundings : Surroundings I ω) (p : HeapProgram F I α),
        w.heap.Runs (p.logOn code (surroundings :: stack) w)
          (w.perform surroundings (Runner.ofStack code stack) p).heap) ∧
      (∀ {α : Type} (p : HeapProgram F I α) (v : HeapWorld F ω), Visits code stack p w v →
        ∃ log, log <+: p.logOn code stack w ∧ w.heap.Runs log v.heap) ∧
      ∀ (op : HostOperation ObjRef Rooted) (w' : HeapWorld F ω),
        op.Performs (HeapWorld.runtime (Runner.ofStack code stack)) w w' →
          w.heap.Runs (op.log (Journal.ofStack code stack) w) w'.heap := by
  refine ⟨fun hruns room => ?_, fun stack w => ⟨fun surroundings p => ?_, fun p v h => ?_,
    fun op w' h => ?_⟩⟩
  · have hrealizes := (Heap.Realizes.ofConfig config).replay hruns room
    refine ⟨hrealizes.agrees, fun r => ?_, fun r object => ?_⟩
    · rw [IdealHeap.mem_handed_replay]
      exact or_iff_right List.not_mem_nil
    · have hnothing : (IdealHeap.ofConfig config : IdealHeap F).Follows r none :=
        fun _ hobject => nomatch hobject
      exact hnothing.replay _ object
  · exact Program.runs_log (Runner.journals_ofStack code stack) surroundings p w
  · exact h.runs_log
  · exact HostOperation.runs_log (Runner.journals_ofStack code stack) h

/-! ## A place that is taken twice -/

namespace Recycled

/-- The memory of a view. -/
def buffer : Buffer := ⟨.state, ⟨0⟩, 1⟩

/-- Allocates an array, pins a text and collects; makes a view and detaches it. -/
def program : HeapProgram Unit Echo.interface Unit := do
  let _ ← (HeapCommand.array [.zero]).ask
  let kept ← (HeapCommand.text "kept").ask
  let _ ← (HeapCommand.pin kept).ask
  let _ ← HeapCommand.collect.ask
  let view ← (HeapCommand.materialize buffer).ask
  (HeapCommand.retire view).ask

/-- The heap before the program is run. -/
def start : HeapWorld Unit Unit := ⟨Heap.ofConfig .manual, {}, ()⟩

/-- What the program does. -/
def log : List (HeapEvent Unit) := program.logOn Echo.code [Echo.surroundings] start

/-- The world after the program was run. -/
def world : HeapWorld Unit Unit :=
  HeapWorld.perform Echo.surroundings (Runner.ofStack Echo.code []) program start

/-- The world when the array was allocated. -/
def begun : HeapWorld Unit Unit := start.update fun h => (h.alloc (.array [.zero])).2

/-- The ideal heap after the program was run. -/
def ideal : IdealHeap Unit := (IdealHeap.ofConfig .manual).replay log

end Recycled

/-- The array was collected, and its reference stays stale though a view has taken its place;
the text was kept.  On the way the array was there, and a host may pin the text once more. -/
theorem heap_refines_ideal_recycled :
    (Heap.ofConfig .manual).Runs Recycled.log Recycled.world.heap ∧
      Recycled.world.heap.table.Addressable ∧
      Recycled.world.heap.Stale ⟨0, 0⟩ ∧
      Recycled.world.heap.Presents ⟨1, 0⟩ ⟨.text "kept", none, 1⟩ ∧
      Recycled.world.heap.Presents ⟨0, 1⟩ ⟨.view Recycled.buffer, none, 0⟩ ∧
      (∃ log, log <+: Recycled.log ∧ (Heap.ofConfig .manual).Runs log Recycled.begun.heap) ∧
      Recycled.world.heap.Runs [.pin ⟨1, 0⟩] (Recycled.world.heap.pin ⟨1, 0⟩) := by
  obtain ⟨hideal, hacts⟩ := heap_refines_ideal Echo.code .manual
  have hruns : (Heap.ofConfig .manual).Runs Recycled.log Recycled.world.heap :=
    (hacts [] Recycled.start).1 Echo.surroundings Recycled.program
  have room : Recycled.world.heap.table.Addressable := by decide +kernel
  obtain ⟨hagrees, -, -⟩ := hideal hruns room
  have hhanded : ⟨0, 0⟩ ∈ Recycled.ideal.handed := by decide +kernel
  have hcollected : Recycled.ideal.objects ⟨0, 0⟩ = none := rfl
  have htext : Recycled.ideal.objects ⟨1, 0⟩ = some ⟨.text "kept", none, 1⟩ := rfl
  have hview : Recycled.ideal.objects ⟨0, 1⟩ = some ⟨.view Recycled.buffer, none, 0⟩ := rfl
  have hstays : Recycled.world.heap.Runs [] Recycled.world.heap := rfl
  have hbegun : Visits Echo.code [Echo.surroundings] Recycled.program Recycled.start
      Recycled.begun := .next rfl .here
  have hpinned : HostOperation.Performs (HeapWorld.runtime (Runner.ofStack Echo.code []))
      Recycled.world (Recycled.world.update fun h => h.pin ⟨1, 0⟩)
      (.persist ⟨1, 0⟩ (⟨⟨1, 0⟩⟩ : Rooted)) := rfl
  exact ⟨hruns, room, hagrees.gone hhanded hcollected hstays room, hagrees.present htext,
    hagrees.present hview, (hacts [Echo.surroundings] Recycled.start).2.1 _ _ hbegun,
    (hacts [] Recycled.world).2.2 _ _ hpinned⟩

end CallbackBridge
