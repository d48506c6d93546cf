/-
# Runs of targets, level by level

The commands of user code are carried out with the machines of the level below, and these
enter targets again.  If a relation that looks at the registry alone (`Proofs.RegistrySteps`)
holds of installations and removals, and of a callback as soon as it holds of the runs of
targets on its machines (`RegistryRelation.Closed`), then it holds of everything on every
level: of user code up to any point in it (`Visits.rel`, `Program.Passes.rel`), of runs of
targets up to their end and up to each of their moments, and of callbacks
(`Engine.calls_ofDepth`).
-/
import CallbackBridge.Proofs.RegistrySteps
namespace CallbackBridge

variable {τ ω F G : Type}

/-! ## Runs of native code -/

/-- What user code asks for on any of the levels keeps the relation. -/
def StackKeeps {υ : Type} {I : Interface} (R : RegistryRelation τ ω) (view : υ → NativeState τ ω)
    (stack : List (Surroundings I υ)) : Prop :=
  ∀ surroundings ∈ stack, ∀ command, Keeps R view (surroundings command)

section NativeCode

variable {υ : Type} {I : Interface} {R : RegistryRelation τ ω} {view : υ → NativeState τ ω}

/-- The levels below are levels, too. -/
theorem StackKeeps.below {surroundings : Surroundings I υ} {stack : List (Surroundings I υ)}
    (h : StackKeeps R view (surroundings :: stack)) : StackKeeps R view stack := by
  intro other hmem
  exact h other (List.mem_cons_of_mem surroundings hmem)

/-- One command, if the surroundings and the machine below do. -/
theorem HeapWorld.keeps_answer {surroundings : Surroundings I υ} {run : Runner F υ}
    (hsurroundings : ∀ command, Keeps R view (surroundings command))
    (hrun : ∀ f args, Keeps R (fun w : HeapWorld F υ => view w.outside) (run f args))
    (command : HeapCommand F I) :
    Keeps R (fun w : HeapWorld F υ => view w.outside) (answer surroundings run command) := by
  cases command with
  | call f args => exact (keeps_call view hrun f args).caught
  | direct f args => exact (hrun f.code args).caught
  | outside command => exact (hsurroundings command).widen.zoom (fun _ => rfl) fun _ _ => rfl
  | repoint r buffer =>
    refine .apart fun w => congrArg (fun outside => (view outside).registry) ?_
    show (HeapWorld.repoint r buffer w).2.outside = w.outside
    unfold HeapWorld.repoint
    cases w.heap.repoint r buffer <;> rfl
  | _ => exact .apart fun _ => rfl

variable {code : UserCode F I} {stack : List (Surroundings I υ)}

/-- A whole run, however deep its calls nest. -/
theorem Runner.keeps_ofStack (code : UserCode F I) (hstack : StackKeeps R view stack) (f : F)
    (args : StateViews ObjRef) :
    Keeps R (fun w : HeapWorld F υ => view w.outside) (ofStack code stack f args) := by
  induction stack generalizing f args with
  | nil => exact .panic _
  | cons surroundings stack ih =>
    have hcommand := HeapWorld.keeps_answer (hstack surroundings List.mem_cons_self)
      (ih hstack.below)
    exact .execute hcommand (code f args)

/-- One command on the machine of a stack. -/
theorem HeapWorld.keeps_answer_ofStack {surroundings : Surroundings I υ} (code : UserCode F I)
    (hstack : StackKeeps R view (surroundings :: stack)) (command : HeapCommand F I) :
    Keeps R (fun w : HeapWorld F υ => view w.outside)
      (answer surroundings (Runner.ofStack code stack) command) := by
  have hbelow := Runner.keeps_ofStack code hstack.below
  exact keeps_answer (hstack surroundings List.mem_cons_self) hbelow command

/-- A run from its start to any point in it, also inside nested calls. -/
theorem Visits.rel {α : Type} {p : HeapProgram F I α} {w v : HeapWorld F υ}
    (h : Visits code stack p w v) (hstack : StackKeeps R view stack) :
    R.rel (view w.outside) (view v.outside) := by
  induction h with
  | here => exact R.refl _
  | @next _ surroundings stack command cont reply w w' v hanswer hrest ih =>
    have hstep := HeapWorld.keeps_answer_ofStack code hstack command
    exact R.trans (hstep.rel_of_start hanswer) (ih hstack)
  | @unwound _ surroundings stack command cont stop w w' hanswer =>
    exact (HeapWorld.keeps_answer_ofStack code hstack command).rel_of_start hanswer
  | called hf hargs hbody ih => exact ih hstack.below
  | entered hbody ih => exact ih hstack.below

end NativeCode

/-! ## Runs of callables -/

section Callables

variable {σ ε α : Type} {Command : Type} {Reply : Command → Type}

/-- Carrying the program out from `s` passes through `v`. -/
inductive Program.Passes (handle : (command : Command) → Act σ ε (Reply command)) :
    Program Command Reply ε α → σ → σ → Prop where
  /-- A run passes through its start. -/
  | here {p : Program Command Reply ε α} {s : σ} : Passes handle p s s
  /-- After a command is answered, the run goes on. -/
  | next {command : Command} {cont : Reply command → Program Command Reply ε α} {reply}
      {s s' v : σ} (hanswer : (handle command).start s = (.ok reply, s'))
      (hrest : Passes handle (cont reply) s' v) : Passes handle (.ask command cont) s v
  /-- A run may end by a panic in a command. -/
  | unwound {command : Command} {cont : Reply command → Program Command Reply ε α} {stop}
      {s s' : σ} (hanswer : (handle command).start s = (.error stop, s')) :
      Passes handle (.ask command cont) s s'

/-- A run from its start to any point in it. -/
theorem Program.Passes.rel {R : RegistryRelation τ ω} {view : σ → NativeState τ ω}
    {handle : (command : Command) → Act σ ε (Reply command)} {p : Program Command Reply ε α}
    {s v : σ} (h : p.Passes handle s v) (hhandle : ∀ command, Keeps R view (handle command)) :
    R.rel (view s) (view v) := by
  induction h with
  | here => exact R.refl _
  | @next command cont reply s s' v hanswer hrest ih =>
    exact R.trans ((hhandle command).rel_of_start hanswer) ih
  | @unwound command cont stop s s' hanswer => exact (hhandle command).rel_of_start hanswer

end Callables

/-! ## The levels of an engine -/

namespace Engine

/-- The moments of an entry into a session. -/
def sessionMoments (engine : Engine F G) (session : HeapSession F) (entry : Entry)
    (windows : Windows) (p : Process F G) :
    List (Moment (HeapWorld F (Process F G)) ObjRef Rooted) :=
  session.bridge.trace (HeapWorld.runtime engine.native) entry
    (windows.expose session.memory).1 ⟨session.heap, (windows.expose session.memory).2, p⟩

/-- The moments of an entry into the reference-counting host. -/
def countedMoments (engine : Engine F G) (bridge : Bridge ObjId) (dict : Option ObjId)
    (entry : Entry) (windows : Windows) (p : Process F G) :
    List (Moment (CountedWorld F G) ObjId ObjId) :=
  bridge.trace (CountedWorld.runtime engine.callable) entry (windows.expose {}).1
    { process := p, memory := (windows.expose {}).2, dict }

variable (language : Language F G)

/-- What native code on each level asks for operations on the process. -/
def stack : Nat → List (Surroundings (ProcessCommand.interface F) (Process F G))
  | 0 => []
  | depth + 1 => ProcessCommand.perform language (ofDepth language depth) :: stack depth

theorem native_ofDepth (depth : Nat) :
    (ofDepth language depth).native = Runner.ofStack language.native (stack language depth) := by
  induction depth with
  | zero => rfl
  | succ depth ih =>
    show Runner.level language.native _ (ofDepth language depth).native = _
    rw [ih]
    rfl

end Engine

/-- The relation holds of installations and removals, and of callbacks if it holds of the runs
of the targets that they enter. -/
structure RegistryRelation.Closed (R : RegistryRelation (Target F) (Shared F G)) : Prop
    extends R.Updates where
  /-- It holds of callbacks if it holds of runs of targets. -/
  callback : ∀ engine : Engine F G,
    (∀ target entry windows p, R.rel p (engine.runTarget target entry windows p).state) →
      engine.Calls R

namespace Engine

variable {R : RegistryRelation (Target F) (Shared F G)} (language : Language F G)

/-! ### One level above others -/

section Levels

variable {depth : Nat} (hupdates : R.Updates)
  (hbelow : ∀ below < depth, (ofDepth language below).Calls R)
include hupdates hbelow

theorem keeps_stack_of_calls : StackKeeps R id (stack language depth) := by
  induction depth with
  | zero =>
    intro surroundings hmem
    cases hmem
  | succ depth ih =>
    intro surroundings hmem
    rcases List.mem_cons.mp hmem with rfl | hmem
    · exact keeps_processCommand hupdates (hbelow depth (Nat.lt_succ_self depth)) language
    · exact ih (fun below hlt => hbelow below (Nat.lt_succ_of_lt hlt)) surroundings hmem

theorem keeps_native_of_calls (f : F) (args : StateViews ObjRef) :
    Keeps R (fun w : HeapWorld F (Process F G) => w.outside)
      ((ofDepth language depth).native f args) := by
  rw [native_ofDepth]
  exact Runner.keeps_ofStack language.native (keeps_stack_of_calls language hupdates hbelow) f args

theorem keeps_callable_of_calls (code : G) (args : StateViews ObjId) :
    Keeps R id ((ofDepth language depth).callable code args) := by
  cases depth with
  | zero => exact .panic _
  | succ depth =>
    have hcalls := hbelow depth (Nat.lt_succ_self depth)
    refine .execute (fun command => ?_) (language.callable code args)
    exact (keeps_callableCommand hupdates hcalls language command).widen

/-- An entry into a session, up to its end and up to each of its moments. -/
theorem rel_runSession_of_calls (session : HeapSession F) (entry : Entry) (windows : Windows)
    (p : Process F G) :
    R.rel p ((ofDepth language depth).runSession session entry windows p).1.host.outside ∧
      ∀ moment ∈ (ofDepth language depth).sessionMoments session entry windows p,
        R.rel p moment.before.outside := by
  refine session.bridge.keeps_evaluate (HeapWorld.runtime (ofDepth language depth).native)
    (fun w => w.outside) ?_ entry (windows.expose session.memory).1
    ⟨session.heap, (windows.expose session.memory).2, p⟩
  intro op w w'
  exact HeapWorld.keeps_of_performs id fun _ =>
    keeps_native_of_calls language hupdates hbelow

/-- An entry into the reference-counting host. -/
theorem rel_runCounted_of_calls (bridge : Bridge ObjId) (dict : Option ObjId) (entry : Entry)
    (windows : Windows) (p : Process F G) :
    R.rel p ((ofDepth language depth).runCounted bridge dict entry windows p).host.process ∧
      ∀ moment ∈ (ofDepth language depth).countedMoments bridge dict entry windows p,
        R.rel p moment.before.process := by
  refine bridge.keeps_evaluate (CountedWorld.runtime (ofDepth language depth).callable)
    (fun w => w.process) ?_ entry (windows.expose {}).1
    { process := p, memory := (windows.expose {}).2, dict }
  intro op w w'
  exact CountedWorld.keeps_of_performs fun _ =>
    keeps_callable_of_calls language hupdates hbelow

theorem rel_runTarget_of_calls (target : Target F) (entry : Entry) (windows : Windows)
    (p : Process F G) :
    R.rel p ((ofDepth language depth).runTarget target entry windows p).state := by
  obtain ⟨serial, session | plan | ⟨bridge, dict⟩⟩ := target
  · exact (rel_runSession_of_calls language hupdates hbelow session entry windows p).1
  · -- a plan does not touch the process
    exact R.refl _
  · exact (rel_runCounted_of_calls language hupdates hbelow bridge dict entry windows p).1

end Levels

/-! ### All levels -/

section Closed

variable (hR : R.Closed)
include hR

/-- **Callbacks keep every closed relation**, on machines of any depth. -/
theorem calls_ofDepth (depth : Nat) : (ofDepth language depth).Calls R := by
  induction depth using Nat.strongRecOn with
  | _ depth ih =>
    exact hR.callback _ (rel_runTarget_of_calls language hR.toUpdates ih)

theorem keeps_stack (depth : Nat) : StackKeeps R id (stack language depth) :=
  keeps_stack_of_calls language hR.toUpdates fun below _ => calls_ofDepth language hR below

theorem rel_runSession (depth : Nat) (session : HeapSession F) (entry : Entry)
    (windows : Windows) (p : Process F G) :
    R.rel p ((ofDepth language depth).runSession session entry windows p).1.host.outside ∧
      ∀ moment ∈ (ofDepth language depth).sessionMoments session entry windows p,
        R.rel p moment.before.outside :=
  rel_runSession_of_calls language hR.toUpdates (fun below _ => calls_ofDepth language hR below)
    session entry windows p

theorem rel_runCounted (depth : Nat) (bridge : Bridge ObjId) (dict : Option ObjId)
    (entry : Entry) (windows : Windows) (p : Process F G) :
    R.rel p ((ofDepth language depth).runCounted bridge dict entry windows p).host.process ∧
      ∀ moment ∈ (ofDepth language depth).countedMoments bridge dict entry windows p,
        R.rel p moment.before.process :=
  rel_runCounted_of_calls language hR.toUpdates (fun below _ => calls_ofDepth language hR below)
    bridge dict entry windows p

/-- **Runs of targets keep every closed relation**, on machines of any depth. -/
theorem rel_runTarget (depth : Nat) (target : Target F) (entry : Entry) (windows : Windows)
    (p : Process F G) :
    R.rel p ((ofDepth language depth).runTarget target entry windows p).state :=
  rel_runTarget_of_calls language hR.toUpdates (fun below _ => calls_ofDepth language hR below)
    target entry windows p

end Closed

end Engine

end CallbackBridge
