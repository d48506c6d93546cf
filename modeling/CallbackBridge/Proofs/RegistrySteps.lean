/-
# What operations do to the registry

Nothing but an installation, a removal or a callback touches the registry, whatever else an
operation does.  So a relation between states that these three keep to, and that holds
whenever the registry is left alone, holds between the states before and after anything at
all.

* `RegistryRelation` is such a relation, and an action `Keeps` it if the state that it leaves
  is related to the one that it found; actions that keep it can follow each other.
* `keeps_nativeStep`, `keeps_clientStep` and the commands of user code are these operations,
  one by one.
-/
import CallbackBridge.Process.Machine
import CallbackBridge.Proofs.Callbacks
import CallbackBridge.Proofs.HeapHosts
import CallbackBridge.Proofs.Setup
namespace CallbackBridge

variable {σ τ ω F G : Type}

/-! ## Relations that look at the registry alone -/

/-- A relation between the state before something is done and the state after it, which holds
whenever the registry is left alone. -/
structure RegistryRelation (τ ω : Type) where
  /-- The relation. -/
  rel : NativeState τ ω → NativeState τ ω → Prop
  /-- What leaves the registry alone is related. -/
  apart : ∀ {s s' : NativeState τ ω}, s'.registry = s.registry → rel s s'
  /-- One thing can follow the other. -/
  trans : ∀ {s s' s'' : NativeState τ ω}, rel s s' → rel s' s'' → rel s s''

namespace RegistryRelation

/-- Doing nothing is related. -/
theorem refl (R : RegistryRelation τ ω) (s : NativeState τ ω) : R.rel s s := R.apart rfl

/-- The relation holds of installations and removals. -/
structure Updates (R : RegistryRelation τ ω) : Prop where
  /-- It holds of installations. -/
  install : ∀ (target : τ) (s : NativeState τ ω),
    R.rel s { s with registry := (s.registry.install target).2 }
  /-- It holds of removals. -/
  uninstall : ∀ s : NativeState τ ω, R.rel s { s with registry := s.registry.uninstall.2 }

end RegistryRelation

/-- What the action does to the part of the state that it can see is related. -/
def Keeps (R : RegistryRelation τ ω) (view : σ → NativeState τ ω) {ε α : Type}
    (act : Act σ ε α) : Prop :=
  ∀ s, R.rel (view s) (view (act.start s).2)

namespace Keeps

variable {ε δ α β : Type} {R : RegistryRelation τ ω} {view : σ → NativeState τ ω}
  {act : Act σ ε α}

/-- From the start of such an action to the state that it leaves. -/
theorem rel_of_start (h : Keeps R view act) {s s' : σ} {outcome : Outcome ε α}
    (hstart : act.start s = (outcome, s')) : R.rel (view s) (view s') := by
  have hact := h s
  rw [hstart] at hact
  exact hact

/-- An action that ends at once. -/
theorem finish (outcome : Outcome ε α) : Keeps R view (Act.finish outcome : Act σ ε α) := by
  intro s
  exact R.refl (view s)

theorem pure (a : α) : Keeps R view (Pure.pure a : Act σ ε α) := finish (.ok a)

theorem fail (e : ε) : Keeps R view (Act.fail e : Act σ ε α) := finish (.error (.error e))

theorem panic (message : String) : Keeps R view (Act.panic message : Act σ ε α) :=
  finish (.error (.panic message))

theorem total {step : σ → α × σ} (h : ∀ s, R.rel (view s) (view (step s).2)) :
    Keeps R view (Act.total step : Act σ ε α) := h

/-- An action that does nothing to the registry. -/
theorem apart {step : σ → α × σ} (h : ∀ s, (view (step s).2).registry = (view s).registry) :
    Keeps R view (Act.total step : Act σ ε α) := by
  intro s
  exact R.apart (h s)

theorem checked {step : σ → Except ε α × σ} (h : ∀ s, R.rel (view s) (view (step s).2)) :
    Keeps R view (Act.checked step) := h

theorem mapError (h : Keeps R view act) (f : ε → δ) : Keeps R view (Act.mapError f act) := h

theorem caught (h : Keeps R view act) : Keeps R view (Act.caught act : Act σ δ _) := by
  intro s
  rw [Act.start_caught_snd]
  exact h s

theorem widen {act : Act σ Empty α} (h : Keeps R view act) :
    Keeps R view (Act.widen act : Act σ ε α) :=
  h.mapError Empty.elim

/-- One action after the other. -/
theorem bind {f : α → Act σ ε β} (h : Keeps R view act) (hf : ∀ a, Keeps R view (f a)) :
    Keeps R view (act >>= f) := by
  intro s
  rw [Act.start_bind]
  rcases hstart : act.start s with ⟨stop | a, s'⟩
  · exact h.rel_of_start hstart
  · exact R.trans (h.rel_of_start hstart) (hf a s')

theorem mapM {f : α → Act σ ε β} (hf : ∀ a, Keeps R view (f a)) (a : Option α) :
    Keeps R view (a.mapM f) := by
  cases a with
  | none => exact .pure none
  | some a => exact (hf a).bind fun b => .pure (some b)

/-- A program, if each of its commands does. -/
theorem execute {Command : Type} {Reply : Command → Type}
    {handle : (command : Command) → Act σ ε (Reply command)}
    (hhandle : ∀ command, Keeps R view (handle command)) (p : Program Command Reply ε α) :
    Keeps R view (p.execute handle) := by
  induction p with
  | done outcome => exact .finish outcome
  | ask command next ih => exact (hhandle command).bind ih

/-- An action on a part of the state. -/
theorem zoom {υ : Type} {act : Act υ ε α} {part : υ → NativeState τ ω} (h : Keeps R part act)
    {get : σ → υ} {set : υ → σ → σ} (hget : ∀ s, part (get s) = view s)
    (hset : ∀ t s, view (set t s) = part t) : Keeps R view (Act.zoom get set act) := by
  intro s
  show R.rel (view s) (view (set (act.start (get s)).2 s))
  rw [← hget, hset]
  exact h (get s)

end Keeps

/-! ## The hosts of targets -/

section Hosts

variable {R : RegistryRelation τ ω}

/-- What the host does is done to the registry as well. -/
theorem Chain.keeps {Ref Root : Type} {host : HostRuntime σ Ref Root} {s s' : σ}
    {moments : List (Moment σ Ref Root)} (h : Chain host s moments s')
    (view : σ → NativeState τ ω)
    (hstep : ∀ op ∈ moments.map Moment.operation, ∀ u u', op.Performs host u u' →
      R.rel (view u) (view u')) : R.rel (view s) (view s') := by
  exact h.performs.relates (P := fun u u' => R.rel (view u) (view u')) (fun u => R.refl _)
    (fun hu hv => R.trans hu hv) hstep

/-- Up to any of its moments, too. -/
theorem Chain.keeps_before {Ref Root : Type} {host : HostRuntime σ Ref Root} {s s' : σ}
    {moments : List (Moment σ Ref Root)} (h : Chain host s moments s')
    (view : σ → NativeState τ ω)
    (hstep : ∀ op ∈ moments.map Moment.operation, ∀ u u', op.Performs host u u' →
      R.rel (view u) (view u')) {moment : Moment σ Ref Root} (hmoment : moment ∈ moments) :
    R.rel (view s) (view moment.before) := by
  obtain ⟨pre, post, rfl⟩ := List.append_of_mem hmoment
  obtain ⟨m, hpre, rfl, -⟩ := h.split
  refine hpre.keeps view fun op hop => hstep op ?_
  rw [List.map_append]
  exact List.mem_append_left _ hop

/-- An invocation, up to its end and up to any of its moments, if all that the host does is
like that. -/
theorem Bridge.keeps_evaluate {Ref Root : Type} (host : HostRuntime σ Ref Root)
    (view : σ → NativeState τ ω)
    (hstep : ∀ (op : HostOperation Ref Root) u u', op.Performs host u u' →
      R.rel (view u) (view u')) (bridge : Bridge Root) (entry : Entry) (call : Invocation)
    (s : σ) :
    R.rel (view s) (view (bridge.evaluate host entry call s).host) ∧
      ∀ moment ∈ bridge.trace host entry call s, R.rel (view s) (view moment.before) := by
  have hchain := (bridge.evaluate_traced host entry call s).chain
  constructor
  · exact hchain.keeps view fun op _ => hstep op
  · intro moment hmoment
    exact hchain.keeps_before view (fun op _ => hstep op) hmoment

/-- Binding functions calls none of them. -/
theorem Binding.calls_nothing {Ref Root : Type} {names : BindingNames}
    {ops : List (HostOperation Ref Root)} {result : Except BridgeError (Bindings Root)}
    (h : Binding names ops result) : ∀ op ∈ ops, ¬ op.Calls := by
  have hlooks : ∀ {entry : Entry} {looking : List (HostOperation Ref Root)} {found},
      Lookup names entry .perCall looking found → ∀ op ∈ looking, ¬ op.Calls :=
    fun hlookup op hop => (hlookup.looks op hop).excludes.2.2.1
  cases h with
  | unfound hresidual => exact hlooks hresidual
  | unusable hresidual hevent =>
    rw [List.forall_mem_append]
    exact ⟨hlooks hresidual, hlooks hevent⟩
  | alone hresidual hevent =>
    rw [List.forall_mem_append, List.forall_mem_append]
    exact ⟨hlooks hresidual, hlooks hevent, by simp [HostOperation.Calls]⟩
  | both hresidual hevent =>
    rw [List.forall_mem_append, List.forall_mem_append]
    exact ⟨hlooks hresidual, hlooks hevent, by simp [HostOperation.Calls]⟩

/-- A bridge is set up without a call of user code. -/
theorem Bridge.keeps_resolveAtSetup {Ref Root : Type} (host : HostRuntime σ Ref Root)
    (config : BridgeConfig) (view : σ → NativeState τ ω)
    (hstep : ∀ (op : HostOperation Ref Root) u u', ¬ op.Calls → op.Performs host u u' →
      R.rel (view u) (view u')) : Keeps R view (Bridge.resolveAtSetup host config) := by
  intro s
  obtain ⟨moments, result, s', hstart, hchain, hsetup⟩ := Bridge.exists_setup host config s
  rw [hstart]
  refine hchain.keeps view fun op hop u u' => hstep op u u' ?_
  rcases hsetup with ⟨e, rfl, -⟩ | ⟨bound, hbinding, -⟩
  · cases hop
  · exact hbinding.calls_nothing op hop

variable {υ : Type} (view : υ → NativeState τ ω)

/-- A call through the heap, if the machine does. -/
theorem HeapWorld.keeps_call {run : Runner F υ}
    (hrun : ∀ f args, Keeps R (fun w : HeapWorld F υ => view w.outside) (run f args)) (f : ObjRef)
    (args : StateViews ObjRef) :
    Keeps R (fun w : HeapWorld F υ => view w.outside) (HeapWorld.call run f args) := by
  intro w
  rcases HeapWorld.call_cases run f args w with
    ⟨e, -, heq⟩ | ⟨arg, -, -, heq⟩ | ⟨function, hf, hargs⟩
  · rw [heq]
    exact R.refl _
  · rw [heq]
    exact R.refl _
  · rw [HeapWorld.start_call_entered run hf hargs]
    -- opening and closing a scope is not noticed outside
    exact hrun function.code args (w.update Heap.openScope)

/-- What the heap does leaves everything around it alone, user code apart. -/
theorem HeapWorld.keeps_of_performs {run : Runner F υ}
    {op : HostOperation ObjRef Rooted} {w w' : HeapWorld F υ}
    (hrun : op.Calls → ∀ f args, Keeps R (fun w : HeapWorld F υ => view w.outside) (run f args))
    (h : op.Performs (HeapWorld.runtime run) w w') :
    R.rel (view w.outside) (view w'.outside) := by
  have hstep : HeapStep run op w w' := Or.inl h
  cases hstep.effect with
  | @runs f views outcome _ hcall =>
    exact (HeapWorld.keeps_call view (hrun trivial) f views).rel_of_start hcall
  | _ => exact R.refl _

/-- What the reference-counting host does changes objects, notes and warnings of the
process, user code apart. -/
theorem CountedWorld.keeps_of_performs {R : RegistryRelation (Target F) (Shared F G)}
    {run : CallableRunner F G} {op : HostOperation ObjId ObjId} {w w' : CountedWorld F G}
    (hrun : op.Calls → ∀ code args, Keeps R id (run code args))
    (h : op.Performs (CountedWorld.runtime run) w w') : R.rel w.process w'.process := by
  cases op with
  | retire view =>
    cases h
    refine R.apart ?_
    show (CountedWorld.retire view w).process.registry = w.process.registry
    unfold CountedWorld.retire
    split
    · dsimp only
      split <;> rfl
    · rfl
  | unpin value =>
    cases h
    refine R.apart ?_
    show (CountedWorld.unpin value w).process.registry = w.process.registry
    unfold CountedWorld.unpin
    split <;> rfl
  | call f views outcome =>
    change CountedWorld.call run f views w = (outcome, w') at h
    unfold CountedWorld.call at h
    split at h
    · next code hget =>
      have hcode := hrun trivial code views
      split at h
      · next result process hstart =>
        cases h
        -- taking note of a derived result is not the registry's business
        have hnote : ∀ v : CountedWorld F G, (v.noteDerived result).process = v.process := by
          intro v
          unfold CountedWorld.noteDerived
          split
          · split <;> rfl
          · rfl
        rw [hnote]
        exact hcode.rel_of_start hstart
      · next e process hstart =>
        cases h
        -- nor is printing
        exact R.trans (hcode.rel_of_start hstart) (R.apart rfl)
      · next message process hstart =>
        cases h
        exact hcode.rel_of_start hstart
    · cases h
      exact R.refl _
  | _ =>
    cases h
    exact R.apart rfl

end Hosts

/-! ## Native operations -/

/-- The relation holds of callbacks that enter their targets with these machines. -/
def Engine.Calls (engine : Engine F G) (R : RegistryRelation (Target F) (Shared F G)) : Prop :=
  ∀ (native : NativeEntry) (args : CallbackArguments) (p : Process F G),
    R.rel p (engine.callback native args p).2

/-- The operation can install or remove a target. -/
def NativeStep.Updates : NativeStep F → Prop
  | install _ _ => True
  | uninstall _ => True
  | remove => True
  | _ => False

section Native

variable {R : RegistryRelation (Target F) (Shared F G)}

namespace Process

/-- Setting a target aside leaves the registry alone. -/
theorem rel_answerReplaced (keep : Option String)
    {replaced : Except Status (Option (Target F)) × Process F G} {p : Process F G}
    (h : R.rel p replaced.2) : R.rel p (answerReplaced keep replaced).2 := by
  rcases replaced with ⟨status | previous, q⟩
  · exact h
  · refine R.trans h (R.apart ?_)
    show (q.setAside keep previous).registry = q.registry
    unfold setAside
    split <;> rfl

theorem keeps_withSolver {act : Solver → Act (Process F G) Empty NativeAnswer}
    (h : ∀ solver, Keeps R id (act solver)) : Keeps R id (withSolver act) := by
  refine Keeps.bind (.apart fun _ => rfl) fun solver => ?_
  cases solver with
  | none => exact .pure _
  | some solver => exact h solver

end Process

theorem keeps_setUp (engine : Engine F G) (heap : Heap F) (config : BridgeConfig)
    (perCall : Bool) : Keeps R id (HeapSession.setUp engine heap config perCall) := by
  unfold HeapSession.setUp
  split
  · exact .finish _
  · intro p
    exact Bridge.keeps_resolveAtSetup (HeapWorld.runtime engine.native) config
      (fun w : HeapWorld F (Process F G) => w.outside)
      (fun op u u' hcalls => HeapWorld.keeps_of_performs id fun h => absurd h hcalls)
      ⟨heap, {}, p⟩

/-- A target is built without a look at the registry. -/
theorem keeps_build (language : Language F G) (engine : Engine F G) (spec : TargetSpec F) :
    Keeps R id (spec.build language engine) := by
  have hnew : ∀ body, Keeps R id (Act.total (Process.newTarget body) :
      Act (Process F G) NativeAnswer (Target F)) := fun body => .apart fun _ => rfl
  cases spec with
  | reference m config heap =>
    refine (keeps_setUp engine _ config false).caught.bind fun built => ?_
    cases built with
    | ok built => exact hnew _
    | error e => exact .panic _
  | session functions base texts config heap perCall =>
    refine (Keeps.mapError ?_ _).bind fun built => hnew _
    exact Keeps.bind (.apart fun _ => rfl) fun defined => keeps_setUp engine _ config perCall
  | planned plan => exact hnew _
  | kept name =>
    refine Keeps.bind (.apart fun _ => rfl) fun found => ?_
    cases found with
    | some target => exact .apart fun _ => rfl
    | none => exact .fail _

variable {engine : Engine F G} (hcalls : engine.Calls R)
include hcalls

namespace Solver

theorem rel_residualInto (entry : NativeEntry) (solver : Solver) (res : CanaryBuffer)
    (p : Process F G) : R.rel p (solver.residualInto engine entry res p).2 :=
  hcalls entry (solver.residualArguments res) p

theorem keeps_askResidual (entry : NativeEntry) (outLen : Option Nat) (solver : Solver) :
    Keeps R id (solver.askResidual engine entry outLen) :=
  (Keeps.finish _).bind fun res => .total (solver.rel_residualInto hcalls entry res)

theorem rel_askRoots (lengths : Option (Int × Int)) (solver : Solver) (p : Process F G) :
    R.rel p (solver.askRoots engine lengths p).2 :=
  hcalls .daskrEvent _ p

omit hcalls in
/-- Each trial of a march is one callback. -/
theorem rel_marchFrom {residual : Solver → Process F G → Int × Process F G}
    (hresidual : ∀ solver (p : Process F G), R.rel p (residual solver p).2)
    (maxRetries remaining retriesLeft : Nat) (dt : Binary64) (solver : Solver)
    (report : MarchReport) (p : Process F G) :
    R.rel p (marchFrom residual maxRetries remaining retriesLeft dt solver report p).2.2 := by
  have htrial : ∀ {trial p ires p'}, residual trial p = (ires, p') → R.rel p p' := by
    intro trial p ires p' heq
    have hstep := hresidual trial p
    rw [heq] at hstep
    exact hstep
  -- the march goes on only after an accepted trial or with a smaller step
  fun_induction marchFrom residual maxRetries remaining retriesLeft dt solver report p with
  | case1 => exact R.refl _
  | case2 _ _ _ _ _ _ _ _ heq ih => exact R.trans (htrial heq) ih
  | case3 _ _ _ _ _ _ _ heq => exact htrial heq
  | case4 _ _ _ _ _ _ _ _ heq _ ih => exact R.trans (htrial heq) ih
  | case5 _ _ _ _ _ _ _ _ _ heq => exact htrial heq

theorem rel_marchThrough (steps : Nat) (dt : Binary64) (maxRetries : Nat) (solver : Solver)
    (p : Process F G) : R.rel p (solver.marchThrough engine steps dt maxRetries p).2 :=
  rel_marchFrom (fun trial p => trial.rel_residualInto hcalls .daskrResidual _ p)
    maxRetries steps maxRetries dt solver _ p

end Solver

theorem RawCall.keeps_run (call : RawCall) :
    Keeps R id (call.run engine : Act (Process F G) Empty NativeAnswer) := by
  refine (Keeps.finish _).bind fun res => Keeps.bind (.total fun p => ?_) fun effect => .pure _
  exact hcalls call.entry _ p

/-- **Native operations keep every relation that callbacks keep**, and those that update the
registry if installations and removals keep it, too. -/
theorem keeps_nativeStep (language : Language F G) (step : NativeStep F)
    (hupdates : step.Updates → R.Updates) : Keeps R id (step.perform language engine) := by
  refine Keeps.bind ?_ fun answer => .apart fun _ => rfl
  cases step with
  | install spec keep =>
    refine (keeps_build language engine spec).caught.bind fun built => ?_
    cases built with
    | ok target =>
      exact .total fun p => Process.rel_answerReplaced keep ((hupdates trivial).install target p)
    | error answer => exact .pure answer
  | uninstall keep =>
    exact .total fun p => Process.rel_answerReplaced keep ((hupdates trivial).uninstall p)
  | remove => exact .total (hupdates trivial).uninstall
  | isInstalled => exact .apart fun _ => rfl
  | lastStatus => exact .apart fun _ => rfl
  | calls label => exact .apart fun _ => rfl
  | solver spec => exact (Keeps.finish _).bind fun fresh => .apart fun _ => rfl
  | residual entry outLen =>
    refine Process.keeps_withSolver fun inUse => ?_
    exact (inUse.keeps_askResidual hcalls entry outLen).bind fun asked => .pure _
  | roots lengths =>
    refine Process.keeps_withSolver fun inUse => ?_
    exact Keeps.bind (.total (inUse.rel_askRoots hcalls lengths)) fun asked => .pure _
  | march steps dt maxRetries =>
    refine Process.keeps_withSolver fun inUse => ?_
    refine Keeps.bind (.total (inUse.rel_marchThrough hcalls steps dt maxRetries)) fun _ => ?_
    exact Keeps.bind (.apart fun _ => rfl) fun _ => .pure _
  | raw call => exact call.keeps_run hcalls

end Native

/-! ## Operations of clients -/

section Client

variable {R : RegistryRelation (Target F) (Shared F G)}

theorem ObjectSource.keeps_obtain (source : ObjectSource G) :
    Keeps R id (source.obtain : Act (Process F G) ClientAnswer ObjId) := by
  cases source with
  | new object => exact .apart fun _ => rfl
  | named name =>
    refine .checked fun p => R.apart ?_
    dsimp only [id_eq]
    cases p.rest.store.assigned.find? name <;> rfl

theorem SettingArguments.keeps_obtain (settings : SettingArguments (ObjectSource G)) :
    Keeps R id (settings.mapM ObjectSource.obtain :
      Act (Process F G) ClientAnswer (SettingArguments ObjId)) := by
  have hobtain : ∀ given : Option (ObjectSource G), Keeps R id
      (given.mapM ObjectSource.obtain : Act (Process F G) ClientAnswer (Option ObjId)) :=
    Keeps.mapM ObjectSource.keeps_obtain
  exact (hobtain _).bind fun _ => (hobtain _).bind fun _ => (hobtain _).bind fun _ => .pure _

namespace ClientStep

theorem keeps_answered {act : Act (Process F G) ClientAnswer ClientAnswer}
    (h : Keeps R id act) : Keeps R id (answered act) := by
  refine h.caught.bind fun answer => ?_
  cases answer <;> exact .pure _

theorem keeps_answerWith {α : Type} {show_ : α → ClientValue}
    {act : Act (Process F G) ClientException α} (h : Keeps R id act) :
    Keeps R id (answerWith show_ act) := by
  refine h.caught.bind fun result => ?_
  cases result <;> exact .pure _

theorem keeps_withBridge {name : String} {act : ClientBridge → Act (Process F G) Empty ClientAnswer}
    (h : ∀ bridge, Keeps R id (act bridge)) : Keeps R id (withBridge name act) := by
  refine Keeps.bind (.apart fun _ => rfl) fun found => ?_
  cases found with
  | some bridge => exact h bridge
  | none => exact .pure _

theorem keeps_storeBridge {ε : Type} (name : String)
    (build : Store G → Except ClientException ClientBridge) :
    Keeps R id (storeBridge name build : Act (Process F G) ε ClientAnswer) := by
  refine .apart fun p => ?_
  dsimp only [id]
  cases build p.rest.store <;> rfl

end ClientStep

namespace ClientBridge

theorem keeps_targetBody (engine : Engine F G) (bridge : ClientBridge) :
    Keeps R id (bridge.targetBody engine) := by
  unfold targetBody
  split
  · exact .finish _
  · exact .finish _
  · next dict _ =>
    intro p
    exact Bridge.keeps_resolveAtSetup (CountedWorld.runtime engine.callable) bridge.config
      (fun w : CountedWorld F G => w.process)
      (fun op u u' hcalls => CountedWorld.keeps_of_performs fun h => absurd h hcalls)
      { process := p, dict := some dict }

variable (hupdates : R.Updates)
include hupdates

theorem keeps_install (engine : Engine F G) (bridge : ClientBridge) :
    Keeps R id (bridge.install engine) := by
  refine ((bridge.keeps_targetBody engine).mapError _).bind fun body => ?_
  refine Keeps.bind (.apart fun _ => rfl) fun target => ?_
  exact Keeps.mapError (.checked (hupdates.install target)) _

theorem rel_restore (previous : Option (Target F)) (p : Process F G) :
    R.rel p (restore previous p).2 := by
  -- the target is first no longer kept aside
  have haside : R.rel p (p.update fun s => { s with displaced := none }) := R.apart rfl
  refine R.trans haside ?_
  cases previous with
  | some target => exact hupdates.install target (p.update _)
  | none => exact hupdates.uninstall (p.update _)

variable {engine : Engine F G} (hcalls : engine.Calls R)
include hcalls

theorem keeps_callOnce (bridge : ClientBridge) (entry : NativeEntry) (args : CallbackArguments) :
    Keeps R id (bridge.callOnce engine entry args) := by
  refine (bridge.keeps_install hupdates engine).bind fun previous => ?_
  refine Keeps.bind (.apart fun _ => rfl) fun _ => ?_
  refine Keeps.bind (.total (hcalls entry args)) fun effect => ?_
  refine Keeps.bind (.apart fun _ => rfl) fun status => ?_
  exact (Keeps.mapError (.checked (rel_restore hupdates previous)) _).bind fun _ => .pure _

theorem keeps_evaluate (bridge : ClientBridge) (request : Request) (t : Binary64)
    (y yp : List Binary64) (stride : Nat) :
    Keeps R id (bridge.evaluate engine request t y yp stride) := by
  refine (Keeps.finish _).bind fun ⟨entry, args⟩ => ?_
  refine (bridge.keeps_callOnce hupdates hcalls entry args).bind fun ⟨status, res⟩ => ?_
  dsimp only
  split
  · exact .fail _
  · exact .pure _

end ClientBridge

open ClientStep

variable {engine : Engine F G} (hupdates : R.Updates) (hcalls : engine.Calls R)
include hupdates hcalls

/-- **Operations of clients keep every relation that installations, removals and callbacks
keep.** -/
theorem keeps_clientStep (language : Language F G) (step : ClientStep F G) :
    Keeps R id (step.perform language engine) := by
  have hgiven : ∀ given : Option (ObjectSource G), Keeps R id
      (given.mapM ObjectSource.obtain : Act (Process F G) ClientAnswer (Option ObjId)) :=
    Keeps.mapM ObjectSource.keeps_obtain
  cases step with
  | make source name =>
    exact keeps_answered (source.keeps_obtain.bind fun id => .apart fun _ => rfl)
  | dict name =>
    exact keeps_answered ((ObjectSource.keeps_obtain _).bind fun id => .apart fun _ => rfl)
  | bind holder key source =>
    refine keeps_answered ((ObjectSource.keeps_obtain _).bind fun dict => ?_)
    exact source.keeps_obtain.bind fun id => .apart fun _ => rfl
  | unbind holder key =>
    exact keeps_answered ((ObjectSource.keeps_obtain _).bind fun dict => .apart fun _ => rfl)
  | setCallable name enabled =>
    exact keeps_answered ((ObjectSource.keeps_obtain _).bind fun id => .apart fun _ => rfl)
  | dropKept => exact .apart fun _ => rfl
  | kept => exact .apart fun _ => rfl
  | new name residual event settings =>
    refine keeps_answered (residual.keeps_obtain.bind fun _ => ?_)
    refine (hgiven event).bind fun _ => settings.keeps_obtain.bind fun _ => ?_
    exact keeps_storeBridge name _
  | fromDictionary name holder interface perCall settings =>
    refine keeps_answered (holder.keeps_obtain.bind fun _ => ?_)
    refine (hgiven interface).bind fun _ => (hgiven perCall).bind fun _ => ?_
    exact settings.keeps_obtain.bind fun _ => keeps_storeBridge name _
  | describe name => exact keeps_withBridge fun bridge => .pure _
  | install name =>
    exact keeps_withBridge fun bridge => keeps_answerWith (bridge.keeps_install hupdates engine)
  | uninstall =>
    exact keeps_answerWith (Keeps.mapError (.checked hupdates.uninstall) _)
  | evaluate name request t y yp stride =>
    exact keeps_withBridge fun bridge =>
      keeps_answerWith (bridge.keeps_evaluate hupdates hcalls request t y yp stride)
  | addresses => exact .pure _
  | constants => exact .pure _
  | lastStatus => exact .apart fun _ => rfl
  | native step =>
    exact (keeps_nativeStep hcalls language step fun _ => hupdates).bind fun reply => .pure _

/-! ## Commands of user code -/

theorem keeps_processCommand (language : Language F G) (command : ProcessCommand F) :
    Keeps R id (command.perform language engine) := by
  cases command with
  | native step => exact keeps_nativeStep hcalls language step fun _ => hupdates
  | _ => exact .apart fun _ => rfl

theorem keeps_callableCommand (language : Language F G) (command : CallableCommand F G) :
    Keeps R id (command.perform language engine) := by
  cases command with
  | step operation => exact keeps_clientStep hupdates hcalls language operation
  | _ => exact .apart fun _ => rfl

end Client

end CallbackBridge
