/-
# Callbacks during callbacks

User code can turn to the registry in which its own target is registered: it can install and
remove targets, ask whether there is one, and call the native entry points again.
`Engine.During` says in which states it finds the process while its target runs, however
deep its calls nest and in whatever order it does these things.  In all of them the registry
is `Process.Guarded`: nothing but the last status can be changed, and no callback enters a
target, so there is never more than one target running (`callback_reentrant`).
-/
import CallbackBridge.Proofs.LockedRegistry
namespace CallbackBridge

variable {F G : Type}

/-! ## The registry while user code runs -/

/-- An access to the registry that can change it. -/
inductive RegistryAccess (F : Type) where
  /-- Register a target. -/
  | install (target : Target F)
  /-- Take the target out. -/
  | uninstall
  /-- Call a native entry point. -/
  | callback (native : NativeEntry) (args : CallbackArguments)

/-- Carries an access out. -/
def RegistryAccess.perform (engine : Engine F G) (p : Process F G) :
    RegistryAccess F → Process F G
  | install target => (p.install target).2
  | uninstall => p.uninstall.2
  | callback native args => (engine.callback native args p).2

theorem RegistryAccess.sealed_perform (engine : Engine F G) (p : Process F G)
    (access : RegistryAccess F) : p.registry.Sealed (access.perform engine p).registry := by
  cases access with
  | install target => exact p.registry.sealed_install target
  | uninstall => exact p.registry.sealed_uninstall
  | callback native args => exact engine.targetSystem.sealed_callback native.entry _ p

namespace Engine

/-- While a target runs that was entered in the process `p`, its user code finds the process
in the state `q`. -/
inductive During (language : Language F G) (depth : Nat) (entry : Entry) (windows : Windows)
    (p : Process F G) : Target F → Process F G → Prop where
  /-- At a point of native code that a session has called, also inside calls that this code
  makes. -/
  | native {serial : Nat} {session : HeapSession F}
      {moment : Moment (HeapWorld F (Process F G)) ObjRef Rooted} {f : ObjRef}
      {views : StateViews ObjRef} {outcome : Outcome HostError ObjRef}
      {function : NativeFunction F} {v : HeapWorld F (Process F G)}
      (hmoment : moment ∈ (ofDepth language depth).sessionMoments session entry windows p)
      (hcall : moment.operation = .call f views outcome)
      (hf : moment.before.heap.function f = .ok function)
      (hargs : ∀ arg ∈ views.toList, moment.before.heap.isLive arg)
      (hvisits : Visits language.native (stack language depth)
        (language.native function.code views) (moment.before.update Heap.openScope) v) :
      During language depth entry windows p ⟨serial, .session session⟩ v.outside
  /-- At a point of the code of a callable that a bridge has called. -/
  | callable {serial below : Nat} {bridge : Bridge ObjId} {dict : Option ObjId}
      {moment : Moment (CountedWorld F G) ObjId ObjId} {f : ObjId} {views : StateViews ObjId}
      {outcome : Outcome HostError ObjId} {name : String} {label : Option String} {code : G}
      {q : Process F G} (hdepth : depth = below + 1)
      (hmoment : moment ∈ (ofDepth language depth).countedMoments bridge dict entry windows p)
      (hcall : moment.operation = .call f views outcome)
      (hf : moment.before.store.get? f = some (.callable name label true code))
      (hpasses : (language.callable code views).Passes
        (fun command => Act.widen (command.perform language (ofDepth language below)))
        moment.before.process q) :
      During language depth entry windows p ⟨serial, .counted bridge dict⟩ q
  /-- In the middle of an operation of user code, after an access to the registry. -/
  | accessed {target : Target F} {q : Process F G}
      (hduring : During language depth entry windows p target q) (engine : Engine F G)
      (access : RegistryAccess F) :
      During language depth entry windows p target (access.perform engine q)
  /-- In the middle of an operation of user code, after a change of everything else. -/
  | changed {target : Target F} {q : Process F G}
      (hduring : During language depth entry windows p target q)
      (change : Shared F G → Shared F G) :
      During language depth entry windows p target (q.update change)

/-- Every closed relation holds between the process that the target was entered in and the
process as user code finds it, if it holds of the accesses in the middle of operations. -/
theorem During.rel {R : RegistryRelation (Target F) (Shared F G)} (hR : R.Closed)
    {language : Language F G} {depth : Nat} {entry : Entry} {windows : Windows}
    {p q : Process F G} {target : Target F}
    (h : During language depth entry windows p target q)
    (haccess : ∀ (engine : Engine F G) (access : RegistryAccess F) (q : Process F G),
      During language depth entry windows p target q → R.rel q (access.perform engine q)) :
    R.rel p q := by
  induction h with
  | @native serial session moment f views outcome function v hmoment _ _ _ hvisits =>
    obtain ⟨-, hmoments⟩ := rel_runSession language hR depth session entry windows p
    exact R.trans (hmoments moment hmoment) (hvisits.rel (keeps_stack language hR depth))
  | @callable serial below bridge dict moment f views outcome name label code q _ hmoment _ _
      hpasses =>
    obtain ⟨-, hmoments⟩ := rel_runCounted language hR depth bridge dict entry windows p
    have hcalls := calls_ofDepth language hR below
    have hcode := hpasses.rel fun command =>
      (keeps_callableCommand hR.toUpdates hcalls language command).widen
    exact R.trans (hmoments moment hmoment) hcode
  | accessed hduring engine access ih =>
    exact R.trans (ih haccess) (haccess engine access _ hduring)
  | changed hduring change ih => exact R.trans (ih haccess) (R.apart rfl)

/-- Wherever user code is, the registry is what it was when the target was entered, but for
the last status. -/
theorem During.sealed {language : Language F G} {depth : Nat} {entry : Entry}
    {windows : Windows} {p q : Process F G} {target : Target F}
    (h : During language depth entry windows p target q) : p.registry.Sealed q.registry :=
  h.rel RegistryRelation.closed_sealed fun engine access q _ => access.sealed_perform engine q

end Engine

/-- The registry of the process cannot be changed but for the last status, and no callback
enters a target. -/
structure Process.Guarded (target : Target F) (q : Process F G) : Prop where
  /-- The target stays where it is. -/
  slot : q.registry.slot = some target
  /-- Installations are refused, and change nothing. -/
  install : ∀ other, q.install other = (.error .busy, q)
  /-- Removals are refused, and change nothing. -/
  uninstall : q.uninstall = (.error .busy, q)
  /-- Asked for a target, the registry says that there is one. -/
  isInstalled : q.registry.isInstalled = true
  /-- No callback enters a target, whatever targets do. -/
  alone : ∀ (system : TargetSystem (Target F) (Shared F G)) (native : NativeEntry)
    (args : CallbackArguments), system.entered native.entry (native.restrict args) q = []
  /-- A callback whose arguments are in order reports that another one is running. -/
  callback : ∀ (system : TargetSystem (Target F) (Shared F G)) (native : NativeEntry)
    (args : CallbackArguments),
    (∀ check ∈ Check.ofArguments,
      check.Passes native.entry (native.restrict args) q.registry) →
    KeptOut .busy (native.restrict args) q
      (system.callback native.entry (native.restrict args) q).1
      (system.callback native.entry (native.restrict args) q).2

/-- A locked registry with a target is guarded. -/
theorem Process.guarded_of_locked {target : Target F} {q : Process F G}
    (hlocked : q.registry.locked = true) (hslot : q.registry.slot = some target) :
    q.Guarded target where
  slot := hslot
  install other := by
    unfold Process.install
    rw [Registry.install_of_locked hlocked]
  uninstall := by
    unfold Process.uninstall
    rw [Registry.uninstall_of_locked hlocked]
  isInstalled := by
    unfold Registry.isInstalled
    rw [hlocked]
    rfl
  alone := (NativeState.refuses_of_available (Registry.available_of_locked hlocked)).alone
  callback := (NativeState.refuses_of_available (Registry.available_of_locked hlocked)).keptOut

/-! ## The end of a callback -/

/-- The registry after a callback that has run a target. -/
structure Registry.Released (target : Target F) (run : TargetRun (Target F) (Shared F G))
    (r : Registry (Target F)) : Prop where
  /-- The target is in its place, as the run has left it. -/
  slot : r.slot = some run.target
  /-- It is the same target. -/
  same : run.target.serial = target.serial
  /-- No callback is running. -/
  unlocked : r.locked = false
  /-- A panic is remembered. -/
  poisoned : r.poisoned = run.outcome.panicked
  /-- The last status says how the run has ended. -/
  lastStatus : r.lastStatus = (Verdict.ofOutcome target.policy run.outcome).status

/-- A run leaves a target with its identity. -/
theorem Engine.serial_runTarget (engine : Engine F G) (target : Target F) (entry : Entry)
    (windows : Windows) (p : Process F G) :
    (engine.runTarget target entry windows p).target.serial = target.serial := by
  obtain ⟨serial, session | plan | ⟨bridge, dict⟩⟩ := target <;> rfl

/-- What is available can be entered. -/
theorem Registry.available_eq_ok {τ : Type} {r : Registry τ} {target : τ}
    (h : r.available = .ok target) :
    r.slot = some target ∧ r.locked = false ∧ r.poisoned = false := by
  unfold available at h
  split at h
  · cases h
  next hlocked =>
  split at h
  · cases h
  next hpoisoned =>
  split at h
  · next other hslot =>
    cases h
    exact ⟨hslot, Bool.eq_false_iff.mpr hlocked, Bool.eq_false_iff.mpr hpoisoned⟩
  · cases h

/-- **Callbacks during callbacks.** Let a callback enter its target, on machines of any
depth and with any user code.  Wherever this code is, and whatever it has done to the
registry before, in any order and however deep in its calls: installations and removals are
refused and change nothing, a target counts as installed, and no callback enters a target;
one whose arguments are in order leaves its output alone, asks the solver to stop and
records that another callback is running.  At the end of the outer callback, also if its
target panics, the same target is in its place and the last status is that of the outer
callback. -/
theorem callback_reentrant (language : Language F G) (depth : Nat) (native : NativeEntry)
    (args : CallbackArguments) (p : Process F G) (windows : Windows) (target : Target F)
    (hadmitted : (native.restrict args).admitted native.entry p.registry =
      .ok (windows, target)) :
    p.registry.slot = some target ∧
    (∀ q, Engine.During language depth native.entry windows
        { p with registry := p.registry.enter } target q → q.Guarded target) ∧
    ((Engine.ofDepth language depth).callback native args p).2.registry.Released target
      ((Engine.ofDepth language depth).runTarget target native.entry windows
        { p with registry := p.registry.enter }) := by
  obtain ⟨windows', -, hrest⟩ := bind_eq_ok hadmitted
  obtain ⟨target', havailable, heq⟩ := bind_eq_ok hrest
  cases heq
  obtain ⟨hslot, hlocked, hpoisoned⟩ := Registry.available_eq_ok havailable
  refine ⟨hslot, ?_, ?_⟩
  · intro q hduring
    obtain ⟨status, hregistry⟩ := hduring.sealed rfl
    refine Process.guarded_of_locked ?_ ?_
    · rw [hregistry]
      rfl
    · rw [hregistry]
      exact hslot
  · have hserial := (Engine.ofDepth language depth).serial_runTarget target native.entry windows
      { p with registry := p.registry.enter }
    have hsealed := Engine.sealed_runTarget language depth native.entry windows
      { p with registry := p.registry.enter } target
    generalize hrun : (Engine.ofDepth language depth).runTarget target native.entry windows
      { p with registry := p.registry.enter } = run at hserial hsealed ⊢
    obtain ⟨status, hregistry⟩ := hsealed rfl
    -- nothing was poisoned before the run, nor by what user code did in it
    have hclean : run.state.registry.poisoned = false := by
      rw [hregistry]
      exact hpoisoned
    unfold Engine.callback
    rw [TargetSystem.callback_of_ok _ hadmitted hrun]
    refine ⟨rfl, hserial, rfl, ?_, rfl⟩
    show (run.state.registry.poisoned || run.outcome.panicked) = run.outcome.panicked
    rw [hclean, Bool.false_or]

/-! ## A small process

A session is registered whose function removes the target, asks for another residual and
then gives the state back. -/

namespace Meddling

/-- Carries a native operation out and notes its reply. -/
def attempt (step : NativeStep Unit) : HeapProgram Unit (ProcessCommand.interface Unit) Unit := do
  let reply ← (HeapCommand.outside (ProcessCommand.native step)).ask
  discard (HeapCommand.outside (ProcessCommand.note (.native reply))).ask

/-- The code of the function. -/
def code : UserCode Unit (ProcessCommand.interface Unit) := fun _ args => do
  attempt (.uninstall none)
  attempt (.residual .daskrResidual none)
  UserCode.ofSlices (fun _ y _ => .ok y) args

/-- The language with this code alone. -/
def language : Language Unit Unit where
  native := code
  callable _ views := pure views.y
  prepare f s := (f, s)
  difference := ()
  leadingRoots _ := ()

/-- The solver. -/
def solver : Solver := .ofSize 1 0

/-- The session, whose heap holds the function. -/
def session : HeapSession Unit where
  heap := language.referenceHeap .manual 0
  bridge := Bridge.start {} .perCall

/-- The target. -/
def target : Target Unit := ⟨0, .session session⟩

/-- The process in which the target is registered. -/
def process : Process Unit Unit where
  registry := { slot := some target }
  rest := { nextSerial := 1, solver := some solver }

/-- The arguments of the outer callback. -/
def args : CallbackArguments := solver.residualArguments (.ofLength 1)

/-- What the target gets to see of them. -/
def windows : Windows where
  t := [.zero]
  y := [.zero]
  yp := [.zero]
  ipar := ⟨[1]⟩
  res := (Output.ofList (CanaryBuffer.ofLength 1).memory).take 1

/-- The process after the outer callback. -/
def ended : Process Unit Unit :=
  ((Engine.ofDepth language 1).callback .daskrResidual args process).2

/-- The last status after each of the two operations of the function, the latest first. -/
def noted : List Status :=
  ended.rest.log.filterMap fun
    | .native reply => some reply.status
    | _ => none

/-- The process while the callback runs. -/
def running : Process Unit Unit := { process with registry := process.registry.enter }

/-- The moment is a call of a function whose arguments are there. -/
def isEntry (moment : Moment (HeapWorld Unit (Process Unit Unit)) ObjRef Rooted) : Bool :=
  match moment.operation with
  | .call f views _ =>
    (moment.before.heap.function f).isOk && views.toList.all moment.before.heap.isLive
  | _ => false

/-- The function of the session is run. -/
theorem exists_during : ∃ q, Engine.During language 1 .residual windows running target q := by
  have hentered : ((Engine.ofDepth language 1).sessionMoments session .residual windows
      running).any isEntry = true := by decide +kernel
  obtain ⟨moment, hmoment, hentry⟩ := List.any_eq_true.mp hentered
  unfold isEntry at hentry
  split at hentry
  · next f views outcome hcall =>
    rw [Bool.and_eq_true, List.all_eq_true] at hentry
    obtain ⟨hfunction, hargs⟩ := hentry
    cases hf : moment.before.heap.function f with
    | error e =>
      rw [hf] at hfunction
      cases hfunction
    | ok function => exact ⟨_, .native hmoment hcall hf hargs .here⟩
  · cases hentry

end Meddling

/-- The callback of the small process: the function is run, the removal is refused without a
trace, the inner callback is refused as busy, and the outer one succeeds. -/
theorem callback_reentrant_meddling :
    (NativeEntry.daskrResidual.restrict Meddling.args).admitted .residual
        Meddling.process.registry = .ok (Meddling.windows, Meddling.target) ∧
      Meddling.noted = [.busy, .ok] ∧ Meddling.ended.registry.lastStatus = .ok ∧
      (∃ q, Engine.During Meddling.language 1 .residual Meddling.windows Meddling.running
        Meddling.target q ∧ q.Guarded Meddling.target) ∧
      Meddling.ended.registry.Released Meddling.target
        ((Engine.ofDepth Meddling.language 1).runTarget Meddling.target .residual
          Meddling.windows Meddling.running) := by
  have hadmitted : (NativeEntry.daskrResidual.restrict Meddling.args).admitted .residual
      Meddling.process.registry = .ok (Meddling.windows, Meddling.target) := rfl
  obtain ⟨-, hguarded, hreleased⟩ := callback_reentrant Meddling.language 1 .daskrResidual
    Meddling.args Meddling.process Meddling.windows Meddling.target hadmitted
  obtain ⟨q, hduring⟩ := Meddling.exists_during
  exact ⟨hadmitted, by decide +kernel, by decide +kernel, ⟨q, hduring, hguarded q hduring⟩,
    hreleased⟩

end CallbackBridge
