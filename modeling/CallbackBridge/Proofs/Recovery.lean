/-
# After a panic

The panic of a target poisons the registry.  The target stays where it is and counts as
installed, but no callback enters it any more, until it is replaced or taken out; that is
possible at any time, gives back the target that panicked, and leaves no trace of the panic.

* `Engine.Meanwhile` is what can happen until then: callbacks, all native operations that do
  not update the registry, and changes of everything else.
* `Registry.Poisoned` is the state of the registry that all this keeps.
* `panic_recovery` puts together what can be observed of it.
-/
import CallbackBridge.Proofs.Reentry
namespace CallbackBridge

variable {τ ω F G : Type}

/-! ## Poisoned registries -/

/-- The target has panicked, and nothing has been done about it. -/
structure Registry.Poisoned (target : τ) (r : Registry τ) : Prop where
  /-- The target is still in its place. -/
  slot : r.slot = some target
  /-- No callback is running. -/
  unlocked : r.locked = false
  /-- The panic is remembered. -/
  poisoned : r.poisoned = true

namespace Registry.Poisoned

variable {r : Registry τ} {target : τ} (h : r.Poisoned target)
include h

theorem record (status : Status) : (r.record status).Poisoned target :=
  ⟨h.slot, h.unlocked, h.poisoned⟩

theorem available_eq : r.available = .error .internalError := by
  unfold available
  rw [h.unlocked, h.poisoned]
  rfl

theorem isInstalled_eq : r.isInstalled = true := by
  unfold isInstalled
  rw [h.slot, h.unlocked]
  rfl

theorem install_eq (other : τ) : r.install other = (.ok (some target), { slot := some other }) := by
  unfold install
  rw [h.unlocked, h.slot]
  rfl

theorem uninstall_eq : r.uninstall = (.ok (some target), { lastStatus := r.lastStatus }) := by
  unfold uninstall
  rw [h.unlocked, h.slot]
  rfl

end Registry.Poisoned

/-- A poisoned registry stays poisoned. -/
def RegistryRelation.poisoned (target : τ) : RegistryRelation τ ω where
  rel s s' := s.registry.Poisoned target → s'.registry.Poisoned target
  apart heq h := by
    rw [heq]
    exact h
  trans h h' hs := h' (h hs)

/-- Callbacks leave a poisoned registry poisoned, whatever targets do. -/
theorem Engine.calls_poisoned (engine : Engine F G) (target : Target F) :
    engine.Calls (RegistryRelation.poisoned target) := by
  intro native args p hpoisoned
  obtain ⟨status, hadmitted⟩ :=
    (native.restrict args).admitted_of_available_error native.entry hpoisoned.available_eq
  unfold Engine.callback
  rw [TargetSystem.callback_of_error _ hadmitted]
  exact hpoisoned.record status

/-! ## Until the next update -/

/-- What can happen to a process until its registry is updated. -/
inductive Engine.Meanwhile (language : Language F G) (engine : Engine F G) (p : Process F G) :
    Process F G → Prop where
  /-- Nothing has happened yet. -/
  | start : Meanwhile language engine p p
  /-- A callback. -/
  | callback {q : Process F G} (h : Meanwhile language engine p q) (native : NativeEntry)
      (args : CallbackArguments) :
      Meanwhile language engine p (engine.callback native args q).2
  /-- A native operation that installs and removes nothing, such as a query. -/
  | step {q : Process F G} (h : Meanwhile language engine p q) (step : NativeStep F)
      (hstep : ¬ step.Updates) :
      Meanwhile language engine p ((step.perform language engine).start q).2
  /-- A change of everything but the registry. -/
  | elapses {q : Process F G} (h : Meanwhile language engine p q)
      (change : Shared F G → Shared F G) : Meanwhile language engine p (q.update change)

theorem Engine.Meanwhile.poisoned {language : Language F G} {engine : Engine F G}
    {p q : Process F G} (h : engine.Meanwhile language p q) {target : Target F}
    (hp : p.registry.Poisoned target) : q.registry.Poisoned target := by
  have hcalls := engine.calls_poisoned target
  induction h with
  | start => exact hp
  | callback h native args ih => exact hcalls native args _ ih
  | step h step hstep ih =>
    have hkeeps := keeps_nativeStep hcalls language step fun hupdates => absurd hupdates hstep
    exact hkeeps _ ih
  | elapses h change ih => exact ih

/-! ## The next update -/

/-- The process with a registry that remembers no panic. -/
def Process.healed (q : Process F G) : Process F G :=
  { q with registry := { q.registry with poisoned := false } }

/-- The target can be replaced or taken out, and that leaves no trace of a panic. -/
structure Process.Recovers (target : Target F) (q : Process F G) : Prop where
  /-- An installation succeeds and hands the target back. -/
  install : ∀ other, (q.install other).1 = .ok (some target)
  /-- It leaves behind what it would have left behind without the panic. -/
  installed : ∀ other, q.install other = q.healed.install other
  /-- After it, callbacks enter the new target. -/
  dispatches : ∀ other, (q.install other).2.Dispatches other
  /-- A removal succeeds and hands the target back. -/
  uninstall : q.uninstall.1 = .ok (some target)
  /-- It leaves behind what it would have left behind without the panic. -/
  uninstalled : q.uninstall = q.healed.uninstall
  /-- After it, callbacks report that there is no target. -/
  refuses : q.uninstall.2.Refuses .notInstalled

/-- An installed target can be replaced or taken out. -/
theorem Registry.Poisoned.recovers {q : Process F G} {target : Target F}
    (h : q.registry.Poisoned target) : q.Recovers target := by
  have hinstall : ∀ other,
      q.install other = (.ok (some target), { q with registry := { slot := some other } }) := by
    intro other
    unfold Process.install
    rw [h.install_eq other]
  have huninstall : q.uninstall =
      (.ok (some target), { q with registry := { lastStatus := q.registry.lastStatus } }) := by
    unfold Process.uninstall
    rw [h.uninstall_eq]
  -- without the panic, the target is in its place and no callback is running, either
  have hslot : q.healed.registry.slot = some target := h.slot
  have hunlocked : q.healed.registry.locked = false := h.unlocked
  refine ⟨?_, ?_, ?_, ?_, ?_, ?_⟩
  · intro other
    rw [hinstall]
  · intro other
    rw [hinstall]
    unfold Process.install Registry.install
    rw [hunlocked, hslot]
    rfl
  · intro other
    rw [hinstall]
    exact NativeState.dispatches_of_available rfl
  · rw [huninstall]
  · rw [huninstall]
    unfold Process.uninstall Registry.uninstall
    rw [hunlocked, hslot]
    rfl
  · rw [huninstall]
    exact NativeState.refuses_of_available rfl

/-- **A panic disables the target until the next installation or removal, which recovers.**
Let a callback enter its target and the target panic, on any machines.  Whatever callbacks,
queries and other operations follow that do not update the registry: a target counts as
installed, no callback enters it, and one whose arguments are in order leaves its output
alone, asks the solver to stop and records an internal error.  The next installation or
removal succeeds and hands back the target that panicked; what it leaves behind is what it
would have left behind without the panic, so callbacks enter the new target, or report that
there is none. -/
theorem panic_recovery (language : Language F G) (engine : Engine F G) (native : NativeEntry)
    (args : CallbackArguments) (p : Process F G) (windows : Windows) (target : Target F)
    (run : TargetRun (Target F) (Shared F G)) (message : String)
    (hadmitted : (native.restrict args).admitted native.entry p.registry =
      .ok (windows, target))
    (hrun : engine.runTarget target native.entry windows
      { p with registry := p.registry.enter } = run)
    (hpanic : run.outcome = .error (.panic message)) :
    run.target.serial = target.serial ∧
    (engine.callback native args p).2.registry.lastStatus = .panicked ∧
    ∀ q, engine.Meanwhile language (engine.callback native args p).2 q →
      q.registry.isInstalled = true ∧
      (NativeStep.isInstalled.perform language engine).start q =
        (.ok ⟨.installed true, q.registry.lastStatus⟩, q) ∧
      q.Refuses .internalError ∧
      q.Recovers run.target := by
  have hserial : run.target.serial = target.serial := by
    rw [← hrun]
    exact engine.serial_runTarget target native.entry windows _
  have hcallback := engine.targetSystem.callback_of_ok hadmitted hrun
  rw [hpanic] at hcallback
  have hstatus : (engine.callback native args p).2.registry.lastStatus = .panicked := by
    unfold Engine.callback
    rw [hcallback]
    rfl
  have hpoisoned : (engine.callback native args p).2.registry.Poisoned run.target := by
    unfold Engine.callback
    rw [hcallback]
    exact ⟨rfl, rfl, Bool.or_true _⟩
  refine ⟨hserial, hstatus, ?_⟩
  intro q hmeanwhile
  have hq := hmeanwhile.poisoned hpoisoned
  have hinstalled := hq.isInstalled_eq
  refine ⟨hinstalled, ?_, NativeState.refuses_of_available hq.available_eq, hq.recovers⟩
  show (Except.ok (NativeReply.mk (.installed q.registry.isInstalled) q.registry.lastStatus), q) = _
  rw [hinstalled]

/-! ## A small process whose target panics -/

namespace Panicking

/-- A target that panics in every call. -/
def target : Target Unit := ⟨0, .planned ⟨.abort, [.panic "overflow"]⟩⟩

/-- Another target, which writes zeros. -/
def other : Target Unit := ⟨1, .planned ⟨.abort, [.fill .zero]⟩⟩

/-- The process in which the first of them is registered. -/
def process : Process Unit Unit := { Meddling.process with registry := { slot := some target } }

/-- The machines, on which no user code needs to run. -/
def engine : Engine Unit Unit := .exhausted

/-- The process after the callback that panicked, another one, and a query. -/
def later : Process Unit Unit :=
  ((NativeStep.isInstalled.perform Meddling.language engine).start
    (engine.callback .daskrResidual Meddling.args
      (engine.callback .daskrResidual Meddling.args process).2).2).2

theorem meanwhile : engine.Meanwhile Meddling.language
    (engine.callback .daskrResidual Meddling.args process).2 later :=
  (Engine.Meanwhile.start.callback .daskrResidual Meddling.args).step .isInstalled fun h => h

end Panicking

/-- In the small process, the second callback is refused, and then the target that panicked is
handed back when another one takes its place. -/
theorem panic_recovery_panicking :
    (Panicking.engine.callback .daskrResidual Meddling.args Panicking.process).2.registry.lastStatus
        = .panicked ∧
      Panicking.later.registry.lastStatus = .internalError ∧
      Panicking.later.registry.isInstalled = true ∧
      (Panicking.later.install Panicking.other).1 = .ok (some Panicking.target) ∧
      (Panicking.later.install Panicking.other).2.Dispatches Panicking.other := by
  have hadmitted : (NativeEntry.daskrResidual.restrict Meddling.args).admitted .residual
      Panicking.process.registry = .ok (Meddling.windows, Panicking.target) := rfl
  obtain ⟨-, hstatus, hlater⟩ := panic_recovery Meddling.language Panicking.engine .daskrResidual
    Meddling.args Panicking.process Meddling.windows Panicking.target _ "overflow" hadmitted rfl rfl
  obtain ⟨hinstalled, -, -, hrecovers⟩ := hlater Panicking.later Panicking.meanwhile
  exact ⟨hstatus, rfl, hinstalled, hrecovers.install _, hrecovers.dispatches _⟩

end CallbackBridge
