/-
# Evaluations after a panic

A target that has panicked stays in the slot and is not entered any more, but an evaluation takes
it out and installs it again when it is done, and an installation forgets the panic.

* `Registry.Barred` says that the target with an identity cannot be entered.
* `Engine.Aftermath` is what keeps it barred: everything but an installation of this target and
  an evaluation that puts it back.
* `panicked_target_barred` says both, and `panicked_target_entered_again` shows a run in which a
  target is entered again that nobody has installed again.
-/
import CallbackBridge.Proofs.Evaluations
namespace CallbackBridge

variable {F G : Type}

/-! ## Barred targets -/

/-- The target with this identity cannot be entered: if it is in the slot, then it has panicked
and nothing has been done about it. -/
structure Registry.Barred (serial : Nat) (r : Registry (Target F)) : Prop where
  /-- No callback is running. -/
  unlocked : r.locked = false
  /-- In the slot, the target is poisoned. -/
  poisoned : ∀ target, r.slot = some target → target.serial = serial → r.poisoned = true

namespace Registry.Barred

variable {serial : Nat} {r : Registry (Target F)}

/-- A registry without the target. -/
theorem of_other (hunlocked : r.locked = false)
    (hother : ∀ target, r.slot = some target → target.serial ≠ serial) : r.Barred serial :=
  ⟨hunlocked, fun target hslot hserial => absurd hserial (hother target hslot)⟩

theorem record (h : r.Barred serial) (status : Status) : (r.record status).Barred serial :=
  ⟨h.unlocked, h.poisoned⟩

/-- What can be entered is another target. -/
theorem serial_ne_of_available (h : r.Barred serial) {target : Target F}
    (havailable : r.available = .ok target) : target.serial ≠ serial := by
  obtain ⟨hslot, -, hclean⟩ := Registry.available_eq_ok havailable
  intro hserial
  rw [h.poisoned target hslot hserial] at hclean
  cases hclean

end Registry.Barred

/-- A barred target stays barred. -/
def RegistryRelation.barred (serial : Nat) : RegistryRelation (Target F) (Shared F G) where
  rel s s' := s.registry.Barred serial → s'.registry.Barred serial
  apart heq h := by
    rw [heq]
    exact h
  trans h h' hs := h' (h hs)

/-- Callbacks leave a barred target barred, whatever targets do. -/
theorem Engine.calls_barred (engine : Engine F G) (serial : Nat) :
    engine.Calls (RegistryRelation.barred serial) := by
  intro native args p hbarred
  unfold Engine.callback
  cases hadmitted : (native.restrict args).admitted native.entry p.registry with
  | error status =>
    rw [engine.targetSystem.callback_of_error hadmitted]
    exact hbarred.record status
  | ok admitted =>
    obtain ⟨windows, target⟩ := admitted
    have hother :=
      hbarred.serial_ne_of_available (CallbackArguments.available_of_admitted hadmitted)
    rw [engine.targetSystem.callback_of_ok hadmitted rfl]
    -- the target that was run keeps its identity, and is another one
    refine .of_other rfl ?_
    intro left hleft
    cases hleft
    exact fun hserial =>
      hother ((engine.serial_runTarget target native.entry windows _).symm.trans hserial)

/-! ## Evaluations -/

/-- The evaluation does not put the target with this identity back: another one is registered,
or the evaluation does not get to its callback. -/
def ClientBridge.Passes (engine : Engine F G) (serial : Nat) (bridge : ClientBridge)
    (request : Request) (t : Binary64) (y yp : List Binary64) (stride : Nat)
    (p : Process F G) : Prop :=
  ∀ target, p.registry.slot = some target → target.serial = serial →
    bridge.calling engine request t y yp stride p = none

/-- Such an evaluation leaves the target barred. -/
theorem ClientBridge.Passes.barred {engine : Engine F G} {serial : Nat} {bridge : ClientBridge}
    {request : Request} {t : Binary64} {y yp : List Binary64} {stride : Nat} {p : Process F G}
    (h : bridge.Passes engine serial request t y yp stride p) (hp : p.registry.Barred serial) :
    ((bridge.evaluate engine request t y yp stride).start p).2.registry.Barred serial := by
  rcases bridge.evaluate_cases engine request t y yp stride p with
    ⟨-, e, used, hevaluate⟩ | ⟨call, body, hsome, hborrows⟩
  · rw [hevaluate]
    exact hp
  · rw [hborrows.evaluate]
    refine .of_other rfl ?_
    intro target hslot hserial
    have hnone := h target hslot hserial
    rw [hsome] at hnone
    cases hnone

/-- An evaluation that gets to its callback lets callbacks enter what was registered before,
poisoned or not. -/
theorem ClientBridge.Borrows.dispatches {engine : Engine F G} {bridge : ClientBridge}
    {request : Request} {t : Binary64} {y yp : List Binary64} {stride : Nat} {p : Process F G}
    {call : PendingCallback F G} {body : TargetBody F}
    (h : bridge.Borrows engine request t y yp stride p call body) {target : Target F}
    (hslot : p.registry.slot = some target) :
    ((bridge.evaluate engine request t y yp stride).start p).2.Dispatches target := by
  rw [h.evaluate, hslot]
  exact NativeState.dispatches_of_available rfl

/-! ## After a panic -/

/-- What can happen to a process after the panic of a target, as long as that target is not put
into the slot again. -/
inductive Engine.Aftermath (language : Language F G) (engine : Engine F G) (serial : Nat)
    (p : Process F G) : Process F G → Prop where
  /-- Nothing has happened yet. -/
  | start : Aftermath language engine serial p p
  /-- A callback. -/
  | callback {q : Process F G} (h : Aftermath language engine serial p q) (native : NativeEntry)
      (args : CallbackArguments) :
      Aftermath language engine serial p (engine.callback native args q).2
  /-- A native operation that installs and removes nothing, such as a march. -/
  | step {q : Process F G} (h : Aftermath language engine serial p q) (step : NativeStep F)
      (hstep : ¬ step.Updates) :
      Aftermath language engine serial p ((step.perform language engine).start q).2
  /-- A change of everything but the registry. -/
  | elapses {q : Process F G} (h : Aftermath language engine serial p q)
      (change : Shared F G → Shared F G) : Aftermath language engine serial p (q.update change)
  /-- An installation of another target. -/
  | install {q : Process F G} (h : Aftermath language engine serial p q) (target : Target F)
      (hother : target.serial ≠ serial) :
      Aftermath language engine serial p (q.install target).2
  /-- A removal. -/
  | uninstall {q : Process F G} (h : Aftermath language engine serial p q) :
      Aftermath language engine serial p q.uninstall.2
  /-- An evaluation that does not put the target back. -/
  | evaluate {q : Process F G} (h : Aftermath language engine serial p q)
      (bridge : ClientBridge) (request : Request) (t : Binary64) (y yp : List Binary64)
      (stride : Nat) (hpasses : bridge.Passes engine serial request t y yp stride q) :
      Aftermath language engine serial p
        ((bridge.evaluate engine request t y yp stride).start q).2

/-- Whatever happens after the panic, the target stays barred. -/
theorem Engine.Aftermath.barred {language : Language F G} {engine : Engine F G} {serial : Nat}
    {p q : Process F G} (h : engine.Aftermath language serial p q)
    (hp : p.registry.Barred serial) : q.registry.Barred serial := by
  have hcalls := engine.calls_barred serial
  induction h with
  | start => exact hp
  | callback h native args ih => exact hcalls native args _ ih
  | step h step hstep ih =>
    have hkeeps := keeps_nativeStep hcalls language step fun hupdates => absurd hupdates hstep
    exact hkeeps _ ih
  | elapses h change ih => exact ih
  | install h target hother ih =>
    unfold Process.install
    rw [Registry.install_of_unlocked ih.unlocked]
    refine .of_other rfl ?_
    intro installed hslot
    cases hslot
    exact hother
  | uninstall h ih =>
    unfold Process.uninstall
    rw [Registry.uninstall_of_unlocked ih.unlocked]
    exact .of_other rfl fun target hslot => nomatch hslot
  | evaluate h bridge request t y yp stride hpasses ih => exact hpasses.barred ih

/-- **A target that has panicked is not entered again until it is put into the slot again, and
evaluations do that.**  Let a callback enter its target and the target panic, on any machines.
Whatever follows, callbacks, native operations, installations of other targets, removals and
evaluations that do not put this target back: no callback enters it.  But as soon as an
evaluation of any bridge gets to its callback while the target is in the slot, that callback
enters the bridge's own new target alone, and then the target that panicked is put back without
its panic: callbacks enter it again, although nobody has installed it. -/
theorem panicked_target_barred (language : Language F G) (engine : Engine F G)
    (native : NativeEntry) (args : CallbackArguments) (p : Process F G) (windows : Windows)
    (target : Target F) (run : TargetRun (Target F) (Shared F G)) (message : String)
    (hadmitted : (native.restrict args).admitted native.entry p.registry =
      .ok (windows, target))
    (hrun : engine.runTarget target native.entry windows
      { p with registry := p.registry.enter } = run)
    (hpanic : run.outcome = .error (.panic message)) :
    ∀ q, engine.Aftermath language target.serial (engine.callback native args p).2 q →
      (∀ (system : TargetSystem (Target F) (Shared F G)) (native' : NativeEntry)
          (args' : CallbackArguments),
        ∀ entering ∈ system.entered native'.entry (native'.restrict args') q,
          entering.target.serial ≠ target.serial) ∧
      ∀ (bridge : ClientBridge) (request : Request) (t : Binary64) (y yp : List Binary64)
          (stride : Nat) (call : PendingCallback F G),
        bridge.calling engine request t y yp stride q = some call →
        (∃ body, call.process = q.lending body ∧
          ∀ entering ∈ engine.targetSystem.entered call.native.entry
            (call.native.restrict call.args) call.process,
            entering.target = q.nextTarget body) ∧
        ∀ left, q.registry.slot = some left →
          ((bridge.evaluate engine request t y yp stride).start q).2.Dispatches left := by
  have hcallback := engine.targetSystem.callback_of_ok hadmitted hrun
  rw [hpanic] at hcallback
  have hbarred : (engine.callback native args p).2.registry.Barred target.serial := by
    unfold Engine.callback
    rw [hcallback]
    exact ⟨rfl, fun _ _ _ => Bool.or_true _⟩
  intro q haftermath
  have hq := haftermath.barred hbarred
  refine ⟨?_, ?_⟩
  · intro system native' args' entering hentering
    cases havailable : q.registry.available with
    | error status =>
      rw [(NativeState.refuses_of_available havailable).alone] at hentering
      cases hentering
    | ok available =>
      obtain ⟨hslot, -, -⟩ := Registry.available_eq_ok havailable
      rw [system.target_of_entered hslot entering hentering]
      exact hq.serial_ne_of_available havailable
  · intro bridge request t y yp stride call hcalling
    obtain ⟨body, hborrows⟩ := ClientBridge.borrows_of_calling hcalling
    refine ⟨⟨body, hborrows.process, ?_⟩, fun left hslot => hborrows.dispatches hslot⟩
    refine TargetSystem.target_of_entered _ ?_
    rw [hborrows.process]
    rfl

namespace Panicking

/-- A bridge that looks its functions up in each call. -/
def bridge : ClientBridge := ⟨.dictionary ⟨0⟩ true, {}⟩

/-- The process after the callback that panicked. -/
def panicked : Process Unit Unit := (engine.callback .daskrResidual Meddling.args process).2

/-- The process after an evaluation of the bridge. -/
def evaluated : Process Unit Unit :=
  ((bridge.evaluate engine .residual .zero [.zero] [.zero] 1).start panicked).2

/-- The identities of the targets that a callback enters. -/
def enteredSerials (p : Process Unit Unit) : List Nat :=
  (engine.targetSystem.entered .residual (NativeEntry.daskrResidual.restrict Meddling.args)
    p).map fun entering => entering.target.serial

end Panicking

/-- In the small process, the target is not entered after a removal, a callback and an
installation of the other target, and it can be entered after an evaluation. -/
theorem panicked_target_barred_panicking :
    Panicking.panicked.registry.lastStatus = .panicked ∧
      (∃ q, Panicking.engine.Aftermath Meddling.language 0 Panicking.panicked q ∧
        q.registry.slot = some Panicking.other ∧
        ∀ entering ∈ Panicking.engine.targetSystem.entered .residual
          (NativeEntry.daskrResidual.restrict Meddling.args) q, entering.target.serial ≠ 0) ∧
      Panicking.evaluated.Dispatches Panicking.target := by
  have hadmitted : (NativeEntry.daskrResidual.restrict Meddling.args).admitted .residual
      Panicking.process.registry = .ok (Meddling.windows, Panicking.target) := rfl
  have hbarred := panicked_target_barred Meddling.language Panicking.engine .daskrResidual
    Meddling.args Panicking.process Meddling.windows Panicking.target _ "overflow" hadmitted rfl rfl
  obtain ⟨-, hevaluations⟩ := hbarred _ .start
  obtain ⟨-, hdispatches⟩ := hevaluations Panicking.bridge .residual .zero [.zero] [.zero] 1 _ rfl
  have hstart : Panicking.engine.Aftermath Meddling.language 0 Panicking.panicked
      Panicking.panicked := .start
  have hlater := (hstart.uninstall.callback .daskrResidual Meddling.args).install
    Panicking.other (by decide)
  refine ⟨rfl, ⟨_, hlater, rfl, ?_⟩, hdispatches Panicking.target rfl⟩
  exact (hbarred _ hlater).1 _ .daskrResidual Meddling.args

/-- So there is a run in which a target that has panicked is entered again although nobody has
installed it: the callback after the panic enters nothing, and the one after the evaluation of
another bridge enters the target. -/
theorem panicked_target_entered_again :
    Panicking.panicked.registry.lastStatus = .panicked ∧
      Panicking.enteredSerials Panicking.process = [Panicking.target.serial] ∧
      Panicking.enteredSerials Panicking.panicked = [] ∧
      Panicking.enteredSerials Panicking.evaluated = [Panicking.target.serial] :=
  ⟨rfl, rfl, rfl, rfl⟩

end CallbackBridge
