/-
# What has been done to a registry

Targets are installed and taken out, callbacks enter them and leave them again, and all this
can also happen while another callback runs.  `Process.History` is what a process can have
been through, with a log of the installations, removals and ended callbacks and with the
callbacks that are still running.

The state of the registry can be read off the log (`Registry.Faithful`): every target that
was given to it has been handed back or is in the slot, in order, and the last status is that
of the callback that ended last (`registry_faithful`).  Whatever operations of the native
interface and of clients do, and user code in them, is part of such a history
(`Process.History.extend`, `Engine.During.extend`).
-/
import Mathlib.Data.List.Forall2
import CallbackBridge.Proofs.Recovery
namespace CallbackBridge

variable {τ F G : Type}

/-! ## The log -/

/-- Something that has been done with a registry, and how it ended. -/
inductive RegistryEvent (τ : Type) where
  /-- An installation of a target. -/
  | install (target : τ) (result : Except Status (Option τ))
  /-- A removal. -/
  | uninstall (result : Except Status (Option τ))
  /-- A callback has ended with a status. -/
  | ended (status : Status)

namespace RegistryEvent

/-- The target that was given to an installation that succeeded. -/
def accepted : RegistryEvent τ → Option τ
  | install target (.ok _) => some target
  | _ => none

/-- The target that was handed back, if any. -/
def returned : RegistryEvent τ → Option τ
  | install _ (.ok previous) => previous
  | uninstall (.ok previous) => previous
  | _ => none

/-- The status to be reported from now on: that of a callback that has ended, and success after
an installation that succeeded. -/
def reported (status : Status) : RegistryEvent τ → Status
  | install _ (.ok _) => .ok
  | ended status' => status'
  | _ => status

/-- The targets that were given to installations that succeeded, in order. -/
def given (log : List (RegistryEvent τ)) : List τ := log.filterMap accepted

/-- The targets that installations and removals handed back, in order. -/
def handedBack (log : List (RegistryEvent τ)) : List τ := log.filterMap returned

/-- The status of the callback that ended last since the last installation that succeeded, or
success if none has ended since then. -/
def lastStatus (log : List (RegistryEvent τ)) : Status := log.foldl reported .ok

variable (log : List (RegistryEvent τ)) (event : RegistryEvent τ)

theorem given_snoc : given (log ++ [event]) = given log ++ event.accepted.toList := by
  unfold given
  rw [List.filterMap_append]
  cases haccepted : event.accepted <;> simp [haccepted]

theorem handedBack_snoc :
    handedBack (log ++ [event]) = handedBack log ++ event.returned.toList := by
  unfold handedBack
  rw [List.filterMap_append]
  cases hreturned : event.returned <;> simp [hreturned]

theorem lastStatus_snoc : lastStatus (log ++ [event]) = event.reported (lastStatus log) := by
  unfold lastStatus
  rw [List.foldl_append]
  rfl

end RegistryEvent

/-! ## Histories -/

/-- A callback that has entered its target and has not ended yet. -/
structure RunningCallback (F G : Type) where
  /-- The machines on which the target runs. -/
  engine : Engine F G
  /-- The entry point. -/
  native : NativeEntry
  /-- The pointers. -/
  args : CallbackArguments
  /-- The process before the callback. -/
  before : Process F G
  /-- What the target gets to see. -/
  windows : Windows
  /-- The target. -/
  target : Target F
  /-- The callback has passed all checks. -/
  admitted : (native.restrict args).admitted native.entry before.registry = .ok (windows, target)

namespace RunningCallback

/-- The process as the target finds it. -/
def entered (call : RunningCallback F G) : Process F G :=
  { call.before with registry := call.before.registry.enter }

/-- The whole run of the target. -/
def run (call : RunningCallback F G) : TargetRun (Target F) (Shared F G) :=
  call.engine.runTarget call.target call.native.entry call.windows call.entered

end RunningCallback

/-- The status with which a callback ends. -/
def Engine.statusOf (engine : Engine F G) (native : NativeEntry) (args : CallbackArguments)
    (p : Process F G) : Status :=
  (engine.targetSystem.attempt native.entry (native.restrict args) p).1.status

/-- What a process can have been through, with a log and with the callbacks that are still
running, the innermost one first. -/
inductive Process.History : List (RegistryEvent (Target F)) → List (RunningCallback F G) →
    Process F G → Prop where
  /-- Nothing has been done yet. -/
  | start (rest : Shared F G) : History [] [] { rest }
  /-- Everything but the registry has changed. -/
  | elapses {log calls p} (h : History log calls p) (rest : Shared F G) :
      History log calls { p with rest }
  /-- An installation, which may be refused. -/
  | install {log calls p} (h : History log calls p) (target : Target F) :
      History (log ++ [.install target (p.install target).1]) calls (p.install target).2
  /-- A removal, which may be refused. -/
  | uninstall {log calls p} (h : History log calls p) :
      History (log ++ [.uninstall p.uninstall.1]) calls p.uninstall.2
  /-- A callback that does not get to its target. -/
  | refused {log calls p} (h : History log calls p) (engine : Engine F G) (native : NativeEntry)
      (args : CallbackArguments) {status : Status}
      (hadmitted : (native.restrict args).admitted native.entry p.registry = .error status) :
      History (log ++ [.ended (engine.statusOf native args p)]) calls
        (engine.callback native args p).2
  /-- A callback enters its target. -/
  | enter {log calls} (call : RunningCallback F G) (h : History log calls call.before) :
      History log (call :: calls) call.entered
  /-- The target returns, fails or panics, when everything that happens in its run has
  happened, and the innermost callback ends. -/
  | leave {log calls p} {call : RunningCallback F G} (h : History log (call :: calls) p)
      (hrun : call.run.state = p) :
      History (log ++ [.ended (call.engine.statusOf call.native call.args call.before)]) calls
        (call.engine.callback call.native call.args call.before).2

/-! ## What the log says -/

/-- The second target is the first one, as runs of it have left it. -/
inductive Target.Becomes (G : Type) (target : Target F) : Target F → Prop where
  /-- It has not been run. -/
  | same : Becomes G target target
  /-- It has been run once more. -/
  | run {other : Target F} (h : Becomes G target other) (engine : Engine F G) (entry : Entry)
      (windows : Windows) (p : Process F G) :
      Becomes G target (engine.runTarget other entry windows p).target

/-- Runs leave a target with its identity. -/
theorem Target.Becomes.serial_eq {target other : Target F} (h : target.Becomes G other) :
    other.serial = target.serial := by
  induction h with
  | same => rfl
  | run h engine entry windows p ih =>
    rw [engine.serial_runTarget]
    exact ih

/-- The state of a registry agrees with what has been done to it. -/
structure Registry.Faithful (G : Type) (log : List (RegistryEvent (Target F)))
    (r : Registry (Target F)) : Prop where
  /-- The targets that were handed back, and then the one in the slot, are those that were
  given, in order, as their runs have left them. -/
  targets : List.Forall₂ (Target.Becomes G) (RegistryEvent.given log)
    (RegistryEvent.handedBack log ++ r.slot.toList)
  /-- The last status is that of the callback that ended last. -/
  lastStatus : r.lastStatus = RegistryEvent.lastStatus log

/-- So their identities are the same, one by one. -/
theorem Registry.Faithful.serials {log : List (RegistryEvent (Target F))}
    {r : Registry (Target F)} (h : r.Faithful G log) :
    (RegistryEvent.handedBack log ++ r.slot.toList).map Target.serial =
      (RegistryEvent.given log).map Target.serial := by
  have htargets := h.targets
  generalize RegistryEvent.handedBack log ++ r.slot.toList = kept at htargets
  generalize RegistryEvent.given log = given at htargets
  induction htargets with
  | nil => rfl
  | cons hbecomes _ ih => rw [List.map_cons, List.map_cons, hbecomes.serial_eq, ih]

/-- The last of related elements can be exchanged. -/
theorem forall₂_exchange_last {α β : Type} {R : α → β → Prop} {as : List α} {bs : List β}
    {b c : β} (h : List.Forall₂ R as (bs ++ [b])) (hc : ∀ a, R a b → R a c) :
    List.Forall₂ R as (bs ++ [c]) := by
  induction bs generalizing as with
  | nil =>
    cases h with
    | cons hb hnil => exact .cons (hc _ hb) hnil
  | cons b' bs ih =>
    cases h with
    | cons hb' hrest => exact .cons hb' (ih hrest)

namespace Registry.Faithful

variable {log : List (RegistryEvent (Target F))} {r : Registry (Target F)}

/-- One more event, which says what has become of the targets and of the status. -/
theorem snoc {event : RegistryEvent (Target F)} {r : Registry (Target F)}
    (htargets : List.Forall₂ (Target.Becomes G) (RegistryEvent.given log ++ event.accepted.toList)
      (RegistryEvent.handedBack log ++ event.returned.toList ++ r.slot.toList))
    (hstatus : r.lastStatus = event.reported (RegistryEvent.lastStatus log)) :
    r.Faithful G (log ++ [event]) := by
  refine ⟨?_, ?_⟩
  · rw [RegistryEvent.given_snoc, RegistryEvent.handedBack_snoc]
    exact htargets
  · rw [RegistryEvent.lastStatus_snoc]
    exact hstatus

/-- An event that says that nothing was given or handed back. -/
theorem snoc_of_none {event : RegistryEvent (Target F)} {r : Registry (Target F)}
    (haccepted : event.accepted = none) (hreturned : event.returned = none)
    (htargets : List.Forall₂ (Target.Becomes G) (RegistryEvent.given log)
      (RegistryEvent.handedBack log ++ r.slot.toList))
    (hstatus : r.lastStatus = event.reported (RegistryEvent.lastStatus log)) :
    r.Faithful G (log ++ [event]) := by
  refine .snoc ?_ hstatus
  rw [haccepted, hreturned, Option.toList_none, List.append_nil, List.append_nil]
  exact htargets

theorem install (h : r.Faithful G log) (target : Target F) :
    (r.install target).2.Faithful G (log ++ [.install target (r.install target).1]) := by
  unfold Registry.install
  split
  · -- a refused installation changes nothing
    exact .snoc_of_none rfl rfl h.targets h.lastStatus
  · exact .snoc (List.rel_append h.targets (.cons .same .nil)) rfl

theorem uninstall (h : r.Faithful G log) :
    r.uninstall.2.Faithful G (log ++ [.uninstall r.uninstall.1]) := by
  unfold Registry.uninstall
  split
  · exact .snoc_of_none rfl rfl h.targets h.lastStatus
  · refine .snoc ?_ h.lastStatus
    show List.Forall₂ (Target.Becomes G) (RegistryEvent.given log ++ [])
      (RegistryEvent.handedBack log ++ r.slot.toList ++ [])
    rw [List.append_nil, List.append_nil]
    exact h.targets

end Registry.Faithful

/-! ## What a history keeps -/

/-- The lock is held for the callback that runs, if there is one, and its target is in the
slot. -/
def Registry.HeldBy (calls : List (RunningCallback F G)) (r : Registry (Target F)) : Prop :=
  (calls = [] ∧ r.locked = false) ∨
    ∃ call, calls = [call] ∧ r.locked = true ∧ r.slot = some call.target

/-- An installation leaves the lock with whom it is. -/
theorem Registry.HeldBy.install {calls : List (RunningCallback F G)} {r : Registry (Target F)}
    (h : r.HeldBy calls) (target : Target F) : (r.install target).2.HeldBy calls := by
  rcases h with ⟨hcalls, hunlocked⟩ | ⟨call, hcalls, hlocked, hslot⟩
  · refine Or.inl ⟨hcalls, ?_⟩
    unfold Registry.install
    rw [hunlocked]
    rfl
  · rw [install_of_locked hlocked]
    exact Or.inr ⟨call, hcalls, hlocked, hslot⟩

/-- So does a removal. -/
theorem Registry.HeldBy.uninstall {calls : List (RunningCallback F G)} {r : Registry (Target F)}
    (h : r.HeldBy calls) : r.uninstall.2.HeldBy calls := by
  rcases h with ⟨hcalls, hunlocked⟩ | ⟨call, hcalls, hlocked, hslot⟩
  · refine Or.inl ⟨hcalls, ?_⟩
    unfold Registry.uninstall
    rw [hunlocked]
    rfl
  · rw [uninstall_of_locked hlocked]
    exact Or.inr ⟨call, hcalls, hlocked, hslot⟩

/-- A target counts as installed exactly if there is one. -/
theorem Registry.HeldBy.isInstalled_iff {calls : List (RunningCallback F G)}
    {r : Registry (Target F)} (h : r.HeldBy calls) : r.isInstalled = true ↔ r.slot ≠ none := by
  unfold Registry.isInstalled
  rcases h with ⟨-, hunlocked⟩ | ⟨call, -, hlocked, hslot⟩
  · rw [hunlocked, Bool.false_or, Option.isSome_iff_ne_none]
  · rw [hlocked, hslot]
    simp

/-- An installation that is refused changes nothing. -/
theorem Registry.install_of_error {r : Registry τ} {target : τ} {status : Status}
    (h : (r.install target).1 = .error status) : (r.install target).2 = r := by
  unfold install at h ⊢
  split at h
  · next hlocked => rw [if_pos hlocked]
  · cases h

/-- A removal that is refused changes nothing. -/
theorem Registry.uninstall_of_error {r : Registry τ} {status : Status}
    (h : r.uninstall.1 = .error status) : r.uninstall.2 = r := by
  unfold uninstall at h ⊢
  split at h
  · next hlocked => rw [if_pos hlocked]
  · cases h

/-- What a callback finds that has passed all checks. -/
theorem CallbackArguments.available_of_admitted {args : CallbackArguments} {entry : Entry}
    {r : Registry τ} {windows : Windows} {target : τ}
    (h : args.admitted entry r = .ok (windows, target)) : r.available = .ok target := by
  obtain ⟨windows', -, hrest⟩ := bind_eq_ok h
  obtain ⟨target', havailable, heq⟩ := bind_eq_ok hrest
  cases heq
  exact havailable

/-- In a history, the lock is held for the running callback, of which there is at most one, and
the registry agrees with the log. -/
theorem Process.History.kept {log : List (RegistryEvent (Target F))}
    {calls : List (RunningCallback F G)} {p : Process F G} (h : History log calls p) :
    p.registry.HeldBy calls ∧ p.registry.Faithful G log := by
  induction h with
  | start rest => exact ⟨Or.inl ⟨rfl, rfl⟩, .nil, rfl⟩
  | elapses h rest ih => exact ih
  | install h target ih => exact ⟨ih.1.install target, ih.2.install target⟩
  | uninstall h ih => exact ⟨ih.1.uninstall, ih.2.uninstall⟩
  | @refused log calls p h engine native args status hadmitted ih =>
    have hcallback := engine.targetSystem.callback_of_error hadmitted
    have hregistry : (engine.callback native args p).2.registry = p.registry.record status := by
      unfold Engine.callback
      rw [hcallback]
    refine ⟨?_, ?_⟩
    · rw [hregistry]
      exact ih.1
    · refine .snoc_of_none rfl rfl ?_ rfl
      rw [hregistry]
      exact ih.2.targets
  | @enter log calls call h ih =>
    obtain ⟨hslot, hunlocked, -⟩ :=
      Registry.available_eq_ok (CallbackArguments.available_of_admitted call.admitted)
    rcases ih.1 with ⟨hcalls, -⟩ | ⟨outer, -, hlocked, -⟩
    · rw [hcalls]
      exact ⟨Or.inr ⟨call, rfl, rfl, hslot⟩, ih.2.targets, ih.2.lastStatus⟩
    · -- no callback is admitted while another one runs
      rw [hunlocked] at hlocked
      cases hlocked
  | @leave log calls p call h hrun ih =>
    have hcallback := call.engine.targetSystem.callback_of_ok call.admitted
      (show _ = call.run from rfl)
    rcases ih.1 with ⟨hcalls, -⟩ | ⟨outer, hcalls, -, hslot⟩
    · cases hcalls
    · obtain ⟨rfl, rfl⟩ := List.cons_eq_cons.mp hcalls
      have htargets := ih.2.targets
      rw [hslot] at htargets
      refine ⟨Or.inl ⟨rfl, ?_⟩, .snoc_of_none rfl rfl ?_ rfl⟩
      · unfold Engine.callback
        rw [hcallback]
        rfl
      · unfold Engine.callback
        rw [hcallback]
        -- the slot holds the same target, run once more
        exact forall₂_exchange_last htargets fun target hbecomes => hbecomes.run call.engine _ _ _

/-- **The registry agrees with what has been done to it.** In every history of installations,
removals and callbacks, also while callbacks run and after panics: the targets that were
handed back and the one in the slot are exactly those that installations have accepted, in
order; what is refused changes nothing; a target counts as installed exactly if the slot holds
one; and the last status is that of the callback that ended last since the last
installation. -/
theorem registry_faithful {log : List (RegistryEvent (Target F))}
    {calls : List (RunningCallback F G)} {p : Process F G} (h : p.History log calls) :
    List.Forall₂ (Target.Becomes G) (RegistryEvent.given log)
      (RegistryEvent.handedBack log ++ p.registry.slot.toList) ∧
    (RegistryEvent.handedBack log ++ p.registry.slot.toList).map Target.serial =
      (RegistryEvent.given log).map Target.serial ∧
    (∀ target status, (p.registry.install target).1 = .error status →
      (p.registry.install target).2 = p.registry) ∧
    (∀ status, p.registry.uninstall.1 = .error status →
      p.registry.uninstall.2 = p.registry) ∧
    (p.registry.isInstalled = true ↔ p.registry.slot ≠ none) ∧
    p.registry.lastStatus = RegistryEvent.lastStatus log := by
  obtain ⟨hheld, hfaithful⟩ := Process.History.kept h
  exact ⟨hfaithful.targets, hfaithful.serials, fun target status => Registry.install_of_error,
    fun status => Registry.uninstall_of_error, hheld.isInstalled_iff, hfaithful.lastStatus⟩

namespace Panicking

/-- The callback in which the target panics. -/
def call : RunningCallback Unit Unit where
  engine := engine
  native := .daskrResidual
  args := Meddling.args
  before := (Process.install target { rest := process.rest }).2
  windows := Meddling.windows
  target := target
  admitted := rfl

/-- What is done: the first target is installed, it panics in a callback during which another
installation is refused, the other target takes its place, and is taken out. -/
def log : List (RegistryEvent (Target Unit)) :=
  [.install target (.ok none), .install other (.error .busy), .ended .panicked,
    .install other (.ok (some target)), .uninstall (.ok (some other))]

/-- The process after the panic and the two updates. -/
def recovered : Process Unit Unit :=
  ((engine.callback .daskrResidual Meddling.args call.before).2.install other).2.uninstall.2

theorem history : recovered.History log [] := by
  have hinstalled := (Process.History.start process.rest).install target
  have hentered := Process.History.enter call hinstalled
  have hrefused := hentered.install other
  have hleft := Process.History.leave hrefused rfl
  exact (hleft.install other).uninstall

end Panicking

/-- In that history, the two targets that were accepted have been handed back in turn, and the
last status is that of the second installation. -/
theorem registry_faithful_panicking :
    Panicking.recovered.History Panicking.log [] ∧
      (RegistryEvent.handedBack Panicking.log).map Target.serial = [0, 1] ∧
      (RegistryEvent.given Panicking.log).map Target.serial = [0, 1] ∧
      ¬ Panicking.recovered.registry.isInstalled = true ∧
      Panicking.recovered.registry.lastStatus = .ok := by
  obtain ⟨-, hserials, -, -, hinstalled, hstatus⟩ := registry_faithful Panicking.history
  have hslot : Panicking.recovered.registry.slot = none := rfl
  rw [hslot, Option.toList_none, List.append_nil] at hserials
  refine ⟨Panicking.history, rfl, hserials.symm, ?_, hstatus⟩
  rw [hinstalled]
  exact fun hsome => hsome hslot

/-! ## Operations as histories -/

/-- What follows a history continues it. -/
def RegistryRelation.recorded : RegistryRelation (Target F) (Shared F G) where
  rel p q := ∀ log calls, Process.History log calls p →
    ∃ later, Process.History (log ++ later) calls q
  apart := by
    rintro p ⟨registry, rest⟩ rfl log calls h
    refine ⟨[], ?_⟩
    rw [List.append_nil]
    exact h.elapses rest
  trans hpq hqr log calls h := by
    obtain ⟨later, hq⟩ := hpq log calls h
    obtain ⟨later', hr⟩ := hqr (log ++ later) calls hq
    refine ⟨later ++ later', ?_⟩
    rw [← List.append_assoc]
    exact hr

/-- Installations, removals and callbacks are recorded, callbacks together with all that
happens in the runs of their targets. -/
theorem RegistryRelation.closed_recorded :
    (recorded : RegistryRelation (Target F) (Shared F G)).Closed where
  install target p log calls h := ⟨_, h.install target⟩
  uninstall p log calls h := ⟨_, h.uninstall⟩
  callback engine hruns native args p log calls h := by
    cases hadmitted : (native.restrict args).admitted native.entry p.registry with
    | error status => exact ⟨_, h.refused engine native args hadmitted⟩
    | ok admitted =>
      let call : RunningCallback F G :=
        ⟨engine, native, args, p, admitted.1, admitted.2, hadmitted⟩
      have hentered := Process.History.enter call h
      obtain ⟨later, hrun⟩ := hruns call.target native.entry call.windows call.entered log
        (call :: calls) hentered
      have hleft := Process.History.leave hrun rfl
      rw [List.append_assoc] at hleft
      exact ⟨_, hleft⟩

/-- **Every operation of a client continues a history**, on machines of any depth; among them
are the native operations and evaluations. -/
theorem Process.History.extend {log : List (RegistryEvent (Target F))}
    {calls : List (RunningCallback F G)} {p : Process F G} (h : p.History log calls)
    (language : Language F G) (depth : Nat) (step : ClientStep F G) :
    ∃ later, (((step.perform language (Engine.ofDepth language depth)).start p).2).History
      (log ++ later) calls := by
  have hclosed : (RegistryRelation.recorded : RegistryRelation (Target F) (Shared F G)).Closed :=
    RegistryRelation.closed_recorded
  have hcalls := Engine.calls_ofDepth language hclosed depth
  exact keeps_clientStep hclosed.toUpdates hcalls language step p log calls h

/-- **So does user code up to every point in it**, while its target runs, in whatever order it
turns to the registry and however deep its calls nest. -/
theorem Engine.During.extend {language : Language F G} {depth : Nat} {entry : Entry}
    {windows : Windows} {p q : Process F G} {target : Target F}
    (hduring : During language depth entry windows p target q)
    (hlocked : p.registry.locked = true) {log : List (RegistryEvent (Target F))}
    {calls : List (RunningCallback F G)} (h : p.History log calls) :
    ∃ later, q.History (log ++ later) calls := by
  refine hduring.rel RegistryRelation.closed_recorded ?_ log calls h
  intro engine access q hq log calls h
  cases access with
  | install target => exact ⟨_, h.install target⟩
  | uninstall => exact ⟨_, h.uninstall⟩
  | callback native args =>
    -- the registry is locked, so this callback gets to no target
    obtain ⟨status, hregistry⟩ := hq.sealed hlocked
    have hstill : q.registry.locked = true := by
      rw [hregistry]
      exact hlocked
    obtain ⟨status', hadmitted⟩ := (native.restrict args).admitted_of_locked native.entry hstill
    exact ⟨_, h.refused engine native args hadmitted⟩

end CallbackBridge
