/-
# The registry while a callback runs

A running callback locks the registry.  `Registry.Sealed` says what can happen to a locked
registry: another status is recorded, and nothing else.  Installations, removals and callbacks
keep to that, since none of them gets past the lock, and so does everything else
(`RegistryRelation.closed_sealed`).
-/
import CallbackBridge.Proofs.UserLevels
namespace CallbackBridge

variable {τ ω F G : Type}

/-! ## Sealed registries -/

namespace Registry

variable {r r' r'' : Registry τ}

/-- If a callback is running, the registry changes at most in its last status. -/
def Sealed (r r' : Registry τ) : Prop :=
  r.locked = true → ∃ status, r' = r.record status

namespace Sealed

theorem refl (r : Registry τ) : r.Sealed r := by
  intro _
  exact ⟨r.lastStatus, rfl⟩

theorem of_eq (h : r' = r) : r.Sealed r' := by
  rw [h]
  exact refl r

theorem trans (h : r.Sealed r') (h' : r'.Sealed r'') : r.Sealed r'' := by
  intro hlocked
  obtain ⟨status, rfl⟩ := h hlocked
  -- recording leaves the lock alone
  obtain ⟨status', rfl⟩ := h' hlocked
  exact ⟨status', rfl⟩

end Sealed

/-- While a callback runs, every installation is refused. -/
theorem install_of_locked (hlocked : r.locked = true) (target : τ) :
    r.install target = (.error .busy, r) := by
  unfold install
  rw [if_pos hlocked]

/-- While a callback runs, every removal is refused. -/
theorem uninstall_of_locked (hlocked : r.locked = true) : r.uninstall = (.error .busy, r) := by
  unfold uninstall
  rw [if_pos hlocked]

/-- While a callback runs, there is no target to enter. -/
theorem available_of_locked (hlocked : r.locked = true) : r.available = .error .busy := by
  unfold available
  rw [if_pos hlocked]

theorem sealed_install (r : Registry τ) (target : τ) : r.Sealed (r.install target).2 := by
  intro hlocked
  rw [install_of_locked hlocked]
  exact Sealed.refl r hlocked

theorem sealed_uninstall (r : Registry τ) : r.Sealed r.uninstall.2 := by
  intro hlocked
  rw [uninstall_of_locked hlocked]
  exact Sealed.refl r hlocked

end Registry

/-! ## Callbacks -/

/-- While a callback runs no other is let in, whatever its pointers are. -/
theorem CallbackArguments.admitted_of_locked (args : CallbackArguments) (entry : Entry)
    {r : Registry τ} (hlocked : r.locked = true) :
    ∃ status, args.admitted entry r = .error status :=
  args.admitted_of_available_error entry (Registry.available_of_locked hlocked)

/-- A callback during another one records a status, and does nothing else. -/
theorem TargetSystem.sealed_callback (system : TargetSystem τ ω) (entry : Entry)
    (args : CallbackArguments) (s : NativeState τ ω) :
    s.registry.Sealed (system.callback entry args s).2.registry := by
  intro hlocked
  obtain ⟨status, hadmitted⟩ := args.admitted_of_locked entry hlocked
  rw [system.callback_of_error hadmitted]
  exact ⟨status, rfl⟩

/-! ## Everything else -/

/-- A locked registry changes at most in its last status. -/
def RegistryRelation.sealed : RegistryRelation τ ω where
  rel s s' := s.registry.Sealed s'.registry
  apart := Registry.Sealed.of_eq
  trans := Registry.Sealed.trans

/-- **Whatever is done while a callback runs**, the registry changes at most in its last
status. -/
theorem RegistryRelation.closed_sealed :
    (sealed : RegistryRelation (Target F) (Shared F G)).Closed where
  install target s := s.registry.sealed_install target
  uninstall s := s.registry.sealed_uninstall
  callback engine _ native _ p := engine.targetSystem.sealed_callback native.entry _ p

/-- A run of a target, too, leaves a locked registry as it was, but for the last status. -/
theorem Engine.sealed_runTarget (language : Language F G) (depth : Nat) (entry : Entry)
    (windows : Windows) (p : Process F G) (target : Target F) :
    p.registry.Sealed
      ((ofDepth language depth).runTarget target entry windows p).state.registry :=
  rel_runTarget language RegistryRelation.closed_sealed depth target entry windows p

end CallbackBridge
