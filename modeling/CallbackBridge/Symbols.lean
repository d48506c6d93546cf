/-
# Finding the user functions

The user functions are looked up by name, either once when a bridge is set up or
anew in every invocation.  A name must be bound to something that can be called.
-/
import CallbackBridge.Guard
namespace CallbackBridge

/-! ## Looking a function up -/

/-- The callable value bound to a name. -/
def resolveFunction {σ R K : Type} (host : HostRuntime σ R K) (name : String) :
    Act σ BridgeError R := do
  match ← Act.total (host.resolve name) with
  | none => Act.fail (.unresolvedBinding name)
  | some value =>
    if ← Act.total (host.isCallable value) then
      return value
    else
      let found ← Act.total (host.typeName value)
      Act.fail (.typeMismatch name "callable" found)

/-! ## Bindings -/

/-- Handles of the user functions, held from setup to teardown. -/
structure Bindings (K : Type) where
  /-- The residual function. -/
  residual : K
  /-- The event function, if there is one. -/
  event : Option K
  deriving DecidableEq, Repr, Inhabited

namespace Bindings

variable {σ R K : Type}

/-- Looks up both functions and roots them.  A missing event function only means
that there is no root finding; nothing is rooted before both lookups are done. -/
def resolve (host : HostRuntime σ R K) (names : BindingNames) :
    Act σ BridgeError (Bindings K) := do
  let residual ← resolveFunction host names.residual
  let event ← match names.event with
    | none => pure none
    | some name =>
      match ← Act.caught (resolveFunction host name) with
      | .ok value => pure (some value)
      | .error (.unresolvedBinding _) => pure none
      | .error e => Act.fail e
  let residual ← Act.total (host.persist residual)
  match event with
  | none => return ⟨residual, none⟩
  | some value =>
    let event ← Act.total (host.persist value)
    return ⟨residual, some event⟩

/-- Gives up the roots of both functions. -/
def release (host : HostRuntime σ R K) (bindings : Bindings K) (s : σ) : σ :=
  let s := host.release bindings.residual s
  match bindings.event with
  | none => s
  | some event => host.release event s

end Bindings

/-! ## The function of an invocation -/

/-- The two things that a solver asks for. -/
inductive Entry where
  /-- The residual of the system, one number for each state variable. -/
  | residual
  /-- The event functions, one number for each event. -/
  | event
  deriving DecidableEq, Repr, Inhabited

/-- Where an invocation gets its user function from. -/
inductive Symbols (K : Type) where
  /-- From handles that were made at setup. -/
  | bound (bindings : Bindings K)
  /-- From the namespace, anew in every invocation. -/
  | perCall
  deriving DecidableEq, Repr, Inhabited

namespace Symbols

variable {σ R K : Type}

/-- The user function for an entry point and the name under which its failures are
reported; not yet pinned. -/
def find (host : HostRuntime σ R K) (symbols : Symbols K) (names : BindingNames)
    (entry : Entry) : Step σ R K (R × String) :=
  match symbols, entry with
  | bound bindings, .residual => do
    return (← Step.ofHost (host.attach bindings.residual), names.residual)
  | bound bindings, .event =>
    match bindings.event with
    | none => Act.fail (.unresolvedBinding names.eventName)
    | some handle => do return (← Step.ofHost (host.attach handle), names.eventName)
  | perCall, .residual => do
    return (← Step.onHost (resolveFunction host names.residual), names.residual)
  | perCall, .event =>
    match names.event with
    | none => Act.fail (.unresolvedBinding names.eventName)
    | some name => do return (← Step.onHost (resolveFunction host name), name)

/-- The user function for an entry point, pinned. -/
def obtain (host : HostRuntime σ R K) (symbols : Symbols K) (names : BindingNames)
    (entry : Entry) : Step σ R K (R × String) := do
  let (function, name) ← find host symbols names entry
  Step.root host function
  return (function, name)

end Symbols

end CallbackBridge
