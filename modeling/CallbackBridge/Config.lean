/-
# Bridge configuration

A configuration is checked once, when a bridge is built.  It fixes how views are
obtained, what a failing user function asks of the solver, which lengths every
call must have, and under which names the user functions are found.
-/
namespace CallbackBridge

/-! ## Choices -/

/-- How a view of a solver argument is obtained for a call. -/
inductive ViewStrategy where
  /-- A new view for every call. -/
  | fresh
  /-- One long-lived view for each role, pointed at each call's buffers. -/
  | reuse
  deriving DecidableEq, Repr, Inhabited

/-- What a failing user function asks the solver to do. -/
inductive FailurePolicy where
  /-- End the integration. -/
  | abort
  /-- Try again with a smaller step. -/
  | retrySmallerStep
  deriving DecidableEq, Repr, Inhabited

/-- The name of a failure policy. -/
def FailurePolicy.title : FailurePolicy → String
  | .abort => "Abort"
  | .retrySmallerStep => "RetrySmallerStep"

/-! ## Binding names -/

/-- The names under which the user functions are bound. -/
structure BindingNames where
  /-- The residual function. -/
  residual : String
  /-- The event function, if root finding is on. -/
  event : Option String
  deriving DecidableEq, Repr

namespace BindingNames

/-- The name of the residual function in the DASKR interface. -/
def daskrResidual : String := "__daskr_res_callback"

/-- The name of the event function in the DASKR interface. -/
def daskrEvent : String := "__daskr_event_callback"

/-- The name of the residual function in the DASSL interface. -/
def dasslResidual : String := "__dassl_res_callback"

/-- The names of the DASKR interface: residual and event function. -/
def daskr : BindingNames := ⟨daskrResidual, some daskrEvent⟩

/-- The names of the DASSL interface: a residual function only. -/
def dassl : BindingNames := ⟨dasslResidual, none⟩

instance : Inhabited BindingNames := ⟨daskr⟩

/-- The name of the event function, or a placeholder if none is configured. -/
def eventName (names : BindingNames) : String :=
  names.event.getD "<event function>"

end BindingNames

/-! ## Configuration -/

/-- The settings of a bridge. -/
structure BridgeConfig where
  /-- How views are obtained. -/
  strategy : ViewStrategy := .fresh
  /-- What a failing user function asks of the solver. -/
  userFailure : FailurePolicy := .abort
  /-- The state length that every call must have, if one is prescribed. -/
  stateLen : Option Nat := none
  /-- The event count that every event call must have, if one is prescribed. -/
  eventCount : Option Nat := none
  /-- The names of the user functions. -/
  names : BindingNames := .daskr
  deriving DecidableEq, Repr, Inhabited

/-- Why a configuration is rejected. -/
inductive ConfigError where
  /-- A system needs at least one state variable. -/
  | zeroStateLen
  /-- The name of a binding is empty. -/
  | emptyBindingName (role : String)
  deriving DecidableEq, Repr

/-- The text of the rejection. -/
def ConfigError.message : ConfigError → String
  | .zeroStateLen => "state_len must be at least 1"
  | .emptyBindingName role => role ++ " binding name is empty"

/-- Accepts a configuration or gives the first thing wrong with it. -/
def BridgeConfig.validate (config : BridgeConfig) : Except ConfigError Unit :=
  if config.stateLen = some 0 then .error .zeroStateLen
  else if config.names.residual = "" then .error (.emptyBindingName "residual")
  else if config.names.event = some "" then .error (.emptyBindingName "event")
  else .ok ()

end CallbackBridge
