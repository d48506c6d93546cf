/-
# The guard of one invocation

Every value that an invocation obtains from the host is pinned when it is obtained,
and every view is adopted beside that.  When the invocation ends, however it
ends, the guard closes: it retires the adopted views in the order of adoption and
then undoes the pins, the latest first.
-/
import CallbackBridge.Host
import CallbackBridge.Output
namespace CallbackBridge

/-! ## What a guard holds -/

/-- The pins and views that one invocation has to give back. -/
structure RootGuard (R : Type) where
  /-- The pinned values, the latest first. -/
  pinned : List R := []
  /-- The adopted views, the earliest first. -/
  views : List R := []
  deriving Inhabited

namespace RootGuard

variable {σ R K : Type}

/-- Retires the views in the order of adoption. -/
def retireAll (host : HostRuntime σ R K) (views : List R) (s : σ) : σ :=
  views.foldl (fun s view => host.retire view s) s

/-- Undoes pins in the given order. -/
def unpinAll (host : HostRuntime σ R K) (values : List R) (s : σ) : σ :=
  values.foldl (fun s value => host.unpin value s) s

/-- Gives back everything: first the views, then the pins. -/
def close (host : HostRuntime σ R K) (guard : RootGuard R) (s : σ) : σ :=
  unpinAll host guard.pinned (retireAll host guard.views s)

end RootGuard

/-! ## Steps under a guard -/

/-- What the steps of one invocation work on. -/
structure Frame (σ R K : Type) where
  /-- The state of the host. -/
  host : σ
  /-- What has to be given back at the end. -/
  guard : RootGuard R
  /-- The handles of the long-lived views, once they exist. -/
  reusable : Option (StateViews K)
  /-- The solver's output. -/
  res : Output

/-- One step of an invocation. -/
abbrev Step (σ R K α : Type) : Type := Act (Frame σ R K) BridgeError α

namespace Step

variable {σ R K α : Type}

/-- An operation of the host that cannot fail. -/
def ofHost (operation : σ → α × σ) : Step σ R K α :=
  Act.total fun frame =>
    let (a, host) := operation frame.host
    (a, { frame with host })

/-- An operation of the host that may fail, with the name that its errors get
here. -/
def tryHost (classify : HostError → BridgeError) (operation : σ → Except HostError α × σ) :
    Step σ R K α :=
  Act.checked fun frame =>
    let (result, host) := operation frame.host
    (result.mapError classify, { frame with host })

/-- A computation on the host that is part of the invocation. -/
def onHost (act : Act σ BridgeError α) : Step σ R K α :=
  Act.zoom Frame.host (fun host frame => { frame with host }) act

/-- Pins a value until the guard closes. -/
def root (host : HostRuntime σ R K) (value : R) : Step σ R K Unit :=
  Act.total fun frame =>
    ((), { frame with
      host := host.pin value frame.host
      guard := { frame.guard with pinned := value :: frame.guard.pinned } })

/-- Pins a view and takes charge of retiring it. -/
def adopt (host : HostRuntime σ R K) (view : R) : Step σ R K Unit := do
  root host view
  Act.total fun frame =>
    ((), { frame with guard := { frame.guard with views := frame.guard.views ++ [view] } })

end Step

end CallbackBridge
