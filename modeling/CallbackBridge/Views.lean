/-
# Views of the solver's arguments

A user function sees `t`, `y` and `yp` through views.  A view is pinned and adopted
before the next one is asked for, so that a collection between the two cannot take
it away.  Under reuse, the first invocation that obtains all three views keeps
handles to them, and later invocations point the same views at their own buffers.
-/
import CallbackBridge.Guard
namespace CallbackBridge

namespace StateViews

variable {σ R K : Type}

/-- A new view of one buffer, adopted at once. -/
def materializeOne (host : HostRuntime σ R K) (buffer : Buffer) : Step σ R K R := do
  let view ← Step.tryHost .host (host.materialize buffer)
  Step.adopt host view
  return view

/-- New views of all three buffers. -/
def materialize (host : HostRuntime σ R K) (buffers : StateViews Buffer) :
    Step σ R K (StateViews R) := do
  let t ← materializeOne host buffers.t
  let y ← materializeOne host buffers.y
  let yp ← materializeOne host buffers.yp
  return ⟨t, y, yp⟩

/-- Keeps handles to views for the invocations that follow. -/
def persist (host : HostRuntime σ R K) (views : StateViews R) : Step σ R K Unit := do
  let t ← Step.ofHost (host.persist views.t)
  let y ← Step.ofHost (host.persist views.y)
  let yp ← Step.ofHost (host.persist views.yp)
  Act.total fun frame => ((), { frame with reusable := some ⟨t, y, yp⟩ })

/-- References to the views behind the kept handles. -/
def attach (host : HostRuntime σ R K) (handles : StateViews K) :
    Step σ R K (StateViews R) := do
  let t ← Step.ofHost (host.attach handles.t)
  let y ← Step.ofHost (host.attach handles.y)
  let yp ← Step.ofHost (host.attach handles.yp)
  return ⟨t, y, yp⟩

/-- Points a view at a buffer and adopts it at once. -/
def repointOne (host : HostRuntime σ R K) (view : R) (buffer : Buffer) : Step σ R K Unit := do
  Step.tryHost .host (host.repoint view buffer)
  Step.adopt host view

/-- Points all three views at the buffers of this invocation. -/
def repoint (host : HostRuntime σ R K) (views : StateViews R) (buffers : StateViews Buffer) :
    Step σ R K Unit := do
  repointOne host views.t buffers.t
  repointOne host views.y buffers.y
  repointOne host views.yp buffers.yp

/-- The kept views pointed at the buffers, or new ones that are then kept. -/
def reuse (host : HostRuntime σ R K) (buffers : StateViews Buffer) :
    Step σ R K (StateViews R) := do
  if !host.supportsReuse then
    Act.fail (.host (.unsupported "view reuse"))
  else
    match ← Act.total fun frame => (frame.reusable, frame) with
    | none =>
      let views ← materialize host buffers
      persist host views
      return views
    | some handles =>
      let views ← attach host handles
      repoint host views buffers
      return views

/-- Views of the three buffers, obtained as the strategy says. -/
def obtain (host : HostRuntime σ R K) (strategy : ViewStrategy) (buffers : StateViews Buffer) :
    Step σ R K (StateViews R) :=
  match strategy with
  | .fresh => materialize host buffers
  | .reuse => reuse host buffers

end StateViews

end CallbackBridge
