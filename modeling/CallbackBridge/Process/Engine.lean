/-
# Running targets and user code

A target is entered through a bridge, the bridge calls user code, and user code can
carry out any operation on the process, callbacks included.  An `Engine` runs both
kinds of user code; `targetSystem` enters targets with it.
-/
import CallbackBridge.Counted.Runtime
namespace CallbackBridge

/-- Machines for both kinds of user code. -/
structure Engine (F G : Type) where
  /-- Runs native code on a heap. -/
  native : Runner F (Process F G)
  /-- Runs the code of callables. -/
  callable : CallableRunner F G

namespace Engine

variable {F G : Type}

/-- The machines without any level left. -/
def exhausted : Engine F G where
  native := Runner.exhausted
  callable _ _ := Act.panic "call depth exceeded"

/-- Enters a session with the managed heap. -/
def runSession (engine : Engine F G) (session : HeapSession F) (entry : Entry)
    (windows : Windows) (p : Process F G) :
    Evaluation (HeapWorld F (Process F G)) Rooted × HeapSession F :=
  let (call, memory) := windows.expose session.memory
  let result := session.bridge.evaluate (HeapWorld.runtime engine.native) entry call
    ⟨session.heap, memory, p⟩
  (result, ⟨result.host.heap, call.withdraw result.host.memory, result.bridge⟩)

/-- Enters a bridge into the reference-counting host. -/
def runCounted (engine : Engine F G) (bridge : Bridge ObjId) (dict : Option ObjId)
    (entry : Entry) (windows : Windows) (p : Process F G) :
    Evaluation (CountedWorld F G) ObjId :=
  let (call, memory) := windows.expose {}
  bridge.evaluate (CountedWorld.runtime engine.callable) entry call
    { process := p, memory, dict }

/-- Enters a target. -/
def runTarget (engine : Engine F G) (target : Target F) (entry : Entry) (windows : Windows)
    (p : Process F G) : TargetRun (Target F) (Shared F G) :=
  match target.body with
  | .session session =>
    let (result, session) := engine.runSession session entry windows p
    ⟨result.outcome, result.res, { target with body := .session session }, result.host.outside⟩
  | .planned plan =>
    let (outcome, res, plan) := plan.call windows.res
    ⟨outcome, res, { target with body := .planned plan }, p⟩
  | .counted bridge dict =>
    let result := engine.runCounted bridge dict entry windows p
    ⟨result.outcome, result.res, { target with body := .counted result.bridge dict },
      result.host.process⟩

/-- What targets do when a callback enters them. -/
def targetSystem (engine : Engine F G) : TargetSystem (Target F) (Shared F G) where
  policy := Target.policy
  run := engine.runTarget

/-- Runs a native callback. -/
def callback (engine : Engine F G) (entry : NativeEntry) (args : CallbackArguments)
    (p : Process F G) : CallbackEffect × Process F G :=
  engine.targetSystem.callback entry.entry (entry.restrict args) p

end Engine

end CallbackBridge
