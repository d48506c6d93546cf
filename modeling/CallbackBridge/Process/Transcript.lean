/-
# Transcripts

A transcript shows, step by step, what a process answers and what its user code has
noted, warned about and printed during the step.
-/
import CallbackBridge.Process.Machine
namespace CallbackBridge

/-- What one step shows. -/
structure Shown (α : Type) where
  /-- The answer, unless the step panicked. -/
  answer : Outcome Empty α
  /-- The notes of user code, in order. -/
  log : List LogEntry
  /-- The warnings, in order. -/
  warnings : List String
  /-- The printed exceptions, in order. -/
  printed : List String
  deriving Inhabited

namespace Process

variable {F G α β : Type}

/-- Forgets what was noted, warned about and printed. -/
def clear : Process F G → Process F G :=
  update fun s => { s with log := [], warnings := [], printed := [] }

/-- Carries out one step and shows what it did. -/
def showStep (step : Act (Process F G) Empty α) (p : Process F G) :
    Shown α × Process F G :=
  let (answer, p) := step.start p
  (⟨answer, p.rest.log.reverse, p.rest.warnings.reverse, p.rest.printed.reverse⟩, p.clear)

/-- Carries out steps one after the other and shows what each did. -/
def showAll (perform : β → Act (Process F G) Empty α) :
    List β → Process F G → List (Shown α)
  | [], _ => []
  | step :: rest, p =>
    let (shown, p) := p.showStep (perform step)
    shown :: showAll perform rest p

end Process

/-- The transcript of native operations in a new process. -/
def NativeStep.transcript {F G : Type} (language : Language F G) (engine : Engine F G)
    (steps : List (NativeStep F)) : List (Shown NativeReply) :=
  Process.showAll (fun step => step.perform language engine) steps .start

/-- The transcript of operations of a client in a new process. -/
def ClientStep.transcript {F G : Type} (language : Language F G) (engine : Engine F G)
    (steps : List (ClientStep F G)) : List (Shown ClientAnswer) :=
  Process.showAll (fun step => step.perform language engine) steps .start

end CallbackBridge
