/-
# Outcomes of code that may fail or panic

Code called through the bridge ends in one of three ways: with a value, with an
error that its caller is told about, or by a panic that unwinds through every
caller until something contains it.  Effects up to that point remain in all
three cases, so an action returns the state beside its outcome.
-/
namespace CallbackBridge

/-! ## Outcomes -/

/-- The ways to end without a value. -/
inductive Stop (ε : Type) where
  /-- Reported to the caller. -/
  | error (e : ε)
  /-- Unwinds past the caller. -/
  | panic (message : String)
  deriving DecidableEq, Repr

/-- How a computation ended. -/
abbrev Outcome (ε α : Type) : Type := Except (Stop ε) α

namespace Outcome

variable {ε δ α : Type}

/-- The outcome of a computation that cannot panic. -/
def ofExcept : Except ε α → Outcome ε α
  | .ok a => .ok a
  | .error e => .error (.error e)

/-- Renames the error and leaves values and panics alone. -/
def mapError (f : ε → δ) : Outcome ε α → Outcome δ α
  | .ok a => .ok a
  | .error (.error e) => .error (.error (f e))
  | .error (.panic message) => .error (.panic message)

/-- Whether the computation unwound. -/
def panicked : Outcome ε α → Bool
  | .error (.panic _) => true
  | _ => false

end Outcome

/-! ## Actions -/

/-- A computation on a state that may fail or panic and keeps its effects. -/
abbrev Act (σ ε α : Type) : Type := ExceptT (Stop ε) (StateM σ) α

namespace Act

variable {σ τ ε δ α β : Type}

/-- Runs the action from a state. -/
def start (act : Act σ ε α) (s : σ) : Outcome ε α × σ := act s

/-- The action that performs a state change and returns what it yields. -/
def ofStep (step : σ → Outcome ε α × σ) : Act σ ε α := step

/-- An action that neither fails nor panics. -/
def total (step : σ → α × σ) : Act σ ε α := fun s =>
  let (a, s) := step s
  (.ok a, s)

/-- An action that may fail but not panic. -/
def checked (step : σ → Except ε α × σ) : Act σ ε α := fun s =>
  let (result, s) := step s
  (Outcome.ofExcept result, s)

/-- Stops with an error. -/
def fail (e : ε) : Act σ ε α := fun s => (.error (.error e), s)

/-- Unwinds. -/
def panic (message : String) : Act σ ε α := fun s => (.error (.panic message), s)

/-- Ends with an outcome that is already known. -/
def finish (outcome : Outcome ε α) : Act σ ε α := fun s => (outcome, s)

/-- Renames the error of an action. -/
def mapError (f : ε → δ) (act : Act σ ε α) : Act σ δ α := fun s =>
  let (outcome, s) := act s
  (Outcome.mapError f outcome, s)

/-- Hands an error to the caller as a value; a panic still unwinds. -/
def caught (act : Act σ ε α) : Act σ δ (Except ε α) := fun s =>
  match act s with
  | (.ok a, s) => (.ok (.ok a), s)
  | (.error (.error e), s) => (.ok (.error e), s)
  | (.error (.panic message), s) => (.error (.panic message), s)

/-- An action that cannot fail, where others can. -/
def widen (act : Act σ Empty α) : Act σ ε α := mapError Empty.elim act

/-- Runs an action on a part of the state. -/
def zoom (get : τ → σ) (set : σ → τ → τ) (act : Act σ ε α) : Act τ ε α := fun t =>
  let (outcome, s) := act (get t)
  (outcome, set s t)

/-- Runs a final state change after the action, however the action ended. -/
def ensuring (act : Act σ ε α) (cleanup : σ → σ) : Act σ ε α := fun s =>
  let (outcome, s) := act s
  (outcome, cleanup s)

end Act

/-! ## Programs

User code is a tree: it asks its surroundings for something, receives a reply and
continues, until it ends.  Quantifying over such trees is quantifying over all
user code that talks to its surroundings through the given commands. -/

/-- Code that issues commands and continues with their replies. -/
inductive Program (Command : Type) (Reply : Command → Type) (ε α : Type) : Type where
  /-- Ends here. -/
  | done (outcome : Outcome ε α)
  /-- Issues a command and continues with its reply. -/
  | ask (command : Command) (next : Reply command → Program Command Reply ε α)

namespace Program

variable {Command : Type} {Reply : Command → Type} {σ ε α β : Type}

/-- Continues after the value of a program. -/
def bind (p : Program Command Reply ε α) (f : α → Program Command Reply ε β) :
    Program Command Reply ε β :=
  match p with
  | done (.ok a) => f a
  | done (.error stop) => done (.error stop)
  | ask command next => ask command fun reply => (next reply).bind f

instance : Monad (Program Command Reply ε) where
  pure a := done (.ok a)
  bind := bind

/-- Issues one command and returns its reply. -/
def perform (command : Command) : Program Command Reply ε (Reply command) :=
  ask command fun reply => done (.ok reply)

/-- Stops with an error. -/
def fail (e : ε) : Program Command Reply ε α := done (.error (.error e))

/-- Unwinds. -/
def panic (message : String) : Program Command Reply ε α := done (.error (.panic message))

/-- Carries a program out, given what each command does. -/
def execute (handle : (command : Command) → Act σ ε (Reply command)) :
    Program Command Reply ε α → Act σ ε α
  | done outcome => Act.finish outcome
  | ask command next => do execute handle (next (← handle command))

end Program

end CallbackBridge
