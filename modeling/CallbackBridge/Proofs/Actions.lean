/-
# Actions and programs, step by step

What an action does that is put together from others, and which commands a program can
issue.
-/
import CallbackBridge.Outcome
namespace CallbackBridge

/-! ## Results -/

/-- A computation in steps that gives a value gives one in each of them. -/
theorem bind_eq_ok {ε α β : Type} {x : Except ε α} {f : α → Except ε β} {b : β}
    (h : (x >>= f) = .ok b) : ∃ a, x = .ok a ∧ f a = .ok b := by
  cases x with
  | error e => cases h
  | ok a => exact ⟨a, rfl, h⟩

/-- A computation in steps that fails does so in one of them. -/
theorem bind_eq_error {ε α β : Type} {x : Except ε α} {f : α → Except ε β} {e : ε}
    (h : (x >>= f) = .error e) : x = .error e ∨ ∃ a, x = .ok a ∧ f a = .error e := by
  cases x with
  | error e' =>
    cases h
    exact Or.inl rfl
  | ok a => exact Or.inr ⟨a, rfl, h⟩

/-! ## Actions -/

namespace Act

variable {σ ε δ α β : Type}

/-- An action that follows another one starts where that one ended, if it ended with a
value. -/
theorem start_bind (act : Act σ ε α) (f : α → Act σ ε β) (s : σ) :
    (act >>= f).start s =
      match act.start s with
      | (.ok a, s') => (f a).start s'
      | (.error stop, s') => (.error stop, s') := by
  show (ExceptT.bindCont f (act s).1 : StateM σ _) (act s).2 = _
  unfold start
  cases hact : act s with
  | mk outcome s' => cases outcome <;> rfl

/-- An action that ends with a value is followed by the next one. -/
theorem start_bind_of_ok {act : Act σ ε α} {s s' : σ} {a : α}
    (h : act.start s = (.ok a, s')) (f : α → Act σ ε β) :
    (act >>= f).start s = (f a).start s' := by
  rw [start_bind, h]

/-- An action that stops is followed by nothing. -/
theorem start_bind_of_error {act : Act σ ε α} {s s' : σ} {stop : Stop ε}
    (h : act.start s = (.error stop, s')) (f : α → Act σ ε β) :
    (act >>= f).start s = (.error stop, s') := by
  rw [start_bind, h]

/-- An action that cannot stop is followed by the next one. -/
theorem start_bind_total (step : σ → α × σ) (f : α → Act σ ε β) (s : σ) :
    (Act.total step >>= f).start s = (f (step s).1).start (step s).2 :=
  start_bind_of_ok rfl f

theorem start_mapError (f : ε → δ) (act : Act σ ε α) (s : σ) :
    (mapError f act).start s = (Outcome.mapError f (act.start s).1, (act.start s).2) := rfl

@[simp] theorem start_pure (a : α) (s : σ) : (pure a : Act σ ε α).start s = (.ok a, s) := rfl

/-- Handing an error over as a value changes nothing in the state. -/
theorem start_caught_snd (act : Act σ ε α) (s : σ) :
    ((caught act : Act σ δ _).start s).2 = (act.start s).2 := by
  unfold caught start
  dsimp only
  rcases act s with ⟨stop | a, s'⟩
  · cases stop <;> rfl
  · rfl

end Act

/-! ## Programs -/

namespace Program

variable {Command : Type} {Reply : Command → Type} {σ ε α β : Type}

/-- Every command that the program can issue is allowed. -/
def All (allowed : Command → Prop) : Program Command Reply ε α → Prop
  | done _ => True
  | ask command next => allowed command ∧ ∀ reply, (next reply).All allowed

/-- A program followed by others issues the commands of both. -/
theorem All.bind {allowed : Command → Prop} {p : Program Command Reply ε α}
    {f : α → Program Command Reply ε β} (hp : p.All allowed) (hf : ∀ a, (f a).All allowed) :
    (p >>= f).All allowed := by
  show (Program.bind p f).All allowed
  induction p with
  | done outcome =>
    cases outcome with
    | ok a => exact hf a
    | error stop => exact trivial
  | ask command next ih => exact ⟨hp.1, fun reply => ih reply (hp.2 reply)⟩

/-- Fewer commands are allowed where more are. -/
theorem All.mono {allowed permitted : Command → Prop} {p : Program Command Reply ε α}
    (hp : p.All allowed) (h : ∀ command, allowed command → permitted command) :
    p.All permitted := by
  induction p with
  | done outcome => exact trivial
  | ask command next ih => exact ⟨h command hp.1, fun reply => ih reply (hp.2 reply)⟩

/-- A program that issues a command goes on with the reply, if there is one. -/
theorem start_execute_ask (handle : (command : Command) → Act σ ε (Reply command))
    (command : Command) (next : Reply command → Program Command Reply ε α) (s : σ) :
    ((ask command next).execute handle).start s =
      match (handle command).start s with
      | (.ok reply, s') => ((next reply).execute handle).start s'
      | (.error stop, s') => (.error stop, s') := by
  show ((handle command) >>= fun reply => (next reply).execute handle).start s = _
  rw [Act.start_bind]
  rcases (handle command).start s with ⟨stop | reply, s'⟩ <;> rfl

/-- A program that follows another one starts where that one ended, if it ended with a
value. -/
theorem start_execute_bind (handle : (command : Command) → Act σ ε (Reply command))
    (p : Program Command Reply ε α) (f : α → Program Command Reply ε β) (s : σ) :
    ((p >>= f).execute handle).start s =
      match (p.execute handle).start s with
      | (.ok a, s') => ((f a).execute handle).start s'
      | (.error stop, s') => (.error stop, s') := by
  induction p generalizing s with
  | done outcome => cases outcome <;> rfl
  | ask command next ih =>
    show ((ask command fun reply => next reply >>= f).execute handle).start s = _
    rw [start_execute_ask, start_execute_ask]
    cases hreply : (handle command).start s with
    | mk outcome s' =>
      cases outcome with
      | error stop => rfl
      | ok reply => exact ih reply s'

end Program

end CallbackBridge
