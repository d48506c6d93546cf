/-
# Two runs side by side

Two runs of the same code, on states that need not be of the same kind, are compared by a relation
between their states: if it holds before a step, both steps give the same, and it holds after them
(`Alongside`).  Actions that are put together from such steps are coupled again, and so are
programs (`Program.coupled_execute`).

User code is coupled if its plain commands are and the heaps agree on what a call looks at
(`HeapWorld.Coupling.answer`); what the code on the levels below does is then coupled, too.

As a use of this, `Runner.observed` is a machine that writes down everything that user code gets
to see, and otherwise does what the machine without notes does (`Runner.coupled_observed`).
-/
import CallbackBridge.Proofs.UserCode
namespace CallbackBridge

/-! ## Steps and actions -/

section Actions

variable {σ σ' ε δ α β : Type} {rel : σ → σ' → Prop}

/-- The same was given, and the states are related. -/
def Agree (rel : σ → σ' → Prop) (given : α × σ) (given' : α × σ') : Prop :=
  given.1 = given'.1 ∧ rel given.2 given'.2

/-- From related states, the steps give the same and lead to related states. -/
def Alongside (rel : σ → σ' → Prop) (step : σ → α × σ) (step' : σ' → α × σ') : Prop :=
  ∀ s s', rel s s' → Agree rel (step s) (step' s')

namespace Act

/-- From related states, the actions end alike and leave related states. -/
def Coupled (rel : σ → σ' → Prop) (act : Act σ ε α) (act' : Act σ' ε α) : Prop :=
  Alongside rel act.start act'.start

theorem Coupled.finish (outcome : Outcome ε α) :
    Coupled rel (Act.finish outcome) (Act.finish outcome) := fun _ _ h => ⟨rfl, h⟩

theorem Coupled.pure (a : α) : Coupled rel (pure a : Act σ ε α) (pure a) := .finish (.ok a)

theorem Coupled.fail (e : ε) : Coupled rel (Act.fail e : Act σ ε α) (Act.fail e) :=
  .finish (.error (.error e))

theorem Coupled.panic (message : String) :
    Coupled rel (Act.panic message : Act σ ε α) (Act.panic message) :=
  .finish (.error (.panic message))

theorem Coupled.total {step : σ → α × σ} {step' : σ' → α × σ'} (h : Alongside rel step step') :
    Coupled rel (Act.total step : Act σ ε α) (Act.total step') := by
  intro s s' hrel
  obtain ⟨heq, hnext⟩ := h s s' hrel
  exact ⟨congrArg Except.ok heq, hnext⟩

theorem Coupled.checked {step : σ → Except ε α × σ} {step' : σ' → Except ε α × σ'}
    (h : Alongside rel step step') : Coupled rel (Act.checked step) (Act.checked step') := by
  intro s s' hrel
  obtain ⟨heq, hnext⟩ := h s s' hrel
  exact ⟨congrArg Outcome.ofExcept heq, hnext⟩

theorem Coupled.mapError {act : Act σ ε α} {act' : Act σ' ε α} (h : Coupled rel act act')
    (f : ε → δ) : Coupled rel (Act.mapError f act) (Act.mapError f act') := by
  intro s s' hrel
  obtain ⟨heq, hnext⟩ := h s s' hrel
  exact ⟨congrArg (Outcome.mapError f) heq, hnext⟩

/-- What an action that is caught ends with. -/
theorem start_caught_fst (act : Act σ ε α) (s : σ) :
    ((caught act : Act σ δ _).start s).1 =
      match (act.start s).1 with
      | .ok a => .ok (.ok a)
      | .error (.error e) => .ok (.error e)
      | .error (.panic message) => .error (.panic message) := by
  unfold caught start
  dsimp only
  rcases act s with ⟨stop | a, s'⟩
  · cases stop <;> rfl
  · rfl

theorem Coupled.caught {act : Act σ ε α} {act' : Act σ' ε α} (h : Coupled rel act act') :
    Coupled rel (Act.caught act : Act σ δ _) (Act.caught act') := by
  intro s s' hrel
  obtain ⟨heq, hnext⟩ := h s s' hrel
  refine ⟨?_, by rwa [start_caught_snd, start_caught_snd]⟩
  rw [start_caught_fst, start_caught_fst, heq]

/-- Actions that follow coupled ones are coupled if they are for each value. -/
theorem Coupled.bind {act : Act σ ε α} {act' : Act σ' ε α} {f : α → Act σ ε β}
    {f' : α → Act σ' ε β} (h : Coupled rel act act') (hf : ∀ a, Coupled rel (f a) (f' a)) :
    Coupled rel (act >>= f) (act' >>= f') := by
  intro s s' hrel
  obtain ⟨heq, hafter⟩ := h s s' hrel
  rw [start_bind, start_bind]
  rcases hact : act.start s with ⟨outcome, t⟩
  rcases hact' : act'.start s' with ⟨outcome', t'⟩
  rw [hact, hact'] at heq hafter
  cases heq
  cases outcome with
  | ok a => exact hf a t t' hafter
  | error stop => exact ⟨rfl, hafter⟩

end Act

/-- A program is coupled with itself if each of its commands is. -/
theorem Program.coupled_execute {Command : Type} {Reply : Command → Type}
    {handle : (command : Command) → Act σ ε (Reply command)}
    {handle' : (command : Command) → Act σ' ε (Reply command)} {allowed : Command → Prop}
    (hhandle : ∀ command, allowed command → (handle command).Coupled rel (handle' command))
    {p : Program Command Reply ε α} (hp : p.All allowed) :
    (p.execute handle).Coupled rel (p.execute handle') := by
  induction p with
  | done outcome => exact .finish outcome
  | ask command next ih => exact (hhandle command hp.1).bind fun reply => ih reply (hp.2 reply)

end Actions

/-! ## User code -/

variable {F ω ω' : Type} {I : Interface}

namespace HeapWorld

/-- A relation between worlds that user code of two runs keeps to, if both levels that belong
together have surroundings that belong together. -/
structure Coupling (allowed : HeapCommand F I → Prop)
    (paired : Surroundings I ω → Surroundings I ω' → Prop)
    (rel : HeapWorld F ω → HeapWorld F ω' → Prop) : Prop where
  /-- Commands that enter no function are coupled on all machines. -/
  plain : ∀ {surroundings surroundings'}, paired surroundings surroundings' → ∀ run run' command,
    allowed command → ¬ command.Enters →
      (answer surroundings run command).Coupled rel (answer surroundings' run' command)
  /-- The same references lead to functions, and to the same ones. -/
  function : ∀ {w w'}, rel w w' → ∀ r, w.heap.function r = w'.heap.function r
  /-- The same references lead to objects. -/
  isLive : ∀ {w w'}, rel w w' → ∀ r, w.heap.isLive r = w'.heap.isLive r
  /-- The worlds stay related when a call begins. -/
  openScope : ∀ {w w'}, rel w w' → rel (w.update Heap.openScope) (w'.update Heap.openScope)
  /-- The worlds stay related when a call ends. -/
  closeScope : ∀ {w w'}, rel w w' → rel (w.update Heap.closeScope) (w'.update Heap.closeScope)

namespace Coupling

variable {allowed : HeapCommand F I → Prop} {paired : Surroundings I ω → Surroundings I ω' → Prop}
  {rel : HeapWorld F ω → HeapWorld F ω' → Prop} {run : Runner F ω} {run' : Runner F ω'}

/-- Whether there is an object is asked alike. -/
theorem present (h : Coupling allowed paired rel) (r : ObjRef) :
    Act.Coupled rel (discard (examine fun heap => heap.entry r))
      (discard (examine fun heap => heap.entry r)) := by
  intro w w' hrel
  have hlive : (w.heap.entry? r).isSome = (w'.heap.entry? r).isSome := h.isLive hrel r
  rw [start_discard_examine, start_discard_examine]
  refine ⟨?_, hrel⟩
  unfold Heap.entry
  generalize w.heap.entry? r = found at hlive ⊢
  generalize w'.heap.entry? r = found' at hlive ⊢
  cases found with
  | none =>
    cases found' with
    | none => rfl
    | some e' => cases hlive
  | some e =>
    cases found' with
    | none => cases hlive
    | some e' => rfl

/-- **A call is coupled** if the machines that run the body are. -/
theorem call (h : Coupling allowed paired rel)
    (hrun : ∀ f args, (run f args).Coupled rel (run' f args)) (f : ObjRef)
    (args : StateViews ObjRef) :
    (HeapWorld.call run f args).Coupled rel (HeapWorld.call run' f args) := by
  unfold HeapWorld.call
  refine .bind (.checked fun w w' hrel => ⟨h.function hrel f, hrel⟩) fun function => ?_
  have hscope : (inScope (run function.code args)).Coupled rel
      (inScope (run' function.code args)) := by
    intro w w' hrel
    obtain ⟨heq, hnext⟩ := hrun function.code args _ _ (h.openScope hrel)
    exact ⟨heq, h.closeScope hnext⟩
  simp only [StateViews.toList, List.forIn_cons, List.forIn_nil, bind_assoc, pure_bind]
  refine .bind (h.present args.t) fun _ => .bind (h.present args.y) fun _ =>
    .bind (h.present args.yp) fun _ => .bind hscope fun result => ?_
  exact .bind (h.present result) fun _ => .pure result

/-- **A command is coupled** if the machines below are. -/
theorem answer (h : Coupling allowed paired rel)
    {surroundings : Surroundings I ω} {surroundings' : Surroundings I ω'}
    (hpaired : paired surroundings surroundings')
    (hrun : ∀ f args, (run f args).Coupled rel (run' f args)) {command : HeapCommand F I}
    (hcommand : allowed command) :
    (HeapWorld.answer surroundings run command).Coupled rel
      (HeapWorld.answer surroundings' run' command) := by
  -- only two commands run the machines below
  by_cases henters : command.Enters
  · cases command with
    | call f args => exact (h.call hrun f args).caught
    | direct f args => exact (hrun f.code args).caught
    | _ => exact henters.elim
  · exact h.plain hpaired run run' command hcommand henters

end Coupling

end HeapWorld

/-! ## Machines that write down what user code gets to see -/

/-- What user code gets to see. -/
inductive Observation (F : Type) (I : Interface) : Type where
  /-- The arguments with which the code of a function is entered. -/
  | entered (f : F) (args : StateViews ObjRef)
  /-- The reply to a command. -/
  | replied (command : HeapCommand F I) (reply : command.Reply)

/-- The state of surroundings, and notes beside it, the latest first. -/
abbrev Noted (F : Type) (I : Interface) (ω : Type) : Type := ω × List (Observation F I)

/-- Surroundings that leave the notes alone. -/
def Surroundings.beside (surroundings : Surroundings I ω) : Surroundings I (Noted F I ω) :=
  fun command => Act.zoom Prod.fst (fun outside noted => (outside, noted.2)) (surroundings command)

namespace HeapWorld

/-- The world with one more note. -/
def note (observation : Observation F I) (w : HeapWorld F (Noted F I ω)) :
    HeapWorld F (Noted F I ω) :=
  { w with outside := (w.outside.1, observation :: w.outside.2) }

/-- The world without its notes. -/
def forget (w : HeapWorld F (Noted F I ω)) : HeapWorld F ω := ⟨w.heap, w.memory, w.outside.1⟩

/-- The second world is the first one without its notes. -/
def Forgets (w : HeapWorld F (Noted F I ω)) (w' : HeapWorld F ω) : Prop := w.forget = w'

/-- The world in which nothing has been noted yet. -/
def unnoted (I : Interface) (w : HeapWorld F ω) : HeapWorld F (Noted F I ω) :=
  ⟨w.heap, w.memory, (w.outside, [])⟩

/-- Carries out one command and notes the reply. -/
def answerNoting (surroundings : Surroundings I ω) (run : Runner F (Noted F I ω))
    (command : HeapCommand F I) : Act (HeapWorld F (Noted F I ω)) HostError command.Reply := do
  let reply ← answer surroundings.beside run command
  Act.total fun w => ((), w.note (.replied command reply))
  return reply

end HeapWorld

open HeapWorld

namespace Runner

/-- The machine with a stack of levels that writes down what user code gets to see. -/
def observed (code : UserCode F I) : List (Surroundings I ω) → Runner F (Noted F I ω)
  | [] => exhausted
  | surroundings :: stack => fun f args => do
    Act.total fun w => ((), w.note (.entered f args))
    (code f args).execute (answerNoting surroundings (observed code stack))

variable {code : UserCode F I} {allowed : HeapCommand F I → Prop}

/-- **Machines that write notes are coupled**, and write the same, if the relation is not disturbed
by the same note in both worlds. -/
theorem coupled_observed {rel : HeapWorld F (Noted F I ω) → HeapWorld F (Noted F I ω) → Prop}
    (h : Coupling allowed Eq rel)
    (hnote : ∀ observation w w', rel w w' → rel (w.note observation) (w'.note observation))
    (hcode : ∀ f args, (code f args).All allowed) (stack : List (Surroundings I ω)) (f : F)
    (args : StateViews ObjRef) :
    (observed code stack f args).Coupled rel (observed code stack f args) := by
  have hnoting : ∀ observation : Observation F I,
      (Act.total fun w => ((), w.note observation) : Act _ HostError _).Coupled rel
        (Act.total fun w => ((), w.note observation)) :=
    fun observation => .total fun w w' hrel => ⟨rfl, hnote observation w w' hrel⟩
  induction stack generalizing f args with
  | nil => exact .panic _
  | cons surroundings stack ih =>
    refine .bind (hnoting _) fun _ => Program.coupled_execute (fun command hcommand => ?_)
      (hcode f args)
    exact .bind (h.answer rfl ih hcommand) fun reply => .bind (hnoting _) fun _ => .pure reply

/-- Views are pointed elsewhere alike, whatever has been noted. -/
theorem alongside_repoint (r : ObjRef) (buffer : Buffer) :
    Alongside (Forgets (F := F) (I := I) (ω := ω)) (HeapWorld.repoint r buffer)
      (HeapWorld.repoint r buffer) := by
  rintro ⟨heap, memory, outside⟩ _ rfl
  unfold HeapWorld.repoint forget
  dsimp only
  cases heap.repoint r buffer <;> exact ⟨rfl, rfl⟩

/-- User code cannot tell whether notes are written. -/
theorem coupling_forget : Coupling (fun _ : HeapCommand F I => True)
    (fun surroundings surroundings' => surroundings = surroundings'.beside)
    (Forgets (ω := ω)) where
  plain := by
    rintro _ surroundings rfl run run' command - henters w _ rfl
    cases command with
    | call f args => exact (henters trivial).elim
    | direct f args => exact (henters trivial).elim
    | repoint r buffer => exact Act.Coupled.total (alongside_repoint r buffer) w w.forget rfl
    | _ => exact ⟨rfl, rfl⟩
  function := by
    rintro w _ rfl r
    rfl
  isLive := by
    rintro w _ rfl r
    rfl
  openScope := by
    rintro w _ rfl
    rfl
  closeScope := by
    rintro w _ rfl
    rfl

/-- **Writing notes changes nothing else.** -/
theorem coupled_forget (code : UserCode F I) (stack : List (Surroundings I ω)) (f : F)
    (args : StateViews ObjRef) :
    (observed code stack f args).Coupled Forgets (ofStack code stack f args) := by
  induction stack generalizing f args with
  | nil => exact .panic _
  | cons surroundings stack ih =>
    have hsilent : ∀ (observation : Observation F I) {α : Type} (a : α),
        Act.Coupled Forgets
          (do
            Act.total fun w : HeapWorld F (Noted F I ω) => ((), w.note observation)
            return a : Act _ HostError α)
          (pure a : Act (HeapWorld F ω) HostError α) := fun _ _ _ _ _ hrel => ⟨rfl, hrel⟩
    have hnoted : ∀ command : HeapCommand F I,
        (answerNoting surroundings (observed code stack) command).Coupled
          Forgets (answer surroundings (ofStack code stack) command) := by
      intro command
      rw [← bind_pure (answer surroundings (ofStack code stack) command)]
      exact .bind (coupling_forget.answer rfl ih trivial) fun reply => hsilent _ reply
    intro w w' hrel
    exact Program.coupled_execute (fun command _ => hnoted command) (Program.all_true (code f args))
      (w.note (.entered f args)) w' hrel

end Runner

end CallbackBridge
