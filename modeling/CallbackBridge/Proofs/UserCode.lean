/-
# Runs of user code

User code is run by a machine with a stack of levels, one for each depth of nested calls.
A relation between worlds that is closed under the plain commands and under the scope of
a call relates the world before a run to the world after it, however deep the calls of
the run nest (`RunClosed.execute`).

`Visits` says which worlds a run passes through, those inside nested calls included; it
is what "at every point of a body" means.
-/
import CallbackBridge.Heap.Program
import CallbackBridge.Proofs.Actions
import CallbackBridge.Proofs.HeapSteps
namespace CallbackBridge

/-! ## Machines with a stack of levels -/

namespace Runner

variable {F ω : Type} {I : Interface}

/-- A machine with one level for each of the given surroundings, the outermost first. -/
def ofStack (code : UserCode F I) : List (Surroundings I ω) → Runner F ω
  | [] => exhausted
  | surroundings :: stack => level code surroundings (ofStack code stack)

end Runner

/-! ## Calls -/

namespace HeapWorld

variable {F ω α : Type} {I : Interface}

theorem start_examine (look : Heap F → Except HostError α) (w : HeapWorld F ω) :
    (examine look).start w = (Outcome.ofExcept (look w.heap), w) := rfl

theorem start_discard_examine (look : Heap F → Except HostError α) (w : HeapWorld F ω) :
    (discard (examine look)).start w =
      (Outcome.ofExcept ((look w.heap).map fun _ => PUnit.unit), w) := by
  show (examine look >>= fun _ => pure PUnit.unit : Act _ _ _).start w = _
  rw [Act.start_bind, start_examine]
  cases look w.heap <;> rfl

/-- How a call ends whose body has ended: a result must lead to an object. -/
def settle (outcome : Outcome HostError ObjRef) (h : Heap F) : Outcome HostError ObjRef :=
  match outcome with
  | .ok r => if h.isLive r then .ok r else .error (.error (.staleReference r.text))
  | .error stop => .error stop

/-- What a call returns is what the body returns, and is there. -/
theorem settle_eq_ok {outcome : Outcome HostError ObjRef} {h : Heap F} {r : ObjRef}
    (hr : settle outcome h = .ok r) : outcome = .ok r ∧ h.isLive r := by
  unfold settle at hr
  split at hr
  · split at hr
    · next hlive =>
      cases hr
      exact ⟨rfl, hlive⟩
    · cases hr
  · cases hr

/-- A reference leads to an object or is stale. -/
theorem entry_cases (h : Heap F) (r : ObjRef) :
    (∃ e, h.entry? r = some e ∧ h.entry r = .ok e) ∨
      (h.entry? r = none ∧ h.entry r = .error (.staleReference r.text)) := by
  unfold Heap.entry
  cases hr : h.entry? r with
  | some e => exact Or.inl ⟨e, rfl, rfl⟩
  | none => exact Or.inr ⟨rfl, rfl⟩

/-- An error of a call is an error of the body, or what its result reads as. -/
theorem settle_eq_error {outcome : Outcome HostError ObjRef} {h : Heap F} {e : HostError}
    (he : settle outcome h = .error (.error e)) (m : Memory) :
    outcome = .error (.error e) ∨ ∃ r, outcome = .ok r ∧ h.read m r = .error e := by
  cases outcome with
  | error stop => exact Or.inl he
  | ok r =>
    simp only [settle] at he
    split at he
    · cases he
    · next hdead =>
      cases he
      refine Or.inr ⟨r, rfl, ?_⟩
      rcases entry_cases h r with ⟨e, hentry, -⟩ | ⟨-, hstale⟩
      · exact (hdead (Heap.isLive_of_eq_some hentry)).elim
      · simp only [Heap.read, hstale]
        rfl

/-- A call whose function and arguments are in order runs the body in a scope of its
own. -/
theorem start_call_entered (run : Runner F ω) {f : ObjRef} {args : StateViews ObjRef}
    {w : HeapWorld F ω} {function : NativeFunction F} (hf : w.heap.function f = .ok function)
    (hargs : ∀ arg ∈ args.toList, w.heap.isLive arg) :
    (call run f args).start w =
      (settle ((run function.code args).start (w.update Heap.openScope)).1
          ((run function.code args).start (w.update Heap.openScope)).2.heap,
        ((run function.code args).start (w.update Heap.openScope)).2.update
          Heap.closeScope) := by
  have hlive : ∀ arg ∈ args.toList, ∃ e, w.heap.entry arg = .ok e := by
    intro arg harg
    rcases entry_cases w.heap arg with ⟨e, -, he⟩ | ⟨hnone, -⟩
    · exact ⟨e, he⟩
    · have := hargs arg harg
      simp [Heap.isLive, hnone] at this
  -- no check stops the call before the body is run
  obtain ⟨et, ht⟩ := hlive args.t (by simp [StateViews.toList])
  obtain ⟨ey, hy⟩ := hlive args.y (by simp [StateViews.toList])
  obtain ⟨eyp, hyp⟩ := hlive args.yp (by simp [StateViews.toList])
  unfold call
  rw [Act.start_bind, start_examine, hf]
  simp only [Outcome.ofExcept, StateViews.toList, List.forIn_cons, List.forIn_nil, bind_assoc,
    Act.start_bind, start_discard_examine, ht, hy, hyp, Except.map, Act.start_pure]
  have hscope : (inScope (run function.code args)).start w =
      (((run function.code args).start (w.update Heap.openScope)).1,
        ((run function.code args).start (w.update Heap.openScope)).2.update
          Heap.closeScope) := rfl
  rw [hscope]
  cases hbody : (run function.code args).start (w.update Heap.openScope) with
  | mk outcome w' =>
    cases outcome with
    | error stop => rfl
    | ok r =>
      -- closing a scope moves no entry
      have hentry : (w'.update Heap.closeScope).heap.entry r = w'.heap.entry r := rfl
      simp only [hentry, settle, Heap.isLive]
      rcases entry_cases w'.heap r with ⟨e, he, hok⟩ | ⟨hnone, hstale⟩
      · simp [he, hok]
      · simp [hnone, hstale]

/-- What is no function is not called. -/
theorem start_call_of_error (run : Runner F ω) {f : ObjRef} (args : StateViews ObjRef)
    {w : HeapWorld F ω} {e : HostError} (hf : w.heap.function f = .error e) :
    (call run f args).start w = (.error (.error e), w) := by
  unfold call
  rw [Act.start_bind, start_examine, hf]
  rfl

/-- A call whose function or arguments are not in order changes nothing. -/
theorem call_cases (run : Runner F ω) (f : ObjRef) (args : StateViews ObjRef)
    (w : HeapWorld F ω) :
    (∃ e, w.heap.function f = .error e ∧ (call run f args).start w = (.error (.error e), w)) ∨
      (∃ arg ∈ args.toList, w.heap.isLive arg = false ∧
        (call run f args).start w = (.error (.error (.staleReference arg.text)), w)) ∨
      ∃ function, w.heap.function f = .ok function ∧
        ∀ arg ∈ args.toList, w.heap.isLive arg := by
  cases hf : w.heap.function f with
  | error e => exact Or.inl ⟨e, rfl, start_call_of_error run args hf⟩
  | ok function =>
    refine Or.inr ?_
    rcases entry_cases w.heap args.t with ⟨et, het, ht⟩ | ⟨het, ht⟩
    · rcases entry_cases w.heap args.y with ⟨ey, hey, hy⟩ | ⟨hey, hy⟩
      · rcases entry_cases w.heap args.yp with ⟨eyp, heyp, hyp⟩ | ⟨heyp, hyp⟩
        · refine Or.inr ⟨function, rfl, ?_⟩
          simp [StateViews.toList, Heap.isLive, het, hey, heyp]
        · refine Or.inl ⟨args.yp, by simp [StateViews.toList], by simp [Heap.isLive, heyp], ?_⟩
          unfold call
          rw [Act.start_bind, start_examine, hf]
          simp [Outcome.ofExcept, StateViews.toList, Act.start_bind, start_discard_examine,
            ht, hy, hyp, Except.map]
      · refine Or.inl ⟨args.y, by simp [StateViews.toList], by simp [Heap.isLive, hey], ?_⟩
        unfold call
        rw [Act.start_bind, start_examine, hf]
        simp [Outcome.ofExcept, StateViews.toList, Act.start_bind, start_discard_examine,
          ht, hy, Except.map]
    · refine Or.inl ⟨args.t, by simp [StateViews.toList], by simp [Heap.isLive, het], ?_⟩
      unfold call
      rw [Act.start_bind, start_examine, hf]
      simp [Outcome.ofExcept, StateViews.toList, Act.start_bind, start_discard_examine,
        ht, Except.map]

end HeapWorld

/-! ## What user code is allowed to do -/

namespace HeapCommand

variable {F : Type} {I : Interface}

/-- The command neither points a view elsewhere nor detaches one. -/
def SparesViews : HeapCommand F I → Prop
  | repoint _ _ => False
  | retire _ => False
  | _ => True

/-- The command undoes no pin. -/
def KeepsPins : HeapCommand F I → Prop
  | unpin _ => False
  | _ => True

/-- The command neither pins nor unpins, and leaves views alone. -/
def SparesRoots : HeapCommand F I → Prop
  | pin _ => False
  | unpin _ => False
  | repoint _ _ => False
  | retire _ => False
  | _ => True

/-- What leaves pins alone undoes none. -/
theorem SparesRoots.keepsPins {command : HeapCommand F I} (h : command.SparesRoots) :
    command.KeepsPins := by
  cases command with
  | unpin _ => exact h.elim
  | _ => trivial

/-- The command binds and unbinds none of the names. -/
def SparesNames (names : List String) : HeapCommand F I → Prop
  | define name _ => name ∉ names
  | undefine name => name ∉ names
  | _ => True

/-- The command runs the code of a function. -/
def Enters : HeapCommand F I → Prop
  | call _ _ => True
  | direct _ _ => True
  | _ => False

end HeapCommand

/-- A function of slices reads its arguments and allocates its result. -/
theorem UserCode.all_ofSlices {F : Type} {I : Interface} {allowed : HeapCommand F I → Prop}
    (hread : ∀ r, allowed (.read r)) (harray : ∀ values, allowed (.array values))
    (f : List Binary64 → List Binary64 → List Binary64 → Outcome String (List Binary64))
    (args : StateViews ObjRef) : (UserCode.ofSlices f args).All allowed := by
  have hslice : ∀ r, (UserCode.ofSlices.readOrFail r : HeapProgram F I _).All allowed := by
    intro r
    refine ⟨hread r, fun reply => ?_⟩
    cases reply <;> exact trivial
  refine (hslice _).bind fun t => (hslice _).bind fun y => (hslice _).bind fun yp => ?_
  cases f t y yp with
  | ok out => exact ⟨harray out, fun _ => trivial⟩
  | error stop => cases stop <;> exact trivial

/-! ## Relations that runs keep to -/

open HeapWorld

variable {F ω : Type} {I : Interface}

/-- A relation between worlds to which every run with allowed commands keeps. -/
structure RunClosed (allowed : HeapCommand F I → Prop)
    (rel : HeapWorld F ω → HeapWorld F ω → Prop) : Prop where
  /-- A run may do nothing. -/
  refl : ∀ w, rel w w
  /-- Runs follow each other. -/
  trans : ∀ {u v w}, rel u v → rel v w → rel u w
  /-- A command that enters no function keeps to the relation. -/
  plain : ∀ (surroundings : Surroundings I ω) (run : Runner F ω) (command) (w), allowed command →
    ¬ command.Enters → rel w ((answer surroundings run command).start w).2
  /-- The relation is kept by a call if the body keeps to it within its scope. -/
  inScope : ∀ {w v}, rel (w.update Heap.openScope) v → rel w (v.update Heap.closeScope)

namespace RunClosed

variable {allowed : HeapCommand F I → Prop} {rel : HeapWorld F ω → HeapWorld F ω → Prop}
  {code : UserCode F I} {run : Runner F ω}

/-- A call keeps to the relation if the body of its function does. -/
theorem call (h : RunClosed allowed rel) {f : ObjRef} {args : StateViews ObjRef}
    {w : HeapWorld F ω}
    (hbody : ∀ function, w.heap.function f = .ok function → ∀ v,
      rel v ((run function.code args).start v).2) :
    rel w ((HeapWorld.call run f args).start w).2 := by
  rcases call_cases run f args w with ⟨e, -, heq⟩ | ⟨arg, -, -, heq⟩ | ⟨function, hf, hargs⟩
  · rw [heq]
    exact h.refl w
  · rw [heq]
    exact h.refl w
  · rw [start_call_entered run hf hargs]
    exact h.inScope (hbody function hf _)

/-- One command keeps to the relation if the machine below does. -/
theorem answer (h : RunClosed allowed rel)
    (hrun : ∀ f args w, rel w ((run f args).start w).2) (surroundings : Surroundings I ω)
    {command : HeapCommand F I} (hcommand : allowed command) (w : HeapWorld F ω) :
    rel w ((HeapWorld.answer surroundings run command).start w).2 := by
  -- only two commands run the machine below
  by_cases henters : command.Enters
  · cases command with
    | call f args =>
      show rel w ((Act.caught (HeapWorld.call run f args)).start w).2
      rw [Act.start_caught_snd]
      exact h.call fun function _ => hrun function.code args
    | direct f args =>
      show rel w ((Act.caught (run f.code args)).start w).2
      rw [Act.start_caught_snd]
      exact hrun f.code args w
    | _ => exact henters.elim
  · exact h.plain surroundings run command w hcommand henters

/-- A program keeps to the relation if each of its commands does. -/
theorem execute_of_answer {α : Type} {issued : HeapCommand F I → Prop}
    (h : RunClosed allowed rel) {surroundings : Surroundings I ω}
    (hanswer : ∀ command, issued command → ∀ w,
      rel w ((HeapWorld.answer surroundings run command).start w).2)
    {p : HeapProgram F I α} (hp : p.All issued) (w : HeapWorld F ω) :
    rel w ((p.execute (HeapWorld.answer surroundings run)).start w).2 := by
  induction p generalizing w with
  | done outcome => exact h.refl w
  | ask command next ih =>
    have hstep := hanswer command hp.1 w
    rw [Program.start_execute_ask]
    cases hreply : (HeapWorld.answer surroundings run command).start w with
    | mk outcome w' =>
      rw [hreply] at hstep
      cases outcome with
      | error stop => exact hstep
      | ok reply => exact h.trans hstep (ih reply (hp.2 reply) w')

/-- A program of allowed commands keeps to the relation if the machine below does. -/
theorem execute {α : Type} (h : RunClosed allowed rel)
    (hrun : ∀ f args w, rel w ((run f args).start w).2) (surroundings : Surroundings I ω)
    {p : HeapProgram F I α} (hp : p.All allowed) (w : HeapWorld F ω) :
    rel w ((p.execute (HeapWorld.answer surroundings run)).start w).2 :=
  h.execute_of_answer (fun _ hcommand => h.answer hrun surroundings hcommand) hp w

/-- A program that enters no function keeps to the relation on any machine. -/
theorem execute_plain {α : Type} (h : RunClosed allowed rel) (run : Runner F ω)
    (surroundings : Surroundings I ω) {p : HeapProgram F I α}
    (hp : p.All fun command => allowed command ∧ ¬ command.Enters) (w : HeapWorld F ω) :
    rel w ((p.execute (HeapWorld.answer surroundings run)).start w).2 :=
  h.execute_of_answer
    (fun command hcommand w => h.plain surroundings run command w hcommand.1 hcommand.2) hp w

/-- **Every run keeps to the relation**, whatever the number of levels of the machine. -/
theorem runner (h : RunClosed allowed rel) (hcode : ∀ f args, (code f args).All allowed)
    (stack : List (Surroundings I ω)) (f : F) (args : StateViews ObjRef) (w : HeapWorld F ω) :
    rel w ((Runner.ofStack code stack f args).start w).2 := by
  -- each level runs its code on the machine below, and without a level nothing is run
  induction stack generalizing f args w with
  | nil => exact h.refl w
  | cons surroundings stack ih => exact h.execute ih surroundings (hcode f args) w

end RunClosed

/-! ## The worlds that a run passes through -/

/-- Running the program from `w`, on a machine with the given levels, passes through `v`. -/
inductive Visits (code : UserCode F I) :
    {α : Type} → List (Surroundings I ω) → HeapProgram F I α → HeapWorld F ω →
      HeapWorld F ω → Prop where
  /-- A run passes through its start. -/
  | here {α : Type} {stack : List (Surroundings I ω)} {p : HeapProgram F I α}
      {w : HeapWorld F ω} : Visits code stack p w w
  /-- After a command is answered, the run goes on. -/
  | next {α : Type} {surroundings : Surroundings I ω} {stack : List (Surroundings I ω)}
      {command : HeapCommand F I} {cont : command.Reply → HeapProgram F I α} {reply}
      {w w' v : HeapWorld F ω}
      (hanswer : (answer surroundings (Runner.ofStack code stack) command).start w =
        (.ok reply, w'))
      (hrest : Visits code (surroundings :: stack) (cont reply) w' v) :
      Visits code (surroundings :: stack) (.ask command cont) w v
  /-- A run may end by a panic in a command. -/
  | unwound {α : Type} {surroundings : Surroundings I ω} {stack : List (Surroundings I ω)}
      {command : HeapCommand F I} {cont : command.Reply → HeapProgram F I α} {stop}
      {w w' : HeapWorld F ω}
      (hanswer : (answer surroundings (Runner.ofStack code stack) command).start w =
        (.error stop, w')) :
      Visits code (surroundings :: stack) (.ask command cont) w w'
  /-- The body of a call is run in a scope of its own. -/
  | called {α : Type} {surroundings : Surroundings I ω} {stack : List (Surroundings I ω)}
      {f : ObjRef} {args : StateViews ObjRef}
      {cont : Except HostError ObjRef → HeapProgram F I α} {function : NativeFunction F}
      {w v : HeapWorld F ω} (hf : w.heap.function f = .ok function)
      (hargs : ∀ arg ∈ args.toList, w.heap.isLive arg)
      (hbody : Visits code stack (code function.code args) (w.update Heap.openScope) v) :
      Visits code (surroundings :: stack) (.ask (.call f args) cont) w v
  /-- The code of a function can be run without a scope. -/
  | entered {α : Type} {surroundings : Surroundings I ω} {stack : List (Surroundings I ω)}
      {f : NativeFunction F} {args : StateViews ObjRef}
      {cont : Except HostError ObjRef → HeapProgram F I α} {w v : HeapWorld F ω}
      (hbody : Visits code stack (code f.code args) w v) :
      Visits code (surroundings :: stack) (.ask (.direct f args) cont) w v

/-- A run passes through the end of each first part of its program. -/
theorem Visits.first_part {α β : Type} (code : UserCode F I) (surroundings : Surroundings I ω)
    (stack : List (Surroundings I ω)) (p : HeapProgram F I β) (next : β → HeapProgram F I α)
    (w : HeapWorld F ω) :
    Visits code (surroundings :: stack) (p >>= next) w
      ((p.execute (answer surroundings (Runner.ofStack code stack))).start w).2 := by
  induction p generalizing w with
  | done outcome => exact .here
  | ask command cont ih =>
    rw [Program.start_execute_ask]
    cases hanswer : (answer surroundings (Runner.ofStack code stack) command).start w with
    | mk outcome w' =>
      cases outcome with
      | error stop => exact .unwound hanswer
      | ok reply => exact .next hanswer (ih reply w')

/-- What relates the worlds before and after every run, and is not disturbed by a scope
that is still open, relates the start of a run to all that it passes through. -/
theorem RunClosed.visits {α : Type} {allowed : HeapCommand F I → Prop}
    {rel P : HeapWorld F ω → HeapWorld F ω → Prop} {code : UserCode F I}
    (h : RunClosed allowed rel) (hcode : ∀ f args, (code f args).All allowed)
    (hrefl : ∀ w, P w w) (hafter : ∀ {u v w}, rel u v → P v w → P u w)
    (henter : ∀ {w v}, P (w.update Heap.openScope) v → P w v)
    {stack : List (Surroundings I ω)} {p : HeapProgram F I α} {w v : HeapWorld F ω}
    (hvisits : Visits code stack p w v) (hp : p.All allowed) : P w v := by
  induction hvisits with
  | here => exact hrefl _
  | @next _ surroundings stack command cont reply w w' v hanswer hrest ih =>
    have hstep := h.answer (h.runner hcode stack) surroundings hp.1 w
    rw [hanswer] at hstep
    exact hafter hstep (ih (hp.2 reply))
  | @unwound _ surroundings stack command cont stop w w' hanswer =>
    have hstep := h.answer (h.runner hcode stack) surroundings hp.1 w
    rw [hanswer] at hstep
    exact hafter hstep (hrefl _)
  | called hf hargs hbody ih => exact henter (ih (hcode _ _))
  | entered hbody ih => exact ih (hcode _ _)

/-! ## Any code -/

/-- References do not come back to life, objects remain what they are but for where views
are pointed, and solver memory stays what it is. -/
def HeapWorld.Forward (w w' : HeapWorld F ω) : Prop :=
  w.heap.table.Evolves HeapEntry.fixedSorts w'.heap.table ∧ w'.memory = w.memory

theorem HeapWorld.Forward.refl (w : HeapWorld F ω) : w.Forward w := ⟨.refl _, rfl⟩

theorem HeapWorld.Forward.trans {u v w : HeapWorld F ω} (h : u.Forward v) (h' : v.Forward w) :
    u.Forward w :=
  ⟨h.1.trans h'.1, h'.2.trans h.2⟩

/-- No code brings a reference back to life. -/
theorem runClosed_forward :
    RunClosed (fun _ : HeapCommand F I => True) (HeapWorld.Forward (ω := ω)) where
  refl := .refl
  trans := .trans
  plain surroundings run command w _ henters := by
    cases command with
    | array values => exact ⟨Heap.evolves_alloc _ trivial, rfl⟩
    | text text => exact ⟨Heap.evolves_alloc _ trivial, rfl⟩
    | function f => exact ⟨Heap.evolves_alloc _ trivial, rfl⟩
    | materialize buffer => exact ⟨Heap.evolves_alloc _ trivial, rfl⟩
    | collect => exact ⟨Heap.evolves_collect _ _, rfl⟩
    | pin r => exact ⟨w.heap.evolves_pin HeapEntry.fixedSorts_pins r, rfl⟩
    | unpin r => exact ⟨w.heap.evolves_unpin HeapEntry.fixedSorts_pins r, rfl⟩
    | repoint r buffer =>
      show w.Forward (HeapWorld.repoint r buffer w).2
      unfold HeapWorld.repoint
      split
      · next heap hrepoint => exact ⟨Heap.evolves_repoint hrepoint, rfl⟩
      · exact .refl w
    | retire r => exact ⟨w.heap.evolves_retire r, rfl⟩
    | call f args => exact (henters trivial).elim
    | direct f args => exact (henters trivial).elim
    | _ => exact ⟨.refl _, rfl⟩
  inScope h := h

/-- Every program is allowed where everything is. -/
theorem Program.all_true {Command : Type} {Reply : Command → Type} {ε α : Type}
    (p : Program Command Reply ε α) : p.All fun _ => True := by
  induction p with
  | done outcome => trivial
  | ask command next ih => exact ⟨trivial, ih⟩

/-! ## Code that leaves views alone -/

/-- Objects stay what they are, and so does solver memory. -/
def HeapWorld.SameObjects (w w' : HeapWorld F ω) : Prop :=
  w.heap.table.Evolves HeapEntry.fixedObjects w'.heap.table ∧ w'.memory = w.memory

theorem HeapWorld.SameObjects.refl (w : HeapWorld F ω) : w.SameObjects w := ⟨.refl _, rfl⟩

theorem HeapWorld.SameObjects.trans {u v w : HeapWorld F ω} (h : u.SameObjects v)
    (h' : v.SameObjects w) : u.SameObjects w :=
  ⟨h.1.trans h'.1, h'.2.trans h.2⟩

/-- Code that leaves views alone changes no object in place. -/
theorem runClosed_sameObjects :
    RunClosed (HeapCommand.SparesViews (F := F) (I := I))
      (HeapWorld.SameObjects (ω := ω)) where
  refl := .refl
  trans := .trans
  plain surroundings run command w hallowed henters := by
    cases command with
    | array values => exact ⟨Heap.evolves_alloc _ trivial, rfl⟩
    | text text => exact ⟨Heap.evolves_alloc _ trivial, rfl⟩
    | function f => exact ⟨Heap.evolves_alloc _ trivial, rfl⟩
    | materialize buffer => exact ⟨Heap.evolves_alloc _ trivial, rfl⟩
    | collect => exact ⟨Heap.evolves_collect _ _, rfl⟩
    | pin r => exact ⟨w.heap.evolves_pin (fun _ _ => rfl) r, rfl⟩
    | unpin r => exact ⟨w.heap.evolves_unpin (fun _ _ => rfl) r, rfl⟩
    | repoint r buffer => exact hallowed.elim
    | retire r => exact hallowed.elim
    | call f args => exact (henters trivial).elim
    | direct f args => exact (henters trivial).elim
    | _ => exact ⟨.refl _, rfl⟩
  inScope h := h

/-- At every point of such code, objects are what they were. -/
theorem Visits.sameObjects {α : Type} {code : UserCode F I} {stack : List (Surroundings I ω)}
    {p : HeapProgram F I α} {w v : HeapWorld F ω} (h : Visits code stack p w v)
    (hcode : ∀ f args, (code f args).All HeapCommand.SparesViews)
    (hp : p.All HeapCommand.SparesViews) : w.SameObjects v :=
  runClosed_sameObjects.visits hcode .refl .trans id h hp

/-! ## Code that leaves pins alone as well -/

/-- Nothing that is kept is lost, the calls in progress are the same, and so is solver
memory. -/
def HeapWorld.SparesAll (names : List String) (w w' : HeapWorld F ω) : Prop :=
  w.heap.Spares names w'.heap ∧ w.heap.SameScopes w'.heap ∧ w'.memory = w.memory

theorem HeapWorld.SparesAll.refl {names : List String} (w : HeapWorld F ω) :
    w.SparesAll names w :=
  ⟨.refl _, .refl _, rfl⟩

/-- Code that leaves pins, views and the names alone loses nothing that is kept. -/
theorem runClosed_sparesAll (names : List String) :
    RunClosed (fun command : HeapCommand F I => command.SparesRoots ∧ command.SparesNames names)
      (HeapWorld.SparesAll (ω := ω) names) where
  refl := .refl
  trans h h' := ⟨h.1.trans h'.1, h.2.1.trans h'.2.1, h'.2.2.trans h.2.2⟩
  plain surroundings run command w hallowed henters := by
    cases command with
    | array values => exact ⟨.alloc _ _, .alloc _ _, rfl⟩
    | text text => exact ⟨.alloc _ _, .alloc _ _, rfl⟩
    | function f => exact ⟨.alloc _ _, .alloc _ _, rfl⟩
    | materialize buffer => exact ⟨.alloc _ _, .alloc _ _, rfl⟩
    | collect => exact ⟨.collect _, .of_eq rfl, rfl⟩
    | define name value => exact ⟨.define _ hallowed.2 value, .of_eq rfl, rfl⟩
    | undefine name => exact ⟨.undefine _ hallowed.2, .of_eq rfl, rfl⟩
    | pin r => exact hallowed.1.elim
    | unpin r => exact hallowed.1.elim
    | repoint r buffer => exact hallowed.1.elim
    | retire r => exact hallowed.1.elim
    | call f args => exact (henters trivial).elim
    | direct f args => exact (henters trivial).elim
    | _ => exact ⟨.refl _, .refl _, rfl⟩
  inScope := by
    rintro w v ⟨hspares, hscopes, hmemory⟩
    -- what the call has allocated goes out of its scope, and the outer scopes are back
    have hrestored := hscopes.closeScope
    refine ⟨⟨hspares.evolves, ?_, ?_, hspares.bound⟩, .of_eq hrestored, hmemory⟩
    · intro room hs r e hr hkeeps
      exact hspares.kept room hs hr ((Heap.Spares.openScope _).keeps hkeeps)
    · intro r hr
      show r ∈ v.heap.closeScope.scopes.flatten
      rw [hrestored]
      exact hr

/-- Where no names are given, none has to be left alone. -/
theorem Program.All.sparesNoNames {α : Type} {p : HeapProgram F I α}
    (hp : p.All HeapCommand.SparesRoots) :
    p.All fun command => command.SparesRoots ∧ command.SparesNames [] :=
  hp.mono fun command hcommand =>
    ⟨hcommand, by cases command <;> simp [HeapCommand.SparesNames]⟩

/-- At every point of such code, nothing that was kept at its start is lost. -/
theorem Visits.spares {α : Type} {names : List String} {code : UserCode F I}
    {stack : List (Surroundings I ω)} {p : HeapProgram F I α} {w v : HeapWorld F ω}
    (h : Visits code stack p w v)
    (hcode : ∀ f args, (code f args).All fun command =>
      command.SparesRoots ∧ command.SparesNames names)
    (hp : p.All fun command => command.SparesRoots ∧ command.SparesNames names) :
    w.heap.Spares names v.heap ∧ v.memory = w.memory :=
  (runClosed_sparesAll names).visits (P := fun w v =>
      w.heap.Spares names v.heap ∧ v.memory = w.memory) hcode
    (fun _ => ⟨.refl _, rfl⟩) (fun h h' => ⟨h.1.trans h'.1, h'.2.trans h.2.2⟩)
    (fun h => ⟨(Heap.Spares.openScope _).trans h.1, h.2⟩) h hp

end CallbackBridge
