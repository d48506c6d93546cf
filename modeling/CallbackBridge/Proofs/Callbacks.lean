/-
# What a native callback does and reports

A callback reports on three channels: the output, the flag and the last status.  What it
reports depends on the checks (`Proofs.Checks`) and on how the run of its target ends;
`TargetSystem.entered` lists the targets that it lets in, and `callback_conduct` puts all
this together, for every system of targets, all pointers and all states of the registry.
-/
import CallbackBridge.Process.Step
import CallbackBridge.Proofs.Checks
namespace CallbackBridge

variable {τ ω : Type}

/-! ## The output window -/

/-- Cutting a window out of an output and putting it back changes nothing. -/
theorem Output.take_append_drop (o : Output) (len : Nat) :
    (o.take len).append (o.drop (o.take len).length) = o := by
  obtain ⟨leading, zeros⟩ := o
  unfold append drop take length toList
  by_cases hlen : leading.length ≤ len
  · -- the window reaches into the zeros
    have hkept : leading.drop (leading.length + min (len - leading.length) zeros) = [] :=
      List.drop_of_length_le (by omega)
    have htake : leading.take len = leading := List.take_of_length_le hlen
    simp only [htake, hkept, List.isEmpty_nil, if_true, Output.mk.injEq, true_and]
    omega
  · -- the window ends before the zeros
    have hzeros : len - leading.length = 0 := by omega
    have hlength : (leading.take len).length = len := List.length_take_of_le (by omega)
    have hkept : leading.drop len ≠ [] := by
      rw [ne_eq, List.drop_eq_nil_iff]
      omega
    simp only [hzeros, hlength, Nat.zero_min, Nat.add_zero, List.isEmpty_iff, if_neg hkept,
      List.replicate_zero, List.append_nil, List.take_append_drop, Output.mk.injEq, true_and]
    omega

namespace CallbackArguments.Shows

variable {args : CallbackArguments} {entry : Entry} {n len : Nat} {windows : Windows}

/-- The elements after the output window are those after the declared length. -/
theorem toList_drop (h : args.Shows entry n len windows) {memory : Output}
    (hres : args.res = some memory) :
    (memory.drop windows.res.length).toList = memory.toList.drop len := by
  rw [Output.toList_drop]
  rcases h.res with ⟨rfl, hempty⟩ | ⟨memory', hmemory, htake⟩
  · rw [hempty]
    rfl
  · rw [hres] at hmemory
    cases hmemory
    rw [htake, ← Output.length_toList, Output.toList_take, List.length_take]
    rcases Nat.le_total len memory.toList.length with hle | hle
    · rw [Nat.min_eq_left hle]
    · rw [Nat.min_eq_right hle, List.drop_length, List.drop_of_length_le hle]

/-- An output window that was not written to is put back as it was. -/
theorem restore (h : args.Shows entry n len windows) :
    (args.res.map fun memory => windows.res.append (memory.drop windows.res.length)) =
      args.res := by
  cases hres : args.res with
  | none => rfl
  | some memory =>
    rcases h.res with ⟨-, hempty⟩ | ⟨memory', hmemory, htake⟩
    · -- an empty window is a window of no length
      have hwindow : windows.res = memory.take 0 := by
        rw [hempty]
        unfold Output.ofList Output.take
        simp
      rw [hwindow]
      exact congrArg some (memory.take_append_drop 0)
    · rw [hres] at hmemory
      cases hmemory
      rw [htake]
      exact congrArg some (memory.take_append_drop len)

end CallbackArguments.Shows

/-! ## Kept out and let in -/

namespace TargetSystem

variable {entry : Entry} {args : CallbackArguments} {s : NativeState τ ω}

/-- What a callback does that is kept out. -/
theorem callback_of_error (system : TargetSystem τ ω) {status : Status}
    (h : args.admitted entry s.registry = .error status) :
    system.callback entry args s =
      (⟨args.res, args.ires.map fun _ => iresAbort⟩,
        { s with registry := s.registry.record status }) := by
  unfold callback attempt
  have hchecks := args.checks_check entry s.registry
  rcases bind_eq_error h with hcheck | ⟨windows, hcheck, h⟩
  · rw [hcheck]
    rfl
  rcases bind_eq_error h with havailable | ⟨target, -, h⟩
  · rw [hcheck] at hchecks ⊢
    obtain ⟨-, n, len, hshows⟩ := hchecks
    unfold dispatch
    simp only [havailable, hshows.restore]
    rfl
  · cases h

/-- What a callback does that lets a target in. -/
theorem callback_of_ok (system : TargetSystem τ ω) {windows : Windows} {target : τ}
    (h : args.admitted entry s.registry = .ok (windows, target)) {run : TargetRun τ ω}
    (hrun : system.run target entry windows { s with registry := s.registry.enter } = run) :
    system.callback entry args s =
      (⟨args.res.map fun memory => run.res.append (memory.drop windows.res.length),
        args.ires.map fun ires =>
          (Verdict.ofOutcome (system.policy target) run.outcome).ires.getD ires⟩,
        { run.state with
          registry := (run.state.registry.leave run.target run.outcome.panicked).record
            (Verdict.ofOutcome (system.policy target) run.outcome).status }) := by
  obtain ⟨windows', hcheck, h⟩ := bind_eq_ok h
  obtain ⟨target', havailable, h⟩ := bind_eq_ok h
  cases h
  unfold callback attempt dispatch
  rw [hcheck]
  simp only [havailable, hrun]

end TargetSystem

/-! ## Entering a target -/

/-- An entry into a target. -/
structure Entering (τ : Type) where
  /-- The target. -/
  target : τ
  /-- What is to be evaluated. -/
  entry : Entry
  /-- What the target gets to see. -/
  windows : Windows

/-- The state with a list of entries beside it. -/
def NativeState.noting (log : List (Entering τ)) (s : NativeState τ ω) :
    NativeState τ (ω × List (Entering τ)) :=
  ⟨s.registry, s.rest, log⟩

namespace TargetSystem

variable {entry : Entry} {args : CallbackArguments} {s : NativeState τ ω}

/-- The system with each entry into a target noted. -/
def watched (system : TargetSystem τ ω) : TargetSystem τ (ω × List (Entering τ)) where
  policy := system.policy
  run target entry windows s :=
    let run := system.run target entry windows ⟨s.registry, s.rest.1⟩
    ⟨run.outcome, run.res, run.target,
      run.state.noting (s.rest.2 ++ [⟨target, entry, windows⟩])⟩

/-- The entries of a callback into targets, in order. -/
def entered (system : TargetSystem τ ω) (entry : Entry) (args : CallbackArguments)
    (s : NativeState τ ω) : List (Entering τ) :=
  (system.watched.callback entry args (s.noting [])).2.rest.2

/-- A callback that is kept out enters no target. -/
theorem entered_of_error (system : TargetSystem τ ω) {status : Status}
    (h : args.admitted entry s.registry = .error status) : system.entered entry args s = [] := by
  unfold entered
  rw [callback_of_error (s := s.noting []) system.watched h]
  rfl

/-- A callback that lets a target in enters it once. -/
theorem entered_of_ok (system : TargetSystem τ ω) {windows : Windows} {target : τ}
    (h : args.admitted entry s.registry = .ok (windows, target)) :
    system.entered entry args s = [⟨target, entry, windows⟩] := by
  unfold entered
  rw [callback_of_ok (s := s.noting []) system.watched h rfl]
  rfl

/-- Watching changes nothing. -/
theorem callback_watched (system : TargetSystem τ ω) (entry : Entry) (args : CallbackArguments)
    (s : NativeState τ ω) :
    system.watched.callback entry args (s.noting []) =
      ((system.callback entry args s).1,
        (system.callback entry args s).2.noting (system.entered entry args s)) := by
  cases hadmitted : args.admitted entry s.registry with
  | error status =>
    rw [entered_of_error system hadmitted, callback_of_error system hadmitted,
      callback_of_error (s := s.noting []) system.watched hadmitted]
    rfl
  | ok admitted =>
    rw [entered_of_ok system hadmitted, callback_of_ok system hadmitted rfl,
      callback_of_ok (s := s.noting []) system.watched hadmitted rfl]
    rfl

end TargetSystem

/-! ## What is reported -/

/-- The memory behind each pointer is as long as the lengths say. -/
structure CallbackArguments.Backed (args : CallbackArguments) (n len : Nat) : Prop where
  /-- There is a time. -/
  t : ∀ memory, args.t = some memory → 1 ≤ memory.length
  /-- There is a state for each variable. -/
  y : ∀ memory, args.y = some memory → n ≤ memory.length
  /-- There is a derivative for each variable. -/
  yp : ∀ memory, args.yp = some memory → n ≤ memory.length
  /-- There is room for the values. -/
  res : ∀ memory, args.res = some memory → len ≤ memory.length

/-- Onto such memory the windows have exactly the declared lengths. -/
theorem CallbackArguments.Shows.lengths {args : CallbackArguments} {entry : Entry} {n len : Nat}
    {windows : Windows} (h : args.Shows entry n len windows) (hbacked : args.Backed n len) :
    windows.t.length = 1 ∧ windows.y.length = n ∧ windows.yp.length = n ∧
      windows.res.length = len := by
  obtain ⟨t, ht, hwindowt⟩ := h.t
  obtain ⟨y, hy, hwindowy⟩ := h.y
  obtain ⟨yp, hyp, hwindowyp⟩ := h.yp
  rw [hwindowt, hwindowy, hwindowyp]
  refine ⟨List.length_take_of_le (hbacked.t t ht), List.length_take_of_le (hbacked.y y hy),
    List.length_take_of_le (hbacked.yp yp hyp), ?_⟩
  rcases h.res with ⟨rfl, hempty⟩ | ⟨res, hres, htake⟩
  · rw [hempty]
    rfl
  · rw [htake, ← Output.length_toList, Output.toList_take]
    refine List.length_take_of_le ?_
    rw [Output.length_toList]
    exact hbacked.res res hres

/-- What is left behind by a callback that was kept out with a status. -/
structure KeptOut (status : Status) (args : CallbackArguments) (s : NativeState τ ω)
    (effect : CallbackEffect) (s' : NativeState τ ω) : Prop where
  /-- The solver is asked to stop. -/
  ires : effect.ires = args.ires.map fun _ => -2
  /-- The output is untouched. -/
  res : effect.res = args.res
  /-- The status is recorded, and nothing else changes. -/
  state : s' = { s with registry := { s.registry with lastStatus := status } }

/-- What is left behind by a callback whose target was run. -/
structure Reported (policy : FailurePolicy) (run : TargetRun τ ω) (args : CallbackArguments)
    (len : Nat) (effect : CallbackEffect) (s' : NativeState τ ω) : Prop where
  /-- If the target returned, the flag is untouched. -/
  returned : run.outcome = .ok () → s'.registry.lastStatus = .ok ∧ effect.ires = args.ires
  /-- If the target failed, its error is the status, and only the failure of a user function
  can ask for a smaller step. -/
  failed : ∀ e, run.outcome = .error (.error e) → s'.registry.lastStatus = e.status ∧
    effect.ires = args.ires.map fun _ =>
      if e.isUserFailure ∧ policy = .retrySmallerStep then -1 else -2
  /-- If the target panicked, that is the status. -/
  panicked : ∀ message, run.outcome = .error (.panic message) →
    s'.registry.lastStatus = .panicked ∧ effect.ires = args.ires.map fun _ => -2
  /-- The output is what the target left in its window, and beyond that untouched. -/
  res : effect.res.map Output.toList =
    args.res.map fun memory => run.res.toList ++ memory.toList.drop len

/-- The flag asks for a smaller step exactly if a user function failed and the policy says
so. -/
theorem BridgeError.ires_eq (e : BridgeError) (policy : FailurePolicy) :
    e.ires policy = if e.isUserFailure ∧ policy = .retrySmallerStep then -1 else -2 := by
  cases policy with
  | abort => simp [ires, iresAbort]
  | retrySmallerStep => simp [ires, iresRetry, iresAbort]

/-- A callback that lets its target in reports how that ended. -/
theorem reported_callback (system : TargetSystem τ ω) {entry : Entry} {args : CallbackArguments}
    {s : NativeState τ ω} {windows : Windows} {target : τ} {n len : Nat}
    (hadmitted : args.admitted entry s.registry = .ok (windows, target))
    (hshows : args.Shows entry n len windows) :
    Reported (system.policy target)
      (system.run target entry windows { s with registry := s.registry.enter }) args len
      (system.callback entry args s).1 (system.callback entry args s).2 := by
  rw [system.callback_of_ok hadmitted rfl]
  generalize system.run target entry windows { s with registry := s.registry.enter } = run
  refine ⟨?_, ?_, ?_, ?_⟩
  · intro houtcome
    rw [houtcome]
    refine ⟨rfl, ?_⟩
    show args.ires.map (fun ires => ires) = args.ires
    exact Option.map_id'
  · intro e houtcome
    rw [houtcome]
    refine ⟨rfl, ?_⟩
    show args.ires.map (fun _ => e.ires (system.policy target)) = _
    rw [e.ires_eq]
  · intro message houtcome
    rw [houtcome]
    exact ⟨rfl, rfl⟩
  · cases hres : args.res with
    | none => rfl
    | some memory =>
      show some (run.res.append (memory.drop windows.res.length)).toList = _
      rw [Output.toList_append, hshows.toList_drop hres]
      rfl

/-! ## The registry decides -/

/-- No callback enters a target, and one whose arguments are in order reports the status. -/
structure NativeState.Refuses (status : Status) (s : NativeState τ ω) : Prop where
  /-- No callback enters a target. -/
  alone : ∀ (system : TargetSystem τ ω) (native : NativeEntry) (args : CallbackArguments),
    system.entered native.entry (native.restrict args) s = []
  /-- The status is recorded, the solver is asked to stop, and the output is untouched. -/
  keptOut : ∀ (system : TargetSystem τ ω) (native : NativeEntry) (args : CallbackArguments),
    (∀ check ∈ Check.ofArguments,
      check.Passes native.entry (native.restrict args) s.registry) →
    KeptOut status (native.restrict args) s
      (system.callback native.entry (native.restrict args) s).1
      (system.callback native.entry (native.restrict args) s).2

/-- A callback whose arguments are in order enters the target, and reports how that ends. -/
def NativeState.Dispatches (target : τ) (s : NativeState τ ω) : Prop :=
  ∀ (system : TargetSystem τ ω) (native : NativeEntry) (args : CallbackArguments),
    (∀ check ∈ Check.ofArguments,
      check.Passes native.entry (native.restrict args) s.registry) →
    ∃ windows n len, (native.restrict args).Shows native.entry n len windows ∧
      system.entered native.entry (native.restrict args) s = [⟨target, native.entry, windows⟩] ∧
      Reported (system.policy target)
        (system.run target native.entry windows { s with registry := s.registry.enter })
        (native.restrict args) len
        (system.callback native.entry (native.restrict args) s).1
        (system.callback native.entry (native.restrict args) s).2

theorem NativeState.refuses_of_available {s : NativeState τ ω} {status : Status}
    (h : s.registry.available = .error status) : s.Refuses status where
  alone system native args := by
    obtain ⟨status', hadmitted⟩ :=
      (native.restrict args).admitted_of_available_error native.entry h
    exact system.entered_of_error hadmitted
  keptOut system native args hpasses := by
    obtain ⟨windows, n, len, -, hadmitted⟩ := CallbackArguments.admitted_eq_available hpasses
    rw [h] at hadmitted
    rw [system.callback_of_error hadmitted]
    exact ⟨rfl, rfl, rfl⟩

theorem NativeState.dispatches_of_available {s : NativeState τ ω} {target : τ}
    (h : s.registry.available = .ok target) : s.Dispatches target := by
  intro system native args hpasses
  obtain ⟨windows, n, len, hshows, hadmitted⟩ := CallbackArguments.admitted_eq_available hpasses
  rw [h] at hadmitted
  exact ⟨windows, n, len, hshows, system.entered_of_ok hadmitted,
    reported_callback system hadmitted hshows⟩

/-! ## All callbacks -/

/-- **What a callback checks, does and reports.** For every system of targets, every native
entry point, all pointers and every state of the registry: if all checks pass, the callback
enters the installed target exactly once, with windows of the declared lengths, and reports
how that ended; a panic of the target is reported as well and goes no further.  Otherwise it
enters no target, reports the status of the first check that fails and asks the solver to
stop, and the output is untouched. -/
theorem callback_conduct (system : TargetSystem τ ω) (native : NativeEntry)
    (args : CallbackArguments) (s : NativeState τ ω) :
    ((∀ check ∈ Check.inOrder, check.Passes native.entry (native.restrict args) s.registry) ∧
      ∃ target windows n len, s.registry.slot = some target ∧
        (native.restrict args).Shows native.entry n len windows ∧
        ((native.restrict args).Backed n len → windows.t.length = 1 ∧ windows.y.length = n ∧
          windows.yp.length = n ∧ windows.res.length = len) ∧
        system.entered native.entry (native.restrict args) s =
          [⟨target, native.entry, windows⟩] ∧
        Reported (system.policy target)
          (system.run target native.entry windows { s with registry := s.registry.enter })
          (native.restrict args) len
          (system.callback native.entry (native.restrict args) s).1
          (system.callback native.entry (native.restrict args) s).2) ∨
    ∃ check, Check.FirstFailure
        (Check.Passes native.entry (native.restrict args) s.registry) Check.inOrder check ∧
      system.entered native.entry (native.restrict args) s = [] ∧
      KeptOut check.status (native.restrict args) s
        (system.callback native.entry (native.restrict args) s).1
        (system.callback native.entry (native.restrict args) s).2 := by
  generalize native.restrict args = args
  generalize native.entry = entry
  have hchecks := args.checks_admitted entry s.registry
  cases hadmitted : args.admitted entry s.registry with
  | ok admitted =>
    rw [hadmitted] at hchecks
    obtain ⟨hpasses, ⟨n, len, hshows⟩, hslot⟩ := hchecks
    exact Or.inl ⟨hpasses, admitted.2, admitted.1, n, len, hslot, hshows, hshows.lengths,
      system.entered_of_ok hadmitted, reported_callback system hadmitted hshows⟩
  | error status =>
    rw [hadmitted] at hchecks
    obtain ⟨check, hfirst, rfl⟩ := hchecks
    refine Or.inr ⟨check, hfirst, system.entered_of_error hadmitted, ?_⟩
    rw [system.callback_of_error hadmitted]
    exact ⟨rfl, rfl, rfl⟩

end CallbackBridge
