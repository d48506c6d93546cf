/-
# The checks of a native callback

A callback lets its target in only after twelve checks, of the pointers, of the lengths and
of the registry.

* `Check` lists them in the order in which they are made, `Check.Passes` says what each of
  them asks of the pointers and of the registry, and `Check.status` what is reported if it
  fails.
* `Checks` says of a computation that it makes checks in order and stops at the first one
  that fails; such computations can follow each other (`Checks.bind`).
* `CallbackArguments.checks_admitted` says so of all that a callback does before it enters
  its target.
-/
import CallbackBridge.Native.Callback
import CallbackBridge.Proofs.Delivery
import CallbackBridge.Proofs.Examinations
namespace CallbackBridge

variable {τ ω α β : Type}

/-! ## The checks -/

/-- The checks of a callback. -/
inductive Check where
  /-- The pointer to the integer parameters is not null. -/
  | parameters
  /-- There is at least one state variable. -/
  | stateLen
  /-- The number of event functions is not negative. -/
  | eventCount
  /-- The number of equations agrees. -/
  | neq
  /-- The number of event functions agrees. -/
  | nrt
  /-- The pointer to the time is not null. -/
  | t
  /-- The pointer to the state is not null. -/
  | y
  /-- The pointer to the derivative is not null. -/
  | yp
  /-- The pointer to the output is not null, unless nothing is to be written. -/
  | res
  /-- No callback is running. -/
  | unlocked
  /-- No target has panicked. -/
  | unpoisoned
  /-- There is a target. -/
  | installed
  deriving DecidableEq

namespace Check

/-- The checks of the arguments, in order. -/
def ofArguments : List Check := [parameters, stateLen, eventCount, neq, nrt, t, y, yp, res]

/-- The checks of the registry, in order. -/
def ofRegistry : List Check := [unlocked, unpoisoned, installed]

/-- All checks, in order. -/
def inOrder : List Check := ofArguments ++ ofRegistry

/-- What is reported when a check fails. -/
def status : Check → Status
  | parameters => .invalidArgument
  | stateLen => .invalidLengthParameter
  | eventCount => .invalidLengthParameter
  | neq => .invalidLengthParameter
  | nrt => .invalidLengthParameter
  | t => .invalidArgument
  | y => .invalidArgument
  | yp => .invalidArgument
  | res => .invalidArgument
  | unlocked => .busy
  | unpoisoned => .internalError
  | installed => .notInstalled

end Check

/-- The integer parameter at a position, if there is one. -/
def CallbackArguments.parameter? (args : CallbackArguments) (index : Nat) : Option Int :=
  args.ipar.bind fun memory => memory[index]?

/-- What a check asks of the entry point, the pointers and the registry. -/
def Check.Passes (entry : Entry) (args : CallbackArguments) (r : Registry τ) : Check → Prop
  | parameters => args.ipar ≠ none
  | stateLen => ∃ n, args.parameter? LengthParameters.stateLenIndex = some n ∧ 1 ≤ n
  | eventCount => entry = .event →
    ∃ m, args.parameter? LengthParameters.eventCountIndex = some m ∧ 0 ≤ m
  | neq => ∀ value, args.neq = some value →
    args.parameter? LengthParameters.stateLenIndex = some value
  | nrt => ∀ value, args.nrt = some value → args.parameter? entry.lengthIndex = some value
  | t => args.t ≠ none
  | y => args.y ≠ none
  | yp => args.yp ≠ none
  | res => args.parameter? entry.lengthIndex = some 0 ∨ args.res ≠ none
  | unlocked => r.locked = false
  | unpoisoned => r.poisoned = false
  | installed => r.slot ≠ none

/-- Of some checks made in order, all before this one pass, and this one does not. -/
def Check.FirstFailure (passes : Check → Prop) (checks : List Check) (check : Check) : Prop :=
  ∃ before after, checks = before ++ check :: after ∧ (∀ c ∈ before, passes c) ∧ ¬ passes check

/-! ## Computations that make checks -/

/-- The computation makes the checks in order: it gives the status of the first one that
fails, or something that is as described. -/
def Checks (passes : Check → Prop) (checks : List Check) (result : Except Status α)
    (described : α → Prop) : Prop :=
  match result with
  | .ok a => (∀ check ∈ checks, passes check) ∧ described a
  | .error status => ∃ check, Check.FirstFailure passes checks check ∧ status = check.status

namespace Checks

variable {passes : Check → Prop} {checks later : List Check} {P : α → Prop} {Q : β → Prop}

/-- Checks are demands, and each of them has one status. -/
theorem iff_examines {result : Except Status α} :
    Checks passes checks result P ↔
      Examines passes (fun check status => status = check.status) checks result P := by
  cases result <;> exact Iff.rfl

/-- A computation that makes no check. -/
theorem none_made {a : α} (h : P a) : Checks passes [] (.ok a) P :=
  iff_examines.mpr (.of_met (by simp) h)

/-- A single check. -/
theorem one {check : Check} {result : Except Status α}
    (hok : ∀ a, result = .ok a → passes check ∧ P a)
    (herror : ∀ status, result = .error status → ¬ passes check ∧ status = check.status) :
    Checks passes [check] result P :=
  iff_examines.mpr (.one hok herror)

/-- Checks follow each other. -/
theorem bind {result : Except Status α} {f : α → Except Status β}
    (h : Checks passes checks result P) (hf : ∀ a, P a → Checks passes later (f a) Q) :
    Checks passes (checks ++ later) (result >>= f) Q :=
  iff_examines.mpr ((iff_examines.mp h).bind fun a ha => iff_examines.mp (hf a ha))

/-- More may be said of what is given. -/
theorem mono {P' : α → Prop} {result : Except Status α} (h : Checks passes checks result P)
    (hP : ∀ a, P a → P' a) : Checks passes checks result P' :=
  iff_examines.mpr ((iff_examines.mp h).mono hP)

end Checks

/-! ## Each check -/

/-- A state length that is refused is no length, and no number that is at least one stands
there. -/
theorem LengthParameters.stateLen_eq_error {p : LengthParameters} {e : BridgeError}
    (h : p.stateLen = .error e) :
    e.status = .invalidLengthParameter ∧ ¬ ∃ n, p.entries[stateLenIndex]? = some n ∧ 1 ≤ n := by
  unfold stateLen at h
  rcases bind_eq_error h with hlength | ⟨m, hlength, hzero⟩
  · rcases length?_eq_error hlength with ⟨rfl, hnone⟩ | ⟨value, rfl, hvalue, hneg⟩
    · refine ⟨rfl, ?_⟩
      rintro ⟨n, hn, -⟩
      rw [hnone] at hn
      cases hn
    · refine ⟨rfl, ?_⟩
      rintro ⟨n, hn, hpositive⟩
      rw [hvalue] at hn
      cases hn
      omega
  · by_cases hm : m = 0
    · rw [if_pos hm] at hzero
      cases hzero
      refine ⟨rfl, ?_⟩
      rintro ⟨n, hn, hpositive⟩
      rw [length?_eq_ok hlength, hm] at hn
      cases hn
      omega
    · rw [if_neg hm] at hzero
      cases hzero

/-- An event count that is refused is no length, and no number that is at least zero stands
there. -/
theorem LengthParameters.eventCount_eq_error {p : LengthParameters} {e : BridgeError}
    (h : p.eventCount = .error e) :
    e.status = .invalidLengthParameter ∧
      ¬ ∃ m, p.entries[eventCountIndex]? = some m ∧ 0 ≤ m := by
  unfold eventCount at h
  rcases length?_eq_error h with ⟨rfl, hnone⟩ | ⟨value, rfl, hvalue, hneg⟩
  · refine ⟨rfl, ?_⟩
    rintro ⟨m, hm, -⟩
    rw [hnone] at hm
    cases hm
  · refine ⟨rfl, ?_⟩
    rintro ⟨m, hm, hnonneg⟩
    rw [hvalue] at hm
    cases hm
    omega

/-- A computation whose errors are renamed gives what it gave, or fails as it failed. -/
theorem mapError_cases {ε δ : Type} (f : ε → δ) (x : Except ε α) :
    (∃ a, x = .ok a ∧ x.mapError f = .ok a) ∨ ∃ e, x = .error e ∧ x.mapError f = .error (f e) := by
  cases x with
  | ok a => exact Or.inl ⟨a, rfl, rfl⟩
  | error e => exact Or.inr ⟨e, rfl, rfl⟩

/-- What a target gets to see: the leading elements of the memory behind each pointer. -/
structure CallbackArguments.Shows (args : CallbackArguments) (entry : Entry) (n len : Nat)
    (windows : Windows) : Prop where
  /-- The number of state variables is the declared one. -/
  stateLen : args.parameter? LengthParameters.stateLenIndex = some (n : Int)
  /-- The number of values to deliver is the declared one. -/
  outLen : args.parameter? entry.lengthIndex = some (len : Int)
  /-- The time. -/
  t : ∃ memory, args.t = some memory ∧ windows.t = memory.take 1
  /-- The state. -/
  y : ∃ memory, args.y = some memory ∧ windows.y = memory.take n
  /-- The derivative. -/
  yp : ∃ memory, args.yp = some memory ∧ windows.yp = memory.take n
  /-- The output; if nothing is to be written, there need not be any. -/
  res : (len = 0 ∧ windows.res = .ofList []) ∨
    ∃ memory, args.res = some memory ∧ windows.res = memory.take len
  /-- The parameters that the entry point needs. -/
  ipar : ∃ memory, args.ipar = some memory ∧
    windows.ipar = ⟨memory.take entry.parameterCount⟩

namespace CallbackArguments

variable {entry : Entry} {args : CallbackArguments} {r : Registry τ} {memory : List Int}

/-- The check of a pointer that must not be null. -/
theorem checks_required {passes : Check → Prop} {check : Check} {pointer : Option α}
    (hpasses : passes check ↔ pointer ≠ none) (hstatus : check.status = .invalidArgument) :
    Checks passes [check] (required pointer) fun memory => pointer = some memory := by
  cases pointer with
  | none =>
    refine .one (fun memory h => by cases h) ?_
    intro status h
    cases h
    exact ⟨fun h => hpasses.mp h rfl, hstatus.symm⟩
  | some memory =>
    refine .one ?_ (fun status h => by cases h)
    intro memory' h
    cases h
    exact ⟨hpasses.mpr (by simp), rfl⟩

/-- The check of a pointer onto which a window is cut. -/
theorem checks_window {passes : Check → Prop} {check : Check} {pointer : Option (List Binary64)}
    (hpasses : passes check ↔ pointer ≠ none) (hstatus : check.status = .invalidArgument)
    (len : Nat) :
    Checks passes [check] (window pointer len) fun values =>
      ∃ memory, pointer = some memory ∧ values = memory.take len := by
  have hcut : ∀ memory : List Binary64, pointer = some memory →
      Checks passes [] (pure (memory.take len)) fun values =>
        ∃ memory, pointer = some memory ∧ values = memory.take len :=
    fun memory hmemory => .none_made ⟨memory, hmemory, rfl⟩
  exact (checks_required hpasses hstatus).bind hcut

/-- The integer parameters that an entry point reads are those behind the pointer. -/
theorem parameter?_of_lt (hipar : args.ipar = some memory) {index : Nat}
    (hindex : index < entry.parameterCount) :
    args.parameter? index = (memory.take entry.parameterCount)[index]? := by
  rw [List.getElem?_take_of_lt hindex]
  unfold parameter?
  rw [hipar]
  rfl

/-- The check of the state length. -/
theorem checks_stateLen (hipar : args.ipar = some memory) :
    Checks (Check.Passes entry args r) [.stateLen]
      ((LengthParameters.mk (memory.take entry.parameterCount)).stateLen.mapError
        BridgeError.status)
      fun n => args.parameter? LengthParameters.stateLenIndex = some (n : Int) ∧ 1 ≤ n := by
  have hindex : LengthParameters.stateLenIndex < entry.parameterCount := by
    cases entry <;> decide
  have hparameter := parameter?_of_lt hipar hindex
  rcases mapError_cases BridgeError.status
      (LengthParameters.mk (memory.take entry.parameterCount)).stateLen with
    ⟨n, hn, heq⟩ | ⟨e, he, heq⟩
  · obtain ⟨hentry, hpositive⟩ := LengthParameters.stateLen_eq_ok hn
    rw [← hparameter] at hentry
    rw [heq]
    refine .one ?_ (fun status h => by cases h)
    intro n' h
    cases h
    exact ⟨⟨n, hentry, by omega⟩, hentry, hpositive⟩
  · obtain ⟨hstatus, hnone⟩ := LengthParameters.stateLen_eq_error he
    rw [← hparameter] at hnone
    rw [heq]
    refine .one (fun n h => by cases h) ?_
    intro status h
    cases h
    exact ⟨hnone, hstatus⟩

/-- The check of the event count, for event functions. -/
theorem checks_eventCount (hipar : args.ipar = some memory) :
    Checks (Check.Passes .event args r) [.eventCount]
      ((LengthParameters.mk (memory.take Entry.event.parameterCount)).eventCount.mapError
        BridgeError.status)
      fun m => args.parameter? Entry.event.lengthIndex = some (m : Int) := by
  have hindex : LengthParameters.eventCountIndex < Entry.event.parameterCount := by decide
  have hparameter := parameter?_of_lt hipar hindex
  rcases mapError_cases BridgeError.status
      (LengthParameters.mk (memory.take Entry.event.parameterCount)).eventCount with
    ⟨m, hm, heq⟩ | ⟨e, he, heq⟩
  · have hentry := LengthParameters.length?_eq_ok hm
    rw [← hparameter] at hentry
    rw [heq]
    refine .one ?_ (fun status h => by cases h)
    intro m' h
    cases h
    exact ⟨fun _ => ⟨m, hentry, by omega⟩, hentry⟩
  · obtain ⟨hstatus, hnone⟩ := LengthParameters.eventCount_eq_error he
    rw [← hparameter] at hnone
    rw [heq]
    refine .one (fun m h => by cases h) ?_
    intro status h
    cases h
    exact ⟨fun h => hnone (h rfl), hstatus⟩

/-- The check of a length that is given beside the parameters. -/
theorem checks_crossCheck {check : Check} {given found : Option Int} {expected index : Nat}
    (hpasses : Check.Passes entry args r check ↔ ∀ value, given = some value → found = some value)
    (hstatus : check.status = .invalidLengthParameter) (hfound : found = some (expected : Int)) :
    Checks (Check.Passes entry args r) [check] (crossCheck given expected index) fun _ => True := by
  cases given with
  | none =>
    refine .one ?_ (fun status h => by cases h)
    intro _ _
    exact ⟨hpasses.mpr (fun value h => by cases h), trivial⟩
  | some value =>
    unfold crossCheck
    by_cases hvalue : value = Int.ofNat expected
    · simp only [if_pos hvalue]
      refine .one ?_ (fun status h => by cases h)
      intro _ _
      refine ⟨hpasses.mpr ?_, trivial⟩
      intro value' h
      cases h
      rw [hfound, hvalue]
      rfl
    · simp only [if_neg hvalue]
      refine .one (fun _ h => by cases h) ?_
      intro status h
      cases h
      refine ⟨?_, hstatus.symm⟩
      intro h
      have hsome := hpasses.mp h value rfl
      rw [hfound] at hsome
      cases hsome
      exact hvalue rfl

/-- The check of the output. -/
theorem checks_output {len : Nat} (hlen : args.parameter? entry.lengthIndex = some (len : Int))
    (hres : len ≠ 0) :
    Checks (Check.Passes entry args r) [.res] (outputWindow args.res len) fun res =>
      ∃ memory, args.res = some memory ∧ res = memory.take len := by
  have hpasses : Check.Passes entry args r .res ↔ args.res ≠ none := by
    refine or_iff_right ?_
    intro hzero
    rw [hlen] at hzero
    cases hzero
    exact hres rfl
  have hcut : ∀ memory : Output, args.res = some memory →
      Checks (Check.Passes entry args r) [] (pure (memory.take len)) fun res =>
        ∃ memory, args.res = some memory ∧ res = memory.take len :=
    fun memory hmemory => .none_made ⟨memory, hmemory, rfl⟩
  exact (checks_required hpasses rfl).bind hcut

/-- The checks that follow the lengths. -/
theorem checks_pointers {n len : Nat} (hipar : args.ipar = some memory)
    (hn : args.parameter? LengthParameters.stateLenIndex = some (n : Int))
    (hlen : args.parameter? entry.lengthIndex = some (len : Int)) :
    Checks (Check.Passes entry args r) [.neq, .nrt, .t, .y, .yp, .res]
      (do
        crossCheck args.neq n LengthParameters.stateLenIndex
        crossCheck args.nrt len LengthParameters.eventCountIndex
        let t ← window args.t 1
        let y ← window args.y n
        let yp ← window args.yp n
        let res ← if len = 0 then pure (Output.ofList []) else outputWindow args.res len
        return ⟨t, y, yp, ⟨memory.take entry.parameterCount⟩, res⟩)
      (args.Shows entry n len) := by
  have hneq : Checks (Check.Passes entry args r) [.neq]
      (crossCheck args.neq n LengthParameters.stateLenIndex) fun _ => True :=
    checks_crossCheck Iff.rfl rfl hn
  have hnrt : Checks (Check.Passes entry args r) [.nrt]
      (crossCheck args.nrt len LengthParameters.eventCountIndex) fun _ => True :=
    checks_crossCheck Iff.rfl rfl hlen
  show Checks _ ([.neq] ++ ([.nrt] ++ ([.t] ++ ([.y] ++ ([.yp] ++ [.res]))))) _ _
  refine hneq.bind fun _ _ => hnrt.bind fun _ _ => ?_
  refine (checks_window Iff.rfl rfl 1).bind fun t ht => ?_
  refine (checks_window Iff.rfl rfl n).bind fun y hy => ?_
  refine (checks_window Iff.rfl rfl n).bind fun yp hyp => ?_
  by_cases hzero : len = 0
  · rw [if_pos hzero]
    refine .one ?_ (fun status h => by cases h)
    intro windows h
    cases h
    refine ⟨Or.inl ?_, ⟨hn, hlen, ht, hy, hyp, Or.inl ⟨hzero, rfl⟩, memory, hipar, rfl⟩⟩
    rw [hlen, hzero]
    rfl
  · rw [if_neg hzero]
    have hshows : ∀ res : Output,
        (∃ memory, args.res = some memory ∧ res = memory.take len) →
        Checks (Check.Passes entry args r) []
          (pure ⟨t, y, yp, ⟨memory.take entry.parameterCount⟩, res⟩) (args.Shows entry n len) :=
      fun res hres => .none_made ⟨hn, hlen, ht, hy, hyp, Or.inr hres, memory, hipar, rfl⟩
    exact (checks_output hlen hzero).bind hshows

/-- The arguments are checked in order, and what passes is shown. -/
theorem checks_check (args : CallbackArguments) (entry : Entry) (r : Registry τ) :
    Checks (Check.Passes entry args r) Check.ofArguments (args.check entry) fun windows =>
      ∃ n len, args.Shows entry n len windows := by
  unfold check
  show Checks _ ([.parameters] ++ ([.stateLen] ++ ([.eventCount] ++
    [.neq, .nrt, .t, .y, .yp, .res]))) _ _
  refine (checks_required Iff.rfl rfl).bind fun memory hipar => ?_
  refine (checks_stateLen hipar).bind fun n hn => ?_
  cases entry with
  | residual =>
    -- there is no event count to check, and as many values as state variables
    have hcount : Checks (Check.Passes .residual args r) [.eventCount] (pure n) fun len =>
        args.parameter? Entry.residual.lengthIndex = some (len : Int) := by
      refine .one ?_ (fun status h => by cases h)
      intro len h
      cases h
      exact ⟨(fun h => by cases h), hn.1⟩
    exact hcount.bind fun len hlen =>
      (checks_pointers hipar hn.1 hlen).mono fun windows h => ⟨n, len, h⟩
  | event =>
    exact (checks_eventCount hipar).bind fun len hlen =>
      (checks_pointers hipar hn.1 hlen).mono fun windows h => ⟨n, len, h⟩

end CallbackArguments

/-- The registry is checked in order, and what is available is the target. -/
theorem Registry.checks_available (entry : Entry) (args : CallbackArguments) (r : Registry τ) :
    Checks (Check.Passes entry args r) Check.ofRegistry r.available fun target =>
      r.slot = some target := by
  unfold available
  cases hlocked : r.locked with
  | true =>
    refine ⟨.unlocked, ⟨[], _, rfl, ?_, ?_⟩, rfl⟩
    · intro c hc
      cases hc
    · simp [Check.Passes, hlocked]
  | false =>
    have hunlocked : Check.Passes entry args r .unlocked := hlocked
    cases hpoisoned : r.poisoned with
    | true =>
      refine ⟨.unpoisoned, ⟨[.unlocked], _, rfl, ?_, ?_⟩, rfl⟩
      · intro c hc
        rw [List.mem_singleton.mp hc]
        exact hunlocked
      · simp [Check.Passes, hpoisoned]
    | false =>
      have hunpoisoned : Check.Passes entry args r .unpoisoned := hpoisoned
      cases hslot : r.slot with
      | none =>
        refine ⟨.installed, ⟨[.unlocked, .unpoisoned], [], rfl, ?_, ?_⟩, rfl⟩
        · simp [hunlocked, hunpoisoned]
        · simp [Check.Passes, hslot]
      | some target =>
        have hinstalled : Check.Passes entry args r .installed := by
          simp [Check.Passes, hslot]
        refine ⟨?_, rfl⟩
        simp [Check.ofRegistry, hunlocked, hunpoisoned, hinstalled]

/-! ## Letting a target in -/

/-- What a callback that passes all checks goes on with: the windows and the target. -/
def CallbackArguments.admitted (args : CallbackArguments) (entry : Entry) (r : Registry τ) :
    Except Status (Windows × τ) := do
  let windows ← args.check entry
  let target ← r.available
  return (windows, target)

/-- All checks are made in order. -/
theorem CallbackArguments.checks_admitted (args : CallbackArguments) (entry : Entry)
    (r : Registry τ) :
    Checks (Check.Passes entry args r) Check.inOrder (args.admitted entry r) fun admitted =>
      (∃ n len, args.Shows entry n len admitted.1) ∧ r.slot = some admitted.2 := by
  unfold admitted Check.inOrder
  refine (args.checks_check entry r).bind fun windows hshows => ?_
  have hreturn : ∀ target : τ, r.slot = some target →
      Checks (Check.Passes entry args r) [] (pure (windows, target)) fun admitted =>
        (∃ n len, args.Shows entry n len admitted.1) ∧ r.slot = some admitted.2 :=
    fun target hslot => .none_made ⟨hshows, hslot⟩
  exact (r.checks_available entry args).bind hreturn

/-- What is not available is not admitted. -/
theorem CallbackArguments.admitted_of_available_error (args : CallbackArguments) (entry : Entry)
    {r : Registry τ} {status : Status} (h : r.available = .error status) :
    ∃ status', args.admitted entry r = .error status' := by
  cases hadmitted : args.admitted entry r with
  | error status' => exact ⟨status', rfl⟩
  | ok admitted =>
    obtain ⟨windows, -, hrest⟩ := bind_eq_ok hadmitted
    obtain ⟨target, havailable, -⟩ := bind_eq_ok hrest
    rw [h] at havailable
    cases havailable

/-- If the arguments are in order, the registry alone decides. -/
theorem CallbackArguments.admitted_eq_available {args : CallbackArguments} {entry : Entry}
    {r : Registry τ} (hpasses : ∀ check ∈ Check.ofArguments, check.Passes entry args r) :
    ∃ windows n len, args.Shows entry n len windows ∧
      args.admitted entry r = r.available.map fun target => (windows, target) := by
  have hchecks := args.checks_check entry r
  unfold admitted
  cases hcheck : args.check entry with
  | ok windows =>
    rw [hcheck] at hchecks
    obtain ⟨-, n, len, hshows⟩ := hchecks
    refine ⟨windows, n, len, hshows, ?_⟩
    cases r.available <;> rfl
  | error status =>
    rw [hcheck] at hchecks
    obtain ⟨check, ⟨before, after, hordered, -, hfails⟩, -⟩ := hchecks
    have hmem : check ∈ Check.ofArguments := by
      rw [hordered]
      exact List.mem_append_right _ List.mem_cons_self
    exact absurd (hpasses check hmem) hfails

end CallbackBridge
