/-
# Failures of user code, and of everything else

A host can report that user code has failed from any operation, but only a call of the user
function makes that a failure of the function; from any other operation it is an error of the
host.  The difference decides whether the solver may try again with a smaller step.

* `raised?` gives the error of the bridge for what an operation reports, and `raisedErrors` those
  of a list of operations: in an invocation that is one error at most.
* `TargetSystem.Serves` says that a target of native callbacks evaluates a bridge.
* `userFailures_reported` puts both together.
-/
import CallbackBridge.Process.Engine
import CallbackBridge.Proofs.Callbacks
import CallbackBridge.Proofs.Rooting
import CallbackBridge.Proofs.Validation
namespace CallbackBridge

open HostOperation

variable {σ R K : Type}

/-! ## Errors for failing operations -/

namespace HostOperation

/-- The error of the bridge for the failure that an operation reports, if it reports one; a
function that fails when it is called is reported under the given name. -/
def raised? (name : String) : HostOperation R K → Option BridgeError
  | materialize _ (.error e) => some (.host e)
  | repoint _ _ (.error e) => some (.host e)
  | call _ _ (.error (.error e)) => some (e.ofCall name)
  | read _ (.error e) => some e.ofResult
  | _ => none

/-- The errors of the bridge for all failures that operations report, in order. -/
def raisedErrors (name : String) (ops : List (HostOperation R K)) : List BridgeError :=
  ops.filterMap (raised? name)

/-- The operation is a call in which user code fails, for the given reason. -/
def FailsWhenCalled (reason : String) : HostOperation R K → Prop
  | call _ _ outcome => outcome = .error (.error (.userFailure reason))
  | _ => False

/-- The operation reports that user code has failed, for the given reason, but it is no call. -/
def FailsOtherwise (reason : String) : HostOperation R K → Prop
  | materialize _ made => made = .error (.userFailure reason)
  | repoint _ _ done => done = .error (.userFailure reason)
  | read _ result => result = .error (.userFailure reason)
  | _ => False

variable {op : HostOperation R K} {name function reason : String}

/-- Only a call in which user code fails makes that a failure of the function. -/
theorem raised?_eq_userFunctionFailure :
    op.raised? name = some (.userFunctionFailure function reason) ↔
      function = name ∧ op.FailsWhenCalled reason := by
  cases op with
  | materialize buffer made => cases made <;> simp [raised?, FailsWhenCalled]
  | repoint view buffer done => cases done <;> simp [raised?, FailsWhenCalled]
  | read value result =>
    rcases result with e | values
    · cases e <;> simp [raised?, FailsWhenCalled, HostError.ofResult]
    · simp [raised?, FailsWhenCalled]
  | call f views outcome =>
    rcases outcome with ⟨e | message⟩ | r
    · cases e <;> simp [raised?, FailsWhenCalled, HostError.ofCall, eq_comm]
    · simp [raised?, FailsWhenCalled]
    · simp [raised?, FailsWhenCalled]
  | _ => simp [raised?, FailsWhenCalled]

/-- From all other operations it is an error of the host. -/
theorem raised?_eq_host_userFailure :
    op.raised? name = some (.host (.userFailure reason)) ↔ op.FailsOtherwise reason := by
  cases op with
  | materialize buffer made => cases made <;> simp [raised?, FailsOtherwise]
  | repoint view buffer done => cases done <;> simp [raised?, FailsOtherwise]
  | read value result =>
    rcases result with e | values
    · cases e <;> simp [raised?, FailsOtherwise, HostError.ofResult]
    · simp [raised?, FailsOtherwise]
  | call f views outcome =>
    rcases outcome with ⟨e | message⟩ | r
    · cases e <;> simp [raised?, FailsOtherwise, HostError.ofCall]
    · simp [raised?, FailsOtherwise]
    · simp [raised?, FailsOtherwise]
  | _ => simp [raised?, FailsOtherwise]

end HostOperation

/-- The error says that user code has failed. -/
def BridgeError.OfUserCode : BridgeError → Prop
  | host (.userFailure _) => True
  | userFunctionFailure _ _ => True
  | _ => False

/-! ## What each part of an invocation raises -/

/-- The error for a result that was obtained from the host on the way to the call. -/
def errorsOf {α : Type} : Except HostError α → List BridgeError
  | .ok _ => []
  | .error e => [.host e]

theorem errorsOf_map {α β : Type} (f : α → β) (result : Except HostError α) :
    errorsOf (result.map f) = errorsOf result := by
  cases result <;> rfl

section Parts

variable {name : String} {ops : List (HostOperation R K)}

/-- Looking for the function runs no user code. -/
theorem Lookup.raised {names : BindingNames} {entry : Entry} {symbols : Symbols K}
    {result : Except BridgeError R} (h : Lookup names entry symbols ops result) :
    raisedErrors name ops = [] ∧ ∀ e, result = .error e → ¬ e.OfUserCode := by
  cases h <;> simp [raisedErrors, raised?, BridgeError.OfUserCode]

/-- Making views raises what stops it. -/
theorem Makes.raised {buffers : List Buffer} {result : Except HostError (List R)}
    (h : Makes buffers ops result) : raisedErrors name ops = errorsOf result := by
  induction h with
  | nil => rfl
  | failed => rfl
  | made _ ih => exact ih.trans (errorsOf_map _ _).symm

/-- Moving views raises what stops it. -/
theorem Moves.raised {moves : List (R × Buffer)} {result : Except HostError Unit}
    (h : Moves moves ops result) : raisedErrors name ops = errorsOf result := by
  induction h with
  | nil => rfl
  | failed => rfl
  | moved _ ih => exact ih

/-- Obtaining views raises what stops it, unless the host cannot move views at all. -/
theorem Viewing.raised {supportsReuse : Bool} {buffers : StateViews Buffer}
    {strategy : ViewStrategy} {kept kept' : Option (StateViews K)}
    {result : Except HostError (StateViews R)}
    (h : Viewing supportsReuse buffers strategy kept ops result kept') :
    raisedErrors name ops = errorsOf result ∨
      raisedErrors name ops = [] ∧ result = .error (.unsupported "view reuse") := by
  cases h with
  | unmade hmakes => exact Or.inl hmakes.raised
  | fresh hmakes => exact Or.inl hmakes.raised
  | unsupported _ => exact Or.inr ⟨rfl, rfl⟩
  | first _ hmakes =>
    refine Or.inl ?_
    rw [raisedErrors, List.filterMap_append]
    exact (List.append_nil _).trans hmakes.raised
  | later _ hmoves =>
    refine Or.inl ?_
    rw [raisedErrors, List.filterMap_append, errorsOf_map]
    exact hmoves.raised

/-- Calling the function and reading its result raises what stops it; what keeps a result from
being copied is no failure of user code. -/
theorem Answering.raised {f : R} {views : StateViews R} {outLen : Nat} {res res' : Output}
    {outcome : Outcome BridgeError Unit} (h : Answering f name views outLen res ops outcome res') :
    (∃ e, raisedErrors name ops = [e] ∧ outcome = .error (.error e)) ∨
      raisedErrors name ops = [] ∧ ∀ e, outcome = .error (.error e) → ¬ e.OfUserCode := by
  cases h with
  | stopped stop =>
    cases stop with
    | error e => exact Or.inl ⟨_, rfl, rfl⟩
    | panic message => exact Or.inr ⟨rfl, fun e he => by cases he⟩
  | unread e => exact Or.inl ⟨_, rfl, rfl⟩
  | refused hcopy =>
    refine Or.inr ⟨rfl, fun e he => ?_⟩
    cases he
    unfold copyOut at hcopy
    split at hcopy
    · cases hcopy
      exact id
    · split at hcopy <;> cases hcopy
      exact id
  | copied _ => exact Or.inr ⟨rfl, fun e he => by cases he⟩

end Parts

/-- What is asked of the host before the guard closes raises the one error that stops it, or the
invocation does not end with a failure of user code. -/
theorem Opening.raised {supportsReuse : Bool} {bridge : Bridge K} {entry : Entry}
    {admission : Admission} {res res' : Output} {opening : List (HostOperation R K)}
    {outcome : Outcome BridgeError Unit} {kept : Option (StateViews K)}
    (h : Opening supportsReuse bridge entry admission res opening outcome kept res') :
    (∃ e, raisedErrors (bridge.config.names.reported entry) opening = [e] ∧
      outcome = .error (.error e)) ∨
    raisedErrors (bridge.config.names.reported entry) opening = [] ∧
      ∀ e, outcome = .error (.error e) → ¬ e.OfUserCode := by
  have hpinned : ∀ (looking rest : List (HostOperation R K)) (f : R) (name : String),
      raisedErrors name looking = [] →
      raisedErrors name (looking ++ .pin f :: rest) = raisedErrors name rest := by
    intro looking rest f name hlooking
    rw [raisedErrors, List.filterMap_append]
    exact congrArg (· ++ raisedErrors name rest) hlooking
  cases h with
  | unfound hlookup =>
    obtain ⟨hnone, herror⟩ := hlookup.raised
    refine Or.inr ⟨hnone, fun e he => ?_⟩
    cases he
    exact herror _ rfl
  | unseen hlookup hviewing =>
    rw [hpinned _ _ _ _ hlookup.raised.1]
    rcases hviewing.raised with hraised | ⟨hnone, hunsupported⟩
    · exact Or.inl ⟨_, hraised, rfl⟩
    · refine Or.inr ⟨hnone, fun e he => ?_⟩
      cases he
      cases hunsupported
      exact id
  | @asked looking viewing asking f views _ _ _ hlookup hviewing hanswering =>
    have hviews : raisedErrors (bridge.config.names.reported entry) viewing = [] := by
      rcases hviewing.raised with hraised | ⟨-, hunsupported⟩
      · exact hraised
      · cases hunsupported
    have hall : raisedErrors (bridge.config.names.reported entry)
        (looking ++ .pin f :: (viewing ++ asking)) =
          raisedErrors (bridge.config.names.reported entry) asking := by
      rw [hpinned _ _ _ _ hlookup.raised.1, raisedErrors, List.filterMap_append]
      exact congrArg (· ++ raisedErrors _ asking) hviews
    rw [hall]
    exact hanswering.raised

/-- Closing the guard raises nothing. -/
theorem raisedErrors_closing (name : String) (ops : List (HostOperation R K)) :
    raisedErrors name (closing ops) = [] := by
  rw [raisedErrors, List.filterMap_eq_nil_iff]
  simp [closing, raised?, or_imp, forall_and]

/-- Arguments are not refused because of user code. -/
theorem Demand.Refuses.not_ofUserCode {config : BridgeConfig} {entry : Entry} {call : Invocation}
    {demand : Demand} {e : BridgeError} (h : demand.Refuses config entry call e) :
    ¬ e.OfUserCode := by
  intro he
  cases demand <;> simp only [Demand.Refuses] at h <;> grind [BridgeError.OfUserCode]

/-! ## Whole invocations -/

namespace Bridge

variable (host : HostRuntime σ R K) (bridge : Bridge K) (entry : Entry) (call : Invocation) (s : σ)

/-- The user function is called and fails, for the given reason. -/
def FunctionFails (reason : String) : Prop :=
  ∃ op ∈ bridge.operations host entry call s, op.FailsWhenCalled reason

/-- User code fails in an operation that is no call, for the given reason. -/
def HostFails (reason : String) : Prop :=
  ∃ op ∈ bridge.operations host entry call s, op.FailsOtherwise reason

/-- An invocation raises the one error that it ends with, or it does not end with a failure of
user code. -/
theorem evaluate_raised :
    (∃ e, raisedErrors (bridge.config.names.reported entry)
        (bridge.operations host entry call s) = [e] ∧
      (bridge.evaluate host entry call s).outcome = .error (.error e)) ∨
    raisedErrors (bridge.config.names.reported entry) (bridge.operations host entry call s) = [] ∧
      ∀ e, (bridge.evaluate host entry call s).outcome = .error (.error e) → ¬ e.OfUserCode := by
  have hconducted := bridge.evaluate_traced host entry call s
  have hexamined := examines_check bridge.config entry call
  cases hcheck : bridge.config.check entry call with
  | error e =>
    rw [hcheck] at hexamined
    obtain ⟨demand, -, hrefuses⟩ := hexamined
    rw [hconducted.rejected e hcheck, evaluate_of_rejected hcheck]
    refine Or.inr ⟨rfl, fun e' he' => ?_⟩
    cases he'
    exact hrefuses.not_ofUserCode
  | ok admission =>
    obtain ⟨opening, hopening, hops⟩ := hconducted.admitted admission hcheck
    rw [hops, raisedErrors, List.filterMap_append]
    rw [show (closing opening).filterMap (raised? _) = [] from raisedErrors_closing _ opening,
      List.append_nil]
    exact hopening.raised

/-- An invocation ends with a failure of user code exactly if an operation has reported it. -/
theorem evaluate_eq_error_iff {e : BridgeError} (he : e.OfUserCode) :
    (bridge.evaluate host entry call s).outcome = .error (.error e) ↔
      ∃ op ∈ bridge.operations host entry call s,
        op.raised? (bridge.config.names.reported entry) = some e := by
  have hmem : (∃ op ∈ bridge.operations host entry call s,
      op.raised? (bridge.config.names.reported entry) = some e) ↔
        e ∈ raisedErrors (bridge.config.names.reported entry)
          (bridge.operations host entry call s) :=
    List.mem_filterMap.symm
  rw [hmem]
  rcases bridge.evaluate_raised host entry call s with ⟨e', hraised, houtcome⟩ | ⟨hnone, hother⟩
  · rw [hraised, houtcome, List.mem_singleton]
    simp [eq_comm]
  · rw [hnone]
    exact iff_of_false (fun houtcome => hother e houtcome he) List.not_mem_nil

/-- An invocation reports a failure of the function exactly if that was called and failed. -/
theorem evaluate_eq_userFunctionFailure (function reason : String) :
    (bridge.evaluate host entry call s).outcome =
        .error (.error (.userFunctionFailure function reason)) ↔
      function = bridge.config.names.reported entry ∧
        bridge.FunctionFails host entry call s reason := by
  have he : (BridgeError.userFunctionFailure function reason).OfUserCode := trivial
  rw [bridge.evaluate_eq_error_iff host entry call s he]
  simp only [raised?_eq_userFunctionFailure, FunctionFails]
  constructor
  · rintro ⟨op, hop, hfunction, hfails⟩
    exact ⟨hfunction, op, hop, hfails⟩
  · rintro ⟨hfunction, op, hop, hfails⟩
    exact ⟨op, hop, hfunction, hfails⟩

/-- An invocation reports a failure of user code as one of the host exactly if an operation that
is no call has reported it. -/
theorem evaluate_eq_host_userFailure (reason : String) :
    (bridge.evaluate host entry call s).outcome = .error (.error (.host (.userFailure reason))) ↔
      bridge.HostFails host entry call s reason := by
  have he : (BridgeError.host (.userFailure reason)).OfUserCode := trivial
  rw [bridge.evaluate_eq_error_iff host entry call s he]
  simp only [raised?_eq_host_userFailure, HostFails]

/-- The function was called and failed exactly if the invocation ends with an error that is a
failure of the function. -/
theorem exists_functionFails_iff : (∃ reason, bridge.FunctionFails host entry call s reason) ↔
    ∃ e, (bridge.evaluate host entry call s).outcome = .error (.error e) ∧
      e.isUserFailure = true := by
  constructor
  · rintro ⟨reason, hfails⟩
    have houtcome := (bridge.evaluate_eq_userFunctionFailure host entry call s _ reason).mpr
      ⟨rfl, hfails⟩
    exact ⟨_, houtcome, rfl⟩
  · rintro ⟨e, houtcome, hfailure⟩
    cases e with
    | userFunctionFailure function reason =>
      exact ⟨reason,
        ((bridge.evaluate_eq_userFunctionFailure host entry call s _ _).mp houtcome).2⟩
    | _ => cases hfailure

end Bridge

/-! ## Targets that evaluate a bridge -/

/-- The windows are passed to a bridge as they are. -/
structure Windows.Passed (windows : Windows) (call : Invocation) : Prop where
  /-- The time. -/
  t : call.t.len = windows.t.length
  /-- The state. -/
  y : call.y.len = windows.y.length
  /-- The derivative. -/
  yp : call.yp.len = windows.yp.length
  /-- The integer parameters. -/
  ipar : call.ipar = windows.ipar
  /-- The output. -/
  res : call.res = windows.res

/-- A target that evaluates a bridge into a host when it is entered. -/
structure TargetSystem.Serves {τ ω : Type} (system : TargetSystem τ ω) (target : τ)
    (host : HostRuntime σ R K) (bridge : Bridge K) where
  /-- The invocation that the windows are passed in, and the state of the host in which it is
  made. -/
  opens : Windows → NativeState τ ω → Invocation × σ
  /-- The windows are passed as they are. -/
  passed : ∀ (windows : Windows) (s : NativeState τ ω), windows.Passed (opens windows s).1
  /-- The settings of the bridge say what a failure asks of the solver. -/
  policy : system.policy target = bridge.config.userFailure
  /-- The target ends as the evaluation does. -/
  outcome : ∀ entry windows s, (system.run target entry windows s).outcome =
    (bridge.evaluate host entry (opens windows s).1 (opens windows s).2).outcome

/-- Exposed windows are passed as they are. -/
theorem Windows.passed_expose (windows : Windows) (m : Memory) :
    windows.Passed (windows.expose m).1 :=
  ⟨rfl, rfl, rfl, rfl, rfl⟩

namespace Engine

variable {F G : Type}

/-- A session evaluates its bridge into its heap. -/
def servesSession (engine : Engine F G) (serial : Nat) (session : HeapSession F) :
    engine.targetSystem.Serves ⟨serial, .session session⟩ (HeapWorld.runtime engine.native)
      session.bridge where
  opens windows p :=
    ((windows.expose session.memory).1, ⟨session.heap, (windows.expose session.memory).2, p⟩)
  passed windows _ := windows.passed_expose session.memory
  policy := rfl
  outcome _ _ _ := rfl

/-- A bridge into the reference-counting host is evaluated there. -/
def servesCounted (engine : Engine F G) (serial : Nat) (bridge : Bridge ObjId)
    (dict : Option ObjId) :
    engine.targetSystem.Serves ⟨serial, .counted bridge dict⟩
      (CountedWorld.runtime engine.callable) bridge where
  opens windows p :=
    ((windows.expose {}).1, { process := p, memory := (windows.expose {}).2, dict })
  passed windows _ := windows.passed_expose {}
  policy := rfl
  outcome _ _ _ := rfl

end Engine

/-! ## The solver's flag -/

/-- What becomes of the solver's flag in a callback that has evaluated a bridge, when `asks` says
whether a smaller step is to be asked for. -/
structure Flagged (asks : Prop) (outcome : Outcome BridgeError Unit) (before after : Option Int) :
    Prop where
  /-- A flag that has not asked for a smaller step before does so exactly if it is to. -/
  retry_iff : ∀ flag, before = some flag → flag ≠ -1 → (after = some (-1) ↔ asks)
  /-- Whatever it was before, it then asks for a smaller step. -/
  retry : asks → after = before.map fun _ => -1
  /-- A success leaves it alone. -/
  success : outcome = .ok () → after = before
  /-- In all other cases it asks the solver to stop. -/
  stop : ¬ asks → outcome ≠ .ok () → after = before.map fun _ => -2

/-- What is written into the flag says what it asks for. -/
theorem Flagged.of_cases {asks : Prop} {outcome : Outcome BridgeError Unit}
    {before after : Option Int}
    (h : (asks ∧ outcome ≠ .ok () ∧ after = before.map fun _ => -1) ∨
      (¬ asks ∧ outcome = .ok () ∧ after = before) ∨
      (¬ asks ∧ outcome ≠ .ok () ∧ after = before.map fun _ => -2)) :
    Flagged asks outcome before after := by
  rcases h with ⟨hasks, hstopped, rfl⟩ | ⟨hasks, hok, rfl⟩ | ⟨hasks, hstopped, rfl⟩
  · refine ⟨?_, fun _ => rfl, fun hok => absurd hok hstopped, fun hnot => absurd hasks hnot⟩
    rintro flag rfl -
    exact iff_of_true rfl hasks
  · refine ⟨?_, fun h => absurd h hasks, fun _ => rfl, fun _ hnot => absurd hok hnot⟩
    rintro flag rfl hflag
    exact iff_of_false (fun heq => hflag (Option.some.inj heq)) hasks
  · refine ⟨?_, fun h => absurd h hasks, fun hok => absurd hok hstopped, fun _ _ => rfl⟩
    rintro flag rfl -
    exact iff_of_false (by simp) hasks

/-- A callback that enters a target has been admitted. -/
theorem TargetSystem.admitted_of_entered {τ ω : Type} (system : TargetSystem τ ω) {entry : Entry}
    {args : CallbackArguments} {s : NativeState τ ω} {target : τ} {windows : Windows}
    (h : system.entered entry args s = [⟨target, entry, windows⟩]) :
    args.admitted entry s.registry = .ok (windows, target) := by
  cases hadmitted : args.admitted entry s.registry with
  | error status =>
    rw [system.entered_of_error hadmitted] at h
    cases h
  | ok admitted =>
    rw [system.entered_of_ok hadmitted] at h
    cases h
    rfl

/-- What a callback reports of a target that has evaluated a bridge. -/
theorem Reported.flagged {τ ω : Type} {run : TargetRun τ ω} {args : CallbackArguments} {len : Nat}
    {effect : CallbackEffect} {s' : NativeState τ ω} {host : HostRuntime σ R K} {bridge : Bridge K}
    {entry : Entry} {call : Invocation} {start : σ}
    (h : Reported bridge.config.userFailure run args len effect s')
    (houtcome : run.outcome = (bridge.evaluate host entry call start).outcome) :
    Flagged (bridge.config.userFailure = .retrySmallerStep ∧
        ∃ reason, bridge.FunctionFails host entry call start reason)
      (bridge.evaluate host entry call start).outcome args.ires effect.ires := by
  have hfails := bridge.exists_functionFails_iff host entry call start
  rw [← houtcome] at hfails ⊢
  refine .of_cases ?_
  rcases hrun : run.outcome with ⟨e | message⟩ | ⟨⟩
  · rw [hrun] at hfails
    have hires := (h.failed e hrun).2
    by_cases hretry : e.isUserFailure = true ∧ bridge.config.userFailure = .retrySmallerStep
    · rw [if_pos hretry] at hires
      exact Or.inl ⟨⟨hretry.2, hfails.mpr ⟨e, rfl, hretry.1⟩⟩, by simp, hires⟩
    · rw [if_neg hretry] at hires
      refine Or.inr (Or.inr ⟨?_, by simp, hires⟩)
      rintro ⟨hpolicy, hfunction⟩
      obtain ⟨e', heq, hfailure⟩ := hfails.mp hfunction
      cases heq
      exact hretry ⟨hfailure, hpolicy⟩
  · rw [hrun] at hfails
    refine Or.inr (Or.inr ⟨?_, by simp, (h.panicked message hrun).2⟩)
    rintro ⟨-, hfunction⟩
    obtain ⟨e, heq, -⟩ := hfails.mp hfunction
    cases heq
  · rw [hrun] at hfails
    refine Or.inr (Or.inl ⟨?_, rfl, (h.returned hrun).2⟩)
    rintro ⟨-, hfunction⟩
    obtain ⟨e, heq, -⟩ := hfails.mp hfunction
    cases heq

/-- **Only a failing user function asks for a smaller step.** On every host, a failure of user
code is one of the function, under its configured name, exactly if the function was called and
reported it; reported by any other operation it is an error of the host.  In a native callback that
enters a target which evaluates the bridge, the flag therefore asks for a smaller step exactly if
the policy says so and the function was called and reported a failure. -/
theorem userFailures_reported (host : HostRuntime σ R K) (bridge : Bridge K) :
    (∀ entry call s function reason, (bridge.evaluate host entry call s).outcome =
        .error (.error (.userFunctionFailure function reason)) ↔
      function = bridge.config.names.reported entry ∧
        bridge.FunctionFails host entry call s reason) ∧
    (∀ entry call s reason, (bridge.evaluate host entry call s).outcome =
        .error (.error (.host (.userFailure reason))) ↔
      bridge.HostFails host entry call s reason) ∧
    ∀ {τ ω : Type} (system : TargetSystem τ ω) (target : τ)
      (session : system.Serves target host bridge) (native : NativeEntry)
      (args : CallbackArguments) (s : NativeState τ ω) (windows : Windows),
      system.entered native.entry (native.restrict args) s = [⟨target, native.entry, windows⟩] →
      ∃ call start, session.opens windows { s with registry := s.registry.enter } = (call, start) ∧
        Flagged (bridge.config.userFailure = .retrySmallerStep ∧
            ∃ reason, bridge.FunctionFails host native.entry call start reason)
          (bridge.evaluate host native.entry call start).outcome (native.restrict args).ires
          (system.callback native.entry (native.restrict args) s).1.ires := by
  refine ⟨bridge.evaluate_eq_userFunctionFailure host, bridge.evaluate_eq_host_userFailure host, ?_⟩
  intro τ ω system target session native args s windows hentered
  have hadmitted := system.admitted_of_entered hentered
  obtain ⟨n, len, hshows⟩ : ∃ n len, (native.restrict args).Shows native.entry n len windows := by
    have hchecks := (native.restrict args).checks_admitted native.entry s.registry
    rw [hadmitted] at hchecks
    exact hchecks.2.1
  have hreported := reported_callback system hadmitted hshows
  rw [session.policy] at hreported
  refine ⟨_, _, rfl, ?_⟩
  exact hreported.flagged (session.outcome native.entry windows _)

/-! ## A session that asks for a smaller step -/

namespace Retrying

/-- Its bridge looks functions up in every call and lets the solver try again. -/
def bridge : Bridge Rooted :=
  .start { userFailure := .retrySmallerStep, names := ⟨"f", none⟩ } .perCall

/-- The session, with one function on its heap. -/
def session : HeapSession Unit where
  heap := ((Heap.ofConfig ⟨0⟩).defineFunction ⟨"f", ()⟩).2
  bridge

/-- On these machines every function fails. -/
def engine : Engine Unit Unit where
  native _ _ := Act.fail (.userFailure "out of range")
  callable := Engine.exhausted.callable

/-- The process in which the session is registered. -/
def process : Process Unit Unit where
  registry := { slot := some ⟨0, .session session⟩ }
  rest := {}

/-- The pointers of a callback. -/
def args : CallbackArguments where
  t := some [.zero]
  y := some [.zero]
  yp := some [.zero]
  res := some (.fresh 1)
  ipar := some [1]
  ires := some 0
  neq := none
  nrt := none

/-- What the session gets to see. -/
def windows : Windows where
  t := [.zero]
  y := [.zero]
  yp := [.zero]
  ipar := ⟨[1]⟩
  res := .fresh 1

/-- The state of the host in which it evaluates its bridge. -/
def world : HeapWorld Unit (Process Unit Unit) :=
  ⟨session.heap, (windows.expose {}).2, { process with registry := process.registry.enter }⟩

end Retrying

open Retrying in
/-- The function fails, the failure is reported under its name, and a smaller step is asked for. -/
theorem userFailures_reported_retrying :
    engine.targetSystem.entered .residual args process =
      [⟨⟨0, .session session⟩, .residual, windows⟩] ∧
    bridge.FunctionFails (HeapWorld.runtime engine.native) .residual (windows.expose {}).1 world
      "out of range" ∧
    (bridge.evaluate (HeapWorld.runtime engine.native) .residual (windows.expose {}).1
      world).outcome = .error (.error (.userFunctionFailure "f" "out of range")) ∧
    (engine.targetSystem.callback .residual args process).1.ires = some (-1) := by
  have hadmitted : args.admitted .residual process.registry =
      .ok (windows, ⟨0, .session session⟩) := rfl
  have hentered := engine.targetSystem.entered_of_ok hadmitted
  have hraised : raisedErrors "f" (bridge.operations (HeapWorld.runtime engine.native) .residual
      (windows.expose {}).1 world) = [.userFunctionFailure "f" "out of range"] := by decide +kernel
  have hmem := List.mem_singleton_self (BridgeError.userFunctionFailure "f" "out of range")
  rw [← hraised] at hmem
  obtain ⟨op, hop, hraises⟩ := List.mem_filterMap.mp hmem
  have hfails : bridge.FunctionFails (HeapWorld.runtime engine.native) .residual
      (windows.expose {}).1 world "out of range" :=
    ⟨op, hop, (raised?_eq_userFunctionFailure.mp hraises).2⟩
  obtain ⟨hfunction, -, hcallback⟩ :=
    userFailures_reported (HeapWorld.runtime engine.native) bridge
  obtain ⟨call, start, hopens, hflagged⟩ := hcallback engine.targetSystem _
    (engine.servesSession 0 session) .daskrResidual args process windows hentered
  cases hopens
  exact ⟨hentered, hfails, (hfunction _ _ _ _ _).mpr ⟨rfl, hfails⟩,
    (hflagged.retry_iff 0 rfl (by decide)).mpr ⟨rfl, _, hfails⟩⟩

end CallbackBridge
