/-
# Two checks of the same arguments

A native callback checks pointers and lengths before it enters its target, and a target that
evaluates a bridge has the same arguments checked once more, as windows.

* `Windows.Declared` is what the first check leaves to the second: the lengths stand in the integer
  parameters, and the windows have them.
* `BridgeConfig.ChecksAs` says how the second check can end then: only a length that is configured
  otherwise is refused.
* `Opening.error_not_ofArguments` says that nothing after the checks, the copy of the result
  included, ends with an error about arguments, and `native_checks_agree` puts this together for
  every callback.
-/
import CallbackBridge.Proofs.UserFailures
import CallbackBridge.Proofs.Validation
namespace CallbackBridge

open HostOperation

variable {σ R K τ ω : Type}

/-! ## Errors about arguments -/

/-- The error is about the arguments of an invocation. -/
def BridgeError.OfArguments : BridgeError → Prop
  | .invalidLengthParameter _ _ => True
  | .missingLengthParameter _ => True
  | .unexpectedLength _ _ _ => True
  | .bufferTooShort _ _ _ => True
  | _ => False

/-- What a host reports of a call is not about arguments. -/
theorem HostError.not_ofArguments_ofCall (name : String) (e : HostError) :
    ¬ (e.ofCall name).OfArguments := by
  cases e <;> exact fun h => h

/-- What a host reports of a result is not about arguments. -/
theorem HostError.not_ofArguments_ofResult (e : HostError) : ¬ e.ofResult.OfArguments := by
  cases e <;> exact fun h => h

/-- A search does not fail for the arguments. -/
theorem Lookup.error_not_ofArguments {names : BindingNames} {entry : Entry} {symbols : Symbols K}
    {looking : List (HostOperation R K)} {e : BridgeError}
    (h : Lookup names entry symbols looking (.error e)) : ¬ e.OfArguments := by
  cases h <;> exact fun h => h

/-- Where there is room for the result, a copy that is not made is not made for the result. -/
theorem copyOut_error_not_ofArguments {values : List Binary64} {res : Output} {len : Nat}
    {e : BridgeError} (hroom : len ≤ res.length) (h : copyOut values res len = .error e) :
    ¬ e.OfArguments := by
  unfold copyOut at h
  by_cases hshort : values.length < len
  · rw [if_pos hshort] at h
    cases h
    exact fun h => h
  · rw [if_neg hshort, if_neg (Nat.not_lt_of_le hroom)] at h
    cases h

/-- A call and its delivery do not fail for the arguments. -/
theorem Answering.error_not_ofArguments {f : R} {name : String} {views : StateViews R}
    {outLen : Nat} {res res' : Output} {ops : List (HostOperation R K)}
    {outcome : Outcome BridgeError Unit} {e : BridgeError} (hroom : outLen ≤ res.length)
    (h : Answering f name views outLen res ops outcome res')
    (houtcome : outcome = .error (.error e)) : ¬ e.OfArguments := by
  cases h with
  | stopped stop =>
    cases stop with
    | error reported =>
      cases houtcome
      exact reported.not_ofArguments_ofCall name
    | panic message => cases houtcome
  | unread reported =>
    cases houtcome
    exact reported.not_ofArguments_ofResult
  | refused hcopy =>
    cases houtcome
    exact copyOut_error_not_ofArguments hroom hcopy
  | copied _ => cases houtcome

/-- **Once the arguments are accepted, nothing fails for them.** -/
theorem Opening.error_not_ofArguments {supportsReuse : Bool} {bridge : Bridge K} {entry : Entry}
    {admission : Admission} {res res' : Output} {opening : List (HostOperation R K)}
    {outcome : Outcome BridgeError Unit} {kept : Option (StateViews K)} {e : BridgeError}
    (hroom : admission.outLen ≤ res.length)
    (h : Opening supportsReuse bridge entry admission res opening outcome kept res')
    (houtcome : outcome = .error (.error e)) : ¬ e.OfArguments := by
  cases h with
  | unfound hlookup =>
    cases houtcome
    exact hlookup.error_not_ofArguments
  | unseen _ _ =>
    cases houtcome
    exact fun h => h
  | asked _ _ hanswering => exact hanswering.error_not_ofArguments hroom houtcome

/-- An invocation fails for its arguments only where they are refused. -/
theorem Bridge.check_of_ofArguments {host : HostRuntime σ R K} {bridge : Bridge K} {entry : Entry}
    {call : Invocation} {s : σ} {e : BridgeError} (he : e.OfArguments)
    (houtcome : (bridge.evaluate host entry call s).outcome = .error (.error e)) :
    bridge.config.check entry call = .error e := by
  cases hcheck : bridge.config.check entry call with
  | error refusal =>
    rw [evaluate_of_rejected hcheck] at houtcome
    cases houtcome
    rfl
  | ok admission =>
    obtain ⟨n, haccepted⟩ := BridgeConfig.accepted_of_check hcheck
    obtain ⟨opening, hopening, -⟩ :=
      (bridge.evaluate_traced host entry call s).admitted admission hcheck
    exact absurd he (hopening.error_not_ofArguments haccepted.res_len houtcome)

/-! ## What the first check leaves to the second -/

/-- The memory behind each pointer is as long as the integer parameters say. -/
def CallbackArguments.BackedAsDeclared (args : CallbackArguments) (entry : Entry) : Prop :=
  ∀ n len : Nat, args.parameter? LengthParameters.stateLenIndex = some (n : Int) →
    args.parameter? entry.lengthIndex = some (len : Int) → args.Backed n len

/-- The windows have the lengths that their integer parameters say. -/
structure Windows.Declared (windows : Windows) (entry : Entry) (n len : Nat) : Prop where
  /-- There is a state variable. -/
  positive : 1 ≤ n
  /-- The number of state variables is a parameter. -/
  stateLen : windows.ipar.entries[LengthParameters.stateLenIndex]? = some (n : Int)
  /-- The number of values to deliver is a parameter. -/
  outLen : windows.ipar.entries[entry.lengthIndex]? = some (len : Int)
  /-- There is one time. -/
  t : windows.t.length = 1
  /-- There is a state for each variable. -/
  y : windows.y.length = n
  /-- There is a derivative for each variable. -/
  yp : windows.yp.length = n
  /-- There is room for each value. -/
  res : windows.res.length = len

/-- What passes the checks of a callback is declared. -/
theorem CallbackArguments.Shows.declared {args : CallbackArguments} {entry : Entry} {n len : Nat}
    {windows : Windows} (h : args.Shows entry n len windows)
    (hbacked : args.BackedAsDeclared entry) {r : Registry τ}
    (hpasses : Check.Passes entry args r .stateLen) : windows.Declared entry n len := by
  obtain ⟨memory, hipar, hwindow⟩ := h.ipar
  have hstate : LengthParameters.stateLenIndex < entry.parameterCount := by
    cases entry <;> decide
  have hout : entry.lengthIndex < entry.parameterCount := by
    cases entry <;> decide
  obtain ⟨ht, hy, hyp, hres⟩ := h.lengths (hbacked n len h.stateLen h.outLen)
  obtain ⟨value, hvalue, hpositive⟩ := hpasses
  have hsame : (n : Int) = value := Option.some.inj (h.stateLen.symm.trans hvalue)
  refine ⟨by omega, ?_, ?_, ht, hy, hyp, hres⟩
  · rw [hwindow, ← parameter?_of_lt hipar hstate, h.stateLen]
  · rw [hwindow, ← parameter?_of_lt hipar hout, h.outLen]

/-! ## The second check -/

/-- The configured lengths are these. -/
def BridgeConfig.Expects (config : BridgeConfig) (entry : Entry) (n len : Nat) : Prop :=
  (∀ expected, config.stateLen = some expected → expected = n) ∧
    (entry = .event → ∀ expected, config.eventCount = some expected → expected = len)

/-- How a bridge checks an invocation for `n` state variables and `len` values to deliver. -/
structure BridgeConfig.ChecksAs (config : BridgeConfig) (entry : Entry) (call : Invocation)
    (n len : Nat) : Prop where
  /-- It finds as many state variables. -/
  stateLen : call.ipar.stateLen = .ok n
  /-- If these lengths are expected, it goes ahead with them. -/
  accepted : config.Expects entry n len → config.check entry call = .ok ⟨len, call.leading n⟩
  /-- It refuses nothing but a length that is configured otherwise. -/
  refused : ∀ e, config.check entry call = .error e →
    (∃ expected, config.stateLen = some expected ∧ expected ≠ n ∧
      e = .unexpectedLength LengthParameters.stateLenIndex expected n) ∨
    entry = .event ∧ ∃ expected, config.eventCount = some expected ∧ expected ≠ len ∧
      e = .unexpectedLength LengthParameters.eventCountIndex expected len
  /-- Then another length is expected, and so the other way round. -/
  refused_iff : (∃ e, config.check entry call = .error e) ↔ ¬ config.Expects entry n len

section Second

variable {config : BridgeConfig} {entry : Entry} {windows : Windows} {call : Invocation}
  {n len : Nat}

theorem Windows.Declared.parameter_stateLen (h : windows.Declared entry n len)
    (hpassed : windows.Passed call) :
    call.parameter? LengthParameters.stateLenIndex = some (n : Int) := by
  unfold Invocation.parameter?
  rw [hpassed.ipar, h.stateLen]

theorem Windows.Declared.parameter_outLen (h : windows.Declared entry n len)
    (hpassed : windows.Passed call) :
    call.parameter? entry.lengthIndex = some (len : Int) := by
  unfold Invocation.parameter?
  rw [hpassed.ipar, h.outLen]

/-- The demands that windows of declared lengths meet. -/
theorem Windows.Declared.met (h : windows.Declared entry n len) (hpassed : windows.Passed call)
    {demand : Demand} (hstate : demand ≠ .stateLenAgreed) (hcount : demand ≠ .eventCountAgreed) :
    demand.Met config entry call := by
  have hn := h.parameter_stateLen hpassed
  have hlen := h.parameter_outLen hpassed
  have hpositive := h.positive
  cases demand with
  | stateLenGiven => exact ⟨n, hn⟩
  | stateLenPositive => exact ⟨n, hn, by omega⟩
  | stateLenAgreed => exact absurd rfl hstate
  | eventCountGiven =>
    rintro rfl
    exact ⟨len, hlen⟩
  | eventCountNonneg =>
    rintro rfl
    exact ⟨len, hlen, by omega⟩
  | eventCountAgreed => exact absurd rfl hcount
  | time =>
    show 1 ≤ call.t.len
    exact Nat.le_of_eq (hpassed.t.trans h.t).symm
  | state =>
    exact (forall_parameter_iff hn).mpr (Nat.le_of_eq (hpassed.y.trans h.y).symm)
  | derivative =>
    exact (forall_parameter_iff hn).mpr (Nat.le_of_eq (hpassed.yp.trans h.yp).symm)
  | output =>
    have hres : call.res.length = len := by rw [hpassed.res, h.res]
    exact (forall_parameter_iff hlen).mpr (Nat.le_of_eq hres.symm)

/-- What is accepted of such windows is what they declare. -/
theorem Windows.Declared.admission_eq (h : windows.Declared entry n len)
    (hpassed : windows.Passed call) {admission : Admission}
    (hcheck : config.check entry call = .ok admission) : admission = ⟨len, call.leading n⟩ := by
  obtain ⟨found, haccepted⟩ := BridgeConfig.accepted_of_check hcheck
  have hfound := (LengthParameters.stateLen_eq_ok haccepted.stateLen).1
  have hn : (found : Int) = n :=
    Option.some.inj (hfound.symm.trans (h.parameter_stateLen hpassed))
  have hlen : (admission.outLen : Int) = len :=
    Option.some.inj (haccepted.declared.symm.trans (h.parameter_outLen hpassed))
  obtain ⟨outLen, buffers⟩ := admission
  have hbuffers := haccepted.buffers
  simp only [Int.natCast_inj] at hn hlen hbuffers
  rw [hlen, hbuffers, hn]

/-- What is refused of such windows is a length that is configured otherwise. -/
theorem Windows.Declared.refused (h : windows.Declared entry n len)
    (hpassed : windows.Passed call) {e : BridgeError}
    (hcheck : config.check entry call = .error e) :
    (∃ expected, config.stateLen = some expected ∧ expected ≠ n ∧
      e = .unexpectedLength LengthParameters.stateLenIndex expected n) ∨
    entry = .event ∧ ∃ expected, config.eventCount = some expected ∧ expected ≠ len ∧
      e = .unexpectedLength LengthParameters.eventCountIndex expected len := by
  have hn := h.parameter_stateLen hpassed
  have hlen := h.parameter_outLen hpassed
  have hexamined := examines_check config entry call
  rw [hcheck] at hexamined
  obtain ⟨demand, ⟨-, -, -, -, hunmet⟩, hrefuses⟩ := hexamined
  by_cases hstate : demand = .stateLenAgreed
  · subst hstate
    obtain ⟨expected, found, hconfigured, hfound, rfl⟩ := hrefuses
    obtain rfl : n = found := Int.ofNat.inj (Option.some.inj (hn.symm.trans hfound))
    refine .inl ⟨expected, hconfigured, ?_, rfl⟩
    rintro rfl
    refine hunmet fun other hother => ?_
    cases hconfigured.symm.trans hother
    exact hn
  by_cases hcount : demand = .eventCountAgreed
  · subst hcount
    cases entry with
    | residual => exact absurd (fun hevent => nomatch hevent) hunmet
    | event =>
      obtain ⟨expected, found, hconfigured, hfound, rfl⟩ := hrefuses
      obtain rfl : len = found := Int.ofNat.inj (Option.some.inj (hlen.symm.trans hfound))
      refine .inr ⟨rfl, expected, hconfigured, ?_, rfl⟩
      rintro rfl
      refine hunmet fun _ other hother => ?_
      cases hconfigured.symm.trans hother
      exact hlen
  exact absurd (h.met hpassed hstate hcount) hunmet

/-- What is accepted is expected. -/
theorem Windows.Declared.expects_of_check (h : windows.Declared entry n len)
    (hpassed : windows.Passed call) {admission : Admission}
    (hcheck : config.check entry call = .ok admission) : config.Expects entry n len := by
  have hexamined := examines_check config entry call
  rw [hcheck] at hexamined
  refine ⟨fun expected hexpected => ?_, fun hevent expected hexpected => ?_⟩
  · have hmet := hexamined.1 .stateLenAgreed (Demand.mem_inOrder _) expected hexpected
    exact (Int.ofNat.inj (Option.some.inj ((h.parameter_stateLen hpassed).symm.trans hmet))).symm
  · subst hevent
    have hmet := hexamined.1 .eventCountAgreed (Demand.mem_inOrder _) rfl expected hexpected
    exact (Int.ofNat.inj (Option.some.inj ((h.parameter_outLen hpassed).symm.trans hmet))).symm

/-- **The second check agrees with the first.** -/
theorem Windows.Declared.checksAs (h : windows.Declared entry n len)
    (hpassed : windows.Passed call) (config : BridgeConfig) :
    config.ChecksAs entry call n len := by
  have hrefused : ∀ e, config.check entry call = .error e → ¬ config.Expects entry n len := by
    rintro e hcheck ⟨hstate, hcount⟩
    rcases h.refused hpassed hcheck with
      ⟨expected, hconfigured, hne, -⟩ | ⟨hevent, expected, hconfigured, hne, -⟩
    · exact hne (hstate expected hconfigured)
    · exact hne (hcount hevent expected hconfigured)
  constructor
  case stateLen =>
    have hexamined : Examines (Demand.Met config entry call) (Demand.Refuses config entry call)
        [.stateLenGiven, .stateLenPositive] call.ipar.stateLen fun n =>
          call.parameter? LengthParameters.stateLenIndex = some (n : Int) ∧ 1 ≤ n :=
      examines_stateLen
    cases hfound : call.ipar.stateLen with
    | ok found =>
      rw [hfound] at hexamined
      have hn := hexamined.2.1.symm.trans (h.parameter_stateLen hpassed)
      rw [Int.ofNat.inj (Option.some.inj hn)]
    | error e =>
      rw [hfound] at hexamined
      obtain ⟨demand, ⟨before, after, hordered, -, hunmet⟩, -⟩ := hexamined
      have hmem : demand ∈ [Demand.stateLenGiven, .stateLenPositive] := by
        rw [hordered]
        simp
      refine absurd (h.met hpassed ?_ ?_) hunmet <;> (rintro rfl; simp at hmem)
  case accepted =>
    intro hexpects
    cases hcheck : config.check entry call with
    | ok admission => rw [h.admission_eq hpassed hcheck]
    | error e => exact absurd hexpects (hrefused e hcheck)
  case refused => exact fun e => h.refused hpassed
  case refused_iff =>
    refine ⟨fun ⟨e, hcheck⟩ => hrefused e hcheck, fun hunexpected => ?_⟩
    cases hcheck : config.check entry call with
    | ok admission => exact absurd (h.expects_of_check hpassed hcheck) hunexpected
    | error e => exact ⟨e, rfl⟩

end Second

/-! ## All callbacks -/

/-- How a callback and the bridge that it is dispatched to agree. -/
structure TargetSystem.ChecksAgree (host : HostRuntime σ R K) (bridge : Bridge K) (entry : Entry)
    (args : CallbackArguments) (windows : Windows) (call : Invocation) (start : σ)
    (n len : Nat) : Prop where
  /-- The callback finds these lengths. -/
  shows : args.Shows entry n len windows
  /-- The windows have them. -/
  declared : windows.Declared entry n len
  /-- The bridge finds the same, and refuses only what is configured otherwise. -/
  checks : bridge.config.ChecksAs entry call n len
  /-- An error about arguments is that refusal. -/
  refusal : ∀ e, (bridge.evaluate host entry call start).outcome = .error (.error e) →
    e.OfArguments → bridge.config.check entry call = .error e
  /-- No buffer is too short, and no length parameter is missing. -/
  spared : ∀ e, (bridge.evaluate host entry call start).outcome = .error (.error e) →
    e.status ≠ .bufferTooShort ∧ ∀ index, e ≠ .missingLengthParameter index

/-- The status of an error is that of a buffer that is too short exactly for such an error. -/
theorem BridgeError.status_eq_bufferTooShort {e : BridgeError} (h : e.status = .bufferTooShort) :
    ∃ buffer expected found, e = .bufferTooShort buffer expected found := by
  cases e <;> first | exact ⟨_, _, _, rfl⟩ | cases h

/-- No check of a callback reports a buffer that is too short. -/
theorem Check.status_ne_bufferTooShort (check : Check) : check.status ≠ .bufferTooShort := by
  cases check <;> decide

/-- A callback agrees with the bridge that it is dispatched to. -/
theorem TargetSystem.checksAgree {host : HostRuntime σ R K} {bridge : Bridge K}
    {system : TargetSystem τ ω} {target : τ} (session : system.Serves target host bridge)
    {entry : Entry} {args : CallbackArguments} {s : NativeState τ ω} {windows : Windows}
    (hadmitted : args.admitted entry s.registry = .ok (windows, target))
    (hbacked : args.BackedAsDeclared entry) :
    ∃ n len, ChecksAgree host bridge entry args windows
      (session.opens windows { s with registry := s.registry.enter }).1
      (session.opens windows { s with registry := s.registry.enter }).2 n len := by
  have hchecks := args.checks_admitted entry s.registry
  rw [hadmitted] at hchecks
  obtain ⟨hpasses, ⟨n, len, hshows⟩, -⟩ := hchecks
  have hdeclared := hshows.declared hbacked (hpasses .stateLen (by decide))
  have hagrees := hdeclared.checksAs
    (session.passed windows { s with registry := s.registry.enter }) bridge.config
  have hrefusal : ∀ e : BridgeError, (bridge.evaluate host entry
      (session.opens windows { s with registry := s.registry.enter }).1
      (session.opens windows { s with registry := s.registry.enter }).2).outcome =
        .error (.error e) → e.OfArguments → bridge.config.check entry
          (session.opens windows { s with registry := s.registry.enter }).1 = .error e :=
    fun e houtcome he => Bridge.check_of_ofArguments he houtcome
  refine ⟨n, len, hshows, hdeclared, hagrees, hrefusal, fun e houtcome => ⟨?_, ?_⟩⟩
  · intro hstatus
    obtain ⟨buffer, expected, found, rfl⟩ := e.status_eq_bufferTooShort hstatus
    rcases hagrees.refused _ (hrefusal _ houtcome trivial) with
      ⟨_, -, -, heq⟩ | ⟨-, _, -, -, heq⟩ <;> cases heq
  · rintro index rfl
    rcases hagrees.refused _ (hrefusal _ houtcome trivial) with
      ⟨_, -, -, heq⟩ | ⟨-, _, -, -, heq⟩ <;> cases heq

/-- **Both checks of a callback agree.**  In a native callback that is dispatched to a target which
evaluates a bridge, on any host, the bridge finds the lengths that the callback has found, and goes
ahead with them unless another length is configured; no buffer turns out to be too short then, and
no parameter to be missing, not where the result is copied either.  So no callback into such a
target ever reports a buffer that is too short. -/
theorem native_checks_agree (host : HostRuntime σ R K) (bridge : Bridge K)
    (system : TargetSystem τ ω) (target : τ) (session : system.Serves target host bridge)
    (native : NativeEntry) (args : CallbackArguments) (s : NativeState τ ω)
    (hbacked : (native.restrict args).BackedAsDeclared native.entry) :
    (∀ windows, system.entered native.entry (native.restrict args) s =
        [⟨target, native.entry, windows⟩] →
      ∃ n len, TargetSystem.ChecksAgree host bridge native.entry (native.restrict args) windows
        (session.opens windows { s with registry := s.registry.enter }).1
        (session.opens windows { s with registry := s.registry.enter }).2 n len) ∧
    (s.registry.slot = some target →
      (system.callback native.entry (native.restrict args) s).2.registry.lastStatus ≠
        .bufferTooShort) := by
  refine ⟨fun windows hentered =>
    TargetSystem.checksAgree session (system.admitted_of_entered hentered) hbacked, ?_⟩
  intro hslot
  have hchecks := (native.restrict args).checks_admitted native.entry s.registry
  cases hadmitted : (native.restrict args).admitted native.entry s.registry with
  | error status =>
    -- the callback is kept out by one of its own checks
    rw [hadmitted] at hchecks
    obtain ⟨check, -, rfl⟩ := hchecks
    rw [system.callback_of_error hadmitted]
    exact check.status_ne_bufferTooShort
  | ok admitted =>
    obtain ⟨windows, entered⟩ := admitted
    rw [hadmitted] at hchecks
    obtain ⟨-, ⟨n, len, hshows⟩, hentered⟩ := hchecks
    obtain rfl : target = entered := Option.some.inj (hslot.symm.trans hentered)
    obtain ⟨n', len', hagree⟩ := TargetSystem.checksAgree session hadmitted hbacked
    have hreported := reported_callback system hadmitted hshows
    have houtcome := session.outcome native.entry windows
      { s with registry := s.registry.enter }
    rcases hrun : (system.run target native.entry windows
        { s with registry := s.registry.enter }).outcome with ⟨e | message⟩ | ⟨⟩
    · rw [(hreported.failed e hrun).1]
      exact (hagree.spared e (houtcome.symm.trans hrun)).1
    · rw [(hreported.panicked message hrun).1]
      decide
    · rw [(hreported.returned hrun).1]
      decide

/-! ## A session that is configured otherwise -/

namespace Otherwise

/-- Its bridge expects two state variables. -/
def bridge : Bridge Rooted :=
  .start { stateLen := some 2, names := ⟨"f", none⟩ } .perCall

/-- The session. -/
def session : HeapSession Unit where
  heap := Heap.ofConfig ⟨0⟩
  bridge

/-- The process in which the session is registered. -/
def process : Process Unit Unit where
  registry := { slot := some ⟨0, .session session⟩ }
  rest := {}

end Otherwise

open Retrying in
/-- A callback for one state variable is dispatched to it, and is refused for that alone. -/
theorem native_checks_agree_otherwise :
    args.BackedAsDeclared .residual ∧
    engine.targetSystem.entered .residual args Otherwise.process =
      [⟨⟨0, .session Otherwise.session⟩, .residual, windows⟩] ∧
    (Otherwise.bridge.evaluate (HeapWorld.runtime engine.native) .residual (windows.expose {}).1
      ⟨Otherwise.session.heap, (windows.expose {}).2,
        { Otherwise.process with registry := Otherwise.process.registry.enter }⟩).outcome =
      .error (.error (.unexpectedLength 0 2 1)) ∧
    (engine.targetSystem.callback .residual args Otherwise.process).2.registry.lastStatus ≠
      .bufferTooShort := by
  have hbacked : args.BackedAsDeclared .residual := by
    intro n len hn hlen
    obtain rfl : 1 = n := Int.ofNat.inj (Option.some.inj hn)
    obtain rfl : 1 = len := Int.ofNat.inj (Option.some.inj hlen)
    constructor <;> (intro memory hmemory; cases hmemory; decide)
  have hentered : engine.targetSystem.entered .residual args Otherwise.process =
      [⟨⟨0, .session Otherwise.session⟩, .residual, windows⟩] :=
    engine.targetSystem.entered_of_ok rfl
  obtain ⟨hagrees, hstatus⟩ := native_checks_agree (HeapWorld.runtime engine.native)
    Otherwise.bridge engine.targetSystem ⟨0, .session Otherwise.session⟩
    (engine.servesSession 0 Otherwise.session) .daskrResidual args Otherwise.process hbacked
  obtain ⟨n, len, hagree⟩ := hagrees windows hentered
  refine ⟨hbacked, hentered, ?_, hstatus rfl⟩
  have hn : n = 1 := Int.ofNat.inj (Option.some.inj (hagree.shows.stateLen.symm.trans rfl))
  obtain ⟨e, hcheck⟩ := hagree.checks.refused_iff.mpr fun hexpects => by
    have htwo := hexpects.1 2 rfl
    omega
  rcases hagree.checks.refused e hcheck with ⟨expected, hconfigured, -, rfl⟩ | ⟨hevent, -⟩
  · cases hconfigured
    rw [hn] at hcheck
    exact congrArg Evaluation.outcome (Bridge.evaluate_of_rejected hcheck _ _)
  · cases hevent

end CallbackBridge
