/-
# Evaluations of bridges to given functions

A client hands functions to a bridge and has it evaluated.  Between the two lie the configuration,
the registry, the checks of the callback, the bridge itself, the reference-counting host, and the
status, through which alone the client learns how it ended.

* `Request.windows` is what the target gets to see of a request (`Request.check_pointers`).
* `BridgeConfig.check_of_agrees` and the lemmas before it say which lengths the bridge accepts.
* `Raises` says that the client is given an exception of a class; `ClientBridge.raises_reply` says
  which class it is for a status.
* `evaluation_of_functions` puts all layers together.
-/
import CallbackBridge.Proofs.Evaluations
namespace CallbackBridge

variable {F G : Type}

/-! ## Requests -/

/-- A positive first parameter is the state length. -/
theorem LengthParameters.stateLen_cons {n : Nat} (later : List Int) (hn : n ≠ 0) :
    (LengthParameters.mk (Int.ofNat n :: later)).stateLen = .ok n := by
  unfold stateLen
  show (if n = 0 then _ else Except.ok n) = Except.ok n
  exact if_neg hn

/-- A window of its whole length onto an output that nobody has written. -/
@[simp] theorem Output.take_fresh (len : Nat) : (fresh len).take len = fresh len := by
  simp [fresh, take]

@[simp] theorem Output.ofList_nil : ofList [] = fresh 0 := rfl

namespace CallbackArguments

@[simp] theorem required_some {α : Type} (a : α) : required (some a) = .ok a := rfl

@[simp] theorem window_some (memory : List Binary64) (len : Nat) :
    window (some memory) len = .ok (memory.take len) := rfl

@[simp] theorem outputWindow_some (memory : Output) (len : Nat) :
    outputWindow (some memory) len = .ok (memory.take len) := rfl

@[simp] theorem crossCheck_none (expected index : Nat) :
    crossCheck none expected index = .ok () := rfl

theorem crossCheck_ofNat (expected index : Nat) :
    crossCheck (some (Int.ofNat expected)) expected index = .ok () := if_pos rfl

end CallbackArguments

namespace Request

/-- The entry point of the native interface. -/
def native : Request → NativeEntry
  | residual => .daskrResidual
  | events _ => .daskrEvent

/-- The number of event functions that are asked for. -/
def eventCount : Request → Nat
  | residual => 0
  | events count => count

/-- The number of values that are asked for. -/
def outLen (y : List Binary64) : Request → Nat
  | residual => y.length
  | events count => count

/-- The integer parameters that are read. -/
def parameters (y : List Binary64) : Request → LengthParameters
  | residual => ⟨[Int.ofNat y.length]⟩
  | events count => ⟨[Int.ofNat y.length, Int.ofNat count]⟩

/-- The pointers of the callback. -/
def pointers (request : Request) (t : Binary64) (y yp : List Binary64) : CallbackArguments where
  t := some [t]
  y := some y
  yp := some yp
  res := some (.fresh (request.outLen y))
  ipar := some [Int.ofNat y.length, Int.ofNat request.eventCount]
  ires := some 0
  neq := some (Int.ofNat y.length)
  nrt := some (Int.ofNat request.eventCount)

/-- What the target gets to see. -/
def windows (request : Request) (t : Binary64) (y yp : List Binary64) : Windows where
  t := [t]
  y := y
  yp := yp
  ipar := request.parameters y
  res := .fresh (request.outLen y)

variable {request : Request} {t : Binary64} {y yp : List Binary64} {stride : Nat}

/-- The lengths of a request fit into the parameters of the solver. -/
structure Small (request : Request) (y : List Binary64) : Prop where
  /-- The state does. -/
  state : y.length ≤ LengthParameters.maxLength
  /-- The event functions do. -/
  events : request.eventCount ≤ LengthParameters.maxLength

/-- Such a request becomes pointers. -/
theorem arguments_eq (hcontiguous : stride ≤ 1 ∨ y.length ≤ 1) (hlength : y.length = yp.length)
    (hsmall : request.Small y) :
    ClientBridge.arguments request t y yp stride =
      .ok (request.native, request.pointers t y yp) := by
  have hstride : ¬ (stride > 1 ∧ y.length > 1) := by omega
  have hstate := Nat.not_lt_of_le hsmall.state
  have hevents := Nat.not_lt_of_le hsmall.events
  unfold ClientBridge.arguments
  rw [if_neg hstride, if_neg (not_not.mpr hlength), if_neg hstate]
  cases request with
  | residual => rfl
  | events count => exact if_neg hevents

variable (request t) in
/-- A state and a derivative of different lengths do not. -/
theorem arguments_of_ne (hcontiguous : stride ≤ 1 ∨ y.length ≤ 1)
    (hlength : y.length ≠ yp.length) :
    ∃ message, ClientBridge.arguments request t y yp stride = .error ⟨"ValueError", message⟩ := by
  have hstride : ¬ (stride > 1 ∧ y.length > 1) := by omega
  unfold ClientBridge.arguments
  rw [if_neg hstride, if_pos hlength]
  exact ⟨_, rfl⟩

/-- The pointers pass the checks of the callback if there is a state. -/
theorem check_pointers (hlength : y.length = yp.length) (hstate : y ≠ []) :
    (request.native.restrict (request.pointers t y yp)).check request.native.entry =
      .ok (request.windows t y yp) := by
  have hn : ∀ later, (LengthParameters.mk (Int.ofNat y.length :: later)).stateLen = .ok y.length :=
    fun later => LengthParameters.stateLen_cons later (by simpa using hstate)
  have hm : ∀ m, (LengthParameters.mk [Int.ofNat y.length, Int.ofNat m]).eventCount = .ok m :=
    fun m => rfl
  have hyp : yp.take y.length = yp := by rw [hlength, List.take_length]
  unfold CallbackArguments.check
  cases request with
  | residual =>
    simp only [native, NativeEntry.entry, NativeEntry.restrict, pointers,
      CallbackArguments.required_some, Entry.parameterCount, LengthParameters.stateLenIndex,
      List.take, bind, Except.bind]
    rw [hn]
    simp [Except.mapError, pure, Except.pure, hyp, hstate, outLen, windows, parameters]
  | events count =>
    simp only [native, NativeEntry.entry, NativeEntry.restrict, pointers, eventCount,
      CallbackArguments.required_some, Entry.parameterCount, LengthParameters.eventCountIndex,
      List.take, bind, Except.bind]
    rw [hn, hm]
    simp only [Except.mapError, CallbackArguments.crossCheck_ofNat]
    -- an output of no length is not looked at
    by_cases hcount : count = 0 <;>
      simp [pure, Except.pure, hyp, hcount, outLen, windows, parameters]

/-- Without a state they do not. -/
theorem check_pointers_nil :
    (request.native.restrict (request.pointers t [] yp)).check request.native.entry =
      .error .invalidLengthParameter := by
  cases request <;> rfl

end Request

/-! ## Lengths that the bridge accepts -/

/-- There is a state, and the lengths of a request agree with the configured ones. -/
structure Request.Fits (request : Request) (y : List Binary64) (stateLen eventCount : Option Nat) :
    Prop where
  /-- The state is not empty. -/
  state : y ≠ []
  /-- Its length is the configured one. -/
  stateLen : ∀ n, stateLen = some n → n = y.length
  /-- The number of event functions is the configured one. -/
  eventCount : ∀ count, request = .events count → ∀ n, eventCount = some n → n = count

/-- A length that agrees is given back. -/
theorem agreedLength_of_agrees {found index : Nat} {configured : Option Nat}
    (h : ∀ expected, configured = some expected → expected = found) :
    agreedLength found configured index = .ok found := by
  unfold agreedLength
  cases configured with
  | none => rfl
  | some expected => exact if_pos (h expected rfl)

/-- A length that does not agree is an error. -/
theorem agreedLength_of_ne {found expected index : Nat} (h : expected ≠ found) :
    agreedLength found (some expected) index = .error (.unexpectedLength index expected found) :=
  if_neg h

/-- A window that is there is cut. -/
theorem leadingWindow_of_le {buffer : Buffer} {len : Nat} (h : len ≤ buffer.len) :
    leadingWindow buffer len = .ok { buffer with len } := by
  unfold leadingWindow Buffer.cut?
  rw [if_neg (Nat.not_lt_of_le h)]

namespace BridgeConfig

variable {config : BridgeConfig} {request : Request} {t : Binary64} {y yp : List Binary64}
  {m m' : Memory} {call : Invocation}

/-- The state length of a request is read off its parameters. -/
theorem stateLen_of_exposed (hexposed : Exposed (request.windows t y yp) m call m')
    (hstate : y ≠ []) : call.ipar.stateLen = .ok y.length := by
  have hlen : y.length ≠ 0 := by simpa using hstate
  rw [hexposed.ipar]
  cases request <;> exact LengthParameters.stateLen_cons _ hlen

/-- A request that fits is accepted. -/
theorem check_of_fits (hexposed : Exposed (request.windows t y yp) m call m')
    (hlength : y.length = yp.length) (hfits : request.Fits y config.stateLen config.eventCount) :
    config.check request.native.entry call = .ok ⟨request.outLen y, call.leading y.length⟩ := by
  have hn := stateLen_of_exposed hexposed hfits.state
  have hagreed : agreedLength y.length config.stateLen 0 = .ok y.length :=
    agreedLength_of_agrees hfits.stateLen
  have houtLen : request.native.entry.outputLen config call.ipar y.length =
      .ok (request.outLen y) := by
    rw [hexposed.ipar]
    cases request with
    | residual => rfl
    | events count => exact agreedLength_of_agrees (hfits.eventCount count rfl)
  have ht : 1 ≤ call.t.len := by rw [hexposed.t]; exact Nat.le_refl 1
  have hy : y.length ≤ call.y.len := by rw [hexposed.y]; exact Nat.le_refl _
  have hyp : y.length ≤ call.yp.len := by rw [hexposed.yp, hlength]; exact Nat.le_refl _
  have hres : ¬ call.res.length < request.outLen y := by
    rw [hexposed.res]
    simp [Request.windows, Output.fresh, Output.length]
  unfold check
  simp only [hn, LengthParameters.stateLenIndex, hagreed, houtLen, leadingWindow_of_le ht,
    leadingWindow_of_le hy, leadingWindow_of_le hyp, bind, Except.bind]
  rw [if_neg hres]
  rfl

/-- A request that has a state and does not fit is not. -/
theorem check_of_not_fits (hexposed : Exposed (request.windows t y yp) m call m')
    (hstate : y ≠ []) (hfits : ¬ request.Fits y config.stateLen config.eventCount) :
    ∃ index expected found,
      config.check request.native.entry call = .error (.unexpectedLength index expected found) := by
  have hn := stateLen_of_exposed hexposed hstate
  by_cases hagrees : ∀ n, config.stateLen = some n → n = y.length
  · -- then it is the number of event functions
    cases request with
    | residual =>
      exact absurd ⟨hstate, hagrees, fun count h => nomatch h⟩ hfits
    | events count =>
      have hcount : ¬ ∀ n, config.eventCount = some n → n = count := fun hcount =>
        hfits ⟨hstate, hagrees, fun count' h => by cases h; exact hcount⟩
      push Not at hcount
      obtain ⟨expected, hconfigured, hne⟩ := hcount
      have houtLen : (Request.events count).native.entry.outputLen config call.ipar y.length =
          .error (.unexpectedLength LengthParameters.eventCountIndex expected count) := by
        rw [hexposed.ipar]
        show agreedLength count config.eventCount _ = _
        rw [hconfigured]
        exact agreedLength_of_ne hne
      refine ⟨LengthParameters.eventCountIndex, expected, count, ?_⟩
      unfold check
      simp only [hn, agreedLength_of_agrees hagrees, houtLen, bind, Except.bind]
  · push Not at hagrees
    obtain ⟨expected, hconfigured, hne⟩ := hagrees
    refine ⟨LengthParameters.stateLenIndex, expected, y.length, ?_⟩
    unfold check
    simp only [hn, hconfigured, agreedLength_of_ne hne, bind, Except.bind]

end BridgeConfig

/-! ## What the client is told -/

/-- The client is given an exception of a class. -/
def Raises {α : Type} (kind : String) (outcome : Outcome ClientException α) : Prop :=
  ∃ message, outcome = .error (.error ⟨kind, message⟩)

/-- A status is known by its number. -/
theorem Status.ofCode?_code (status : Status) : ofCode? status.code = some status := by
  cases status <;> rfl

namespace ClientBridge

/-- Every status but success is an exception of its class. -/
theorem raises_reply {status : Status} (hstatus : status ≠ .ok) (res : Option Output) :
    Raises status.exceptionKind (reply status res) := by
  have hcode : status.code ≠ Status.ok.code := by
    intro hcode
    have hsome := status.ofCode?_code
    rw [hcode, Status.ofCode?_code] at hsome
    cases hsome
    exact hstatus rfl
  unfold reply ClientException.ofCode? ClientException.withHint
  rw [if_neg hcode, status.ofCode?_code]
  exact ⟨_, rfl⟩

/-! ## Bridges to given functions -/

/-- What is known of a bridge that was made from functions. -/
structure Injects (bridge : ClientBridge) (residual : ObjId) (event : Option ObjId)
    (settings : ClientSettings) : Prop where
  /-- It has the functions. -/
  source : bridge.source = .injected residual event
  /-- Its configuration is valid. -/
  valid : bridge.config.validate = .ok ()
  /-- New views are made for each call. -/
  strategy : bridge.config.strategy = .fresh
  /-- The state length is configured. -/
  stateLen : bridge.config.stateLen = settings.stateLen
  /-- The number of event functions is configured. -/
  eventCount : bridge.config.eventCount = settings.eventCount

theorem injects_of_functions {s : Store G} {residual : ObjId} {event : Option ObjId}
    {settings : ClientSettings} {bridge : ClientBridge}
    (h : ofFunctions s residual event settings = .ok bridge) :
    bridge.Injects residual event settings := by
  -- the labels do not matter
  have hlabelled : ∀ residualLabel eventLabel, (do
      let config ← settings.config ⟨residualLabel, eventLabel⟩
      return (⟨.injected residual event, config⟩ : ClientBridge)) = .ok bridge →
        bridge.Injects residual event settings := by
    intro residualLabel eventLabel h
    obtain ⟨config, hconfig, h⟩ := bind_eq_ok h
    cases h
    unfold ClientSettings.config at hconfig
    obtain ⟨policy, -, hconfig⟩ := bind_eq_ok hconfig
    dsimp only at hconfig
    split at hconfig
    · next hvalid =>
      cases hconfig
      exact ⟨rfl, hvalid, rfl, rfl, rfl⟩
    · cases hconfig
  unfold ofFunctions at h
  obtain ⟨residualLabel, -, h⟩ := bind_eq_ok h
  cases event with
  | none => exact hlabelled residualLabel none h
  | some id =>
    obtain ⟨eventLabel, -, h⟩ := bind_eq_ok h
    exact hlabelled residualLabel eventLabel h

/-- The bridge that is entered. -/
def built (bridge : ClientBridge) (residual : ObjId) (event : Option ObjId) : Bridge ObjId :=
  .start bridge.config (.bound ⟨residual, event⟩)

/-- What a target does that is made of it. -/
def body (bridge : ClientBridge) (residual : ObjId) (event : Option ObjId) : TargetBody F :=
  .counted (bridge.built residual event) none

variable {bridge : ClientBridge} {residual : ObjId} {event : Option ObjId}
  {settings : ClientSettings}

/-- A target can be made. -/
theorem Injects.targetBody (h : bridge.Injects residual event settings) (engine : Engine F G)
    (p : Process F G) : (bridge.targetBody engine).start p =
      (.ok (bridge.body residual event), p) := by
  unfold ClientBridge.targetBody
  rw [h.source]
  show ((Outcome.ofExcept ((Bridge.ofBindings bridge.config ⟨residual, event⟩).map _), p) :
    Outcome BridgeError (TargetBody F) × Process F G) = _
  unfold Bridge.ofBindings Bridge.validated
  rw [h.valid]
  rfl

end ClientBridge

/-! ## The operations of an evaluation -/

/-- The operations on the reference-counting host in the callback, if it enters a target there. -/
def PendingCallback.moments (engine : Engine F G) (call : PendingCallback F G) :
    List (Moment (CountedWorld F G) ObjId ObjId) :=
  match (call.native.restrict call.args).admitted call.native.entry call.process.registry with
  | .ok (windows, ⟨_, .counted bridge dict⟩) =>
    engine.countedMoments bridge dict call.native.entry windows
      { call.process with registry := call.process.registry.enter }
  | _ => []

/-- A callback that is kept out does nothing there. -/
theorem PendingCallback.moments_of_error {engine : Engine F G} {call : PendingCallback F G}
    {status : Status}
    (hadmitted : (call.native.restrict call.args).admitted call.native.entry
      call.process.registry = .error status) : call.moments engine = [] := by
  unfold moments
  rw [hadmitted]

/-- A callback that enters a target there does what the target does. -/
theorem PendingCallback.moments_of_ok {engine : Engine F G} {call : PendingCallback F G}
    {windows : Windows} {serial : Nat} {built : Bridge ObjId} {dict : Option ObjId}
    (hadmitted : (call.native.restrict call.args).admitted call.native.entry
      call.process.registry = .ok (windows, ⟨serial, .counted built dict⟩)) :
    call.moments engine = engine.countedMoments built dict call.native.entry windows
      { call.process with registry := call.process.registry.enter } := by
  unfold moments
  rw [hadmitted]

/-- The operations on the reference-counting host in an evaluation. -/
def ClientBridge.moments (engine : Engine F G) (bridge : ClientBridge) (request : Request)
    (t : Binary64) (y yp : List Binary64) (stride : Nat) (p : Process F G) :
    List (Moment (CountedWorld F G) ObjId ObjId) :=
  match bridge.calling engine request t y yp stride p with
  | some call => call.moments engine
  | none => []

namespace Request

/-- What the bridge is called with. -/
def invocation (request : Request) (t : Binary64) (y yp : List Binary64) : Invocation :=
  ((request.windows t y yp).expose {}).1

/-- The world in which it is called. -/
def world (request : Request) (t : Binary64) (y yp : List Binary64) (p : Process F G) :
    CountedWorld F G where
  process := { p with registry := p.registry.enter }
  memory := ((request.windows t y yp).expose {}).2
  dict := none

theorem exposed (request : Request) (t : Binary64) (y yp : List Binary64) :
    Exposed (request.windows t y yp) {} (request.invocation t y yp)
      ((request.windows t y yp).expose {}).2 := Windows.exposed rfl

/-- The views of an array that was made for each window show what the client has passed. -/
theorem showsOnly_of_shown {request : Request} {t : Binary64} {y yp : List Binary64}
    {p : Process F G} {views : StateViews ObjId} {s : Store G} (hlength : y.length = yp.length)
    (hshown : List.Forall₂
      (fun view buffer => s.array? view = some (.ofBuffer buffer (request.world t y yp p).memory))
      views.toList ((request.invocation t y yp).leading y.length).toList) :
    s.ShowsOnly views.t [t] ∧ s.ShowsOnly views.y y ∧ s.ShowsOnly views.yp yp := by
  have hexposed := request.exposed t y yp
  have hwindow : ∀ {values contents : List Binary64} {len : Nat}, contents = values →
      len = values.length → contents.take len = values := by
    rintro values _ _ rfl rfl
    exact List.take_length
  simp only [StateViews.toList, Invocation.leading, List.forall₂_cons] at hshown
  obtain ⟨ht, hy, hyp, -⟩ := hshown
  exact ⟨Store.showsOnly_of_array? ht (hwindow hexposed.read_t rfl) rfl,
    Store.showsOnly_of_array? hy (hwindow hexposed.read_y rfl) rfl,
    Store.showsOnly_of_array? hyp (hwindow hexposed.read_yp hlength) hlength.symm⟩

end Request

/-! ## Entering the bridge -/

/-- How a callback ends that enters a target in the reference-counting host. -/
theorem PendingCallback.run_of_admitted (engine : Engine F G) (call : PendingCallback F G)
    {windows : Windows} {serial : Nat} {built : Bridge ObjId} {dict : Option ObjId}
    (hadmitted : (call.native.restrict call.args).admitted call.native.entry
      call.process.registry = .ok (windows, ⟨serial, .counted built dict⟩))
    {result : Evaluation (CountedWorld F G) ObjId}
    (hresult : engine.runCounted built dict call.native.entry windows
      { call.process with registry := call.process.registry.enter } = result) :
    call.status engine = (Verdict.ofOutcome built.config.userFailure result.outcome).status ∧
      (call.run engine).1.res = (call.native.restrict call.args).res.map fun memory =>
        result.res.append (memory.drop windows.res.length) := by
  subst hresult
  have hcallback := engine.targetSystem.callback_of_ok hadmitted rfl
  rw [← call.lastStatus_run]
  unfold run Engine.callback
  rw [hcallback]
  exact ⟨rfl, rfl⟩

namespace ClientBridge

variable {engine : Engine F G} {bridge : ClientBridge} {residual : ObjId} {event : Option ObjId}
  {settings : ClientSettings} {request : Request} {t : Binary64} {y yp : List Binary64}
  {stride : Nat} {p : Process F G}

/-- What has to be given for an evaluation to get to its callback. -/
structure Ready (request : Request) (y yp : List Binary64) (stride : Nat) (p : Process F G) :
    Prop where
  /-- The arrays are contiguous. -/
  contiguous : stride ≤ 1 ∨ y.length ≤ 1
  /-- They have the same length. -/
  length : y.length = yp.length
  /-- The lengths fit into the parameters of the solver. -/
  small : request.Small y
  /-- No callback is running. -/
  unlocked : p.registry.locked = false

/-- The callback of an evaluation. -/
def pending (bridge : ClientBridge) (residual : ObjId) (event : Option ObjId) (request : Request)
    (t : Binary64) (y yp : List Binary64) (p : Process F G) : PendingCallback F G :=
  ⟨request.native, request.pointers t y yp, p.lending (bridge.body residual event)⟩

variable (engine t) in
/-- An evaluation gets there. -/
theorem Injects.calling (h : bridge.Injects residual event settings)
    (hready : Ready request y yp stride p) :
    bridge.calling engine request t y yp stride p =
        some (bridge.pending residual event request t y yp p) ∧
      ((bridge.evaluate engine request t y yp stride).start p).1 =
        reply ((bridge.pending residual event request t y yp p).status engine)
          ((bridge.pending residual event request t y yp p).run engine).1.res := by
  have hcalling : bridge.calling engine request t y yp stride p =
      some (bridge.pending residual event request t y yp p) :=
    calling_eq_some (Request.arguments_eq hready.contiguous hready.length hready.small)
      (h.targetBody engine p) hready.unlocked
  obtain ⟨body, hborrows⟩ := borrows_of_calling hcalling
  exact ⟨hcalling, congrArg Prod.fst hborrows.evaluate⟩

variable (engine t) in
/-- Without a state, the callback is kept out. -/
theorem Injects.kept_out (h : bridge.Injects residual event settings)
    (hready : Ready request [] yp stride p) :
    Raises "ValueError" ((bridge.evaluate engine request t [] yp stride).start p).1 ∧
      bridge.moments engine request t [] yp stride p = [] := by
  obtain ⟨hcalling, hevaluate⟩ := h.calling engine t hready
  have hadmitted : (request.native.restrict (request.pointers t [] yp)).admitted
      request.native.entry (p.lending (bridge.body residual event)).registry =
        .error .invalidLengthParameter := by
    unfold CallbackArguments.admitted
    rw [Request.check_pointers_nil]
    rfl
  have hstatus : (bridge.pending residual event request t [] yp p).status engine =
      .invalidLengthParameter := by
    rw [← PendingCallback.lastStatus_run]
    unfold PendingCallback.run Engine.callback pending
    rw [engine.targetSystem.callback_of_error hadmitted]
    rfl
  refine ⟨?_, ?_⟩
  · rw [hevaluate, hstatus]
    exact raises_reply (by decide) _
  · unfold moments
    rw [hcalling]
    exact PendingCallback.moments_of_error hadmitted

variable (engine t) in
/-- With a state, it enters the bridge. -/
theorem Injects.enters (h : bridge.Injects residual event settings)
    (hready : Ready request y yp stride p) (hstate : y ≠ [])
    {world : CountedWorld F G}
    (hworld : world = request.world t y yp (p.lending (bridge.body residual event)))
    {result : Evaluation (CountedWorld F G) ObjId}
    (hresult : (bridge.built residual event).evaluate (CountedWorld.runtime engine.callable)
      request.native.entry (request.invocation t y yp) world = result) :
    bridge.moments engine request t y yp stride p =
        (bridge.built residual event).trace (CountedWorld.runtime engine.callable)
          request.native.entry (request.invocation t y yp) world ∧
      ∃ res, ((bridge.evaluate engine request t y yp stride).start p).1 =
          reply (Verdict.ofOutcome bridge.config.userFailure result.outcome).status (some res) ∧
        res.toList = result.res.toList := by
  obtain ⟨hcalling, hevaluate⟩ := h.calling engine t hready
  have hadmitted : (request.native.restrict (request.pointers t y yp)).admitted
      request.native.entry (p.lending (bridge.body residual event)).registry =
        .ok (request.windows t y yp, p.nextTarget (bridge.body residual event)) := by
    unfold CallbackArguments.admitted
    rw [Request.check_pointers hready.length hstate]
    rfl
  subst hworld
  obtain ⟨hstatus, hres⟩ :=
    (bridge.pending residual event request t y yp p).run_of_admitted engine hadmitted hresult
  have hpointer : ((bridge.pending residual event request t y yp p).native.restrict
      (bridge.pending residual event request t y yp p).args).res =
        some (.fresh (request.outLen y)) := by
    cases request <;> rfl
  refine ⟨?_, ?_⟩
  · unfold moments
    rw [hcalling]
    exact PendingCallback.moments_of_ok hadmitted
  · rw [hevaluate, hstatus, hres, hpointer]
    refine ⟨_, rfl, ?_⟩
    -- beyond its window there is no output
    rw [Output.toList_append, Output.toList_drop]
    simp [Request.windows, Output.length, Output.fresh, Output.toList]

end ClientBridge

/-! ## How it ends -/

namespace ClientBridge

/-- An error of the bridge is an exception of its class. -/
theorem raises_of_error (e : BridgeError) (policy : FailurePolicy) (res : Option Output) :
    Raises e.status.exceptionKind
      (reply (Verdict.ofOutcome policy (.error (.error e))).status res) :=
  raises_reply (by cases e <;> exact nofun) res

/-- A panic is one as well. -/
theorem raises_of_panic (message : String) (policy : FailurePolicy) (res : Option Output) :
    Raises "RuntimeError" (reply (Verdict.ofOutcome policy (.error (.panic message))).status res) :=
  raises_reply (show Status.panicked ≠ .ok by decide) res

end ClientBridge

/-- How the client is told of what the code of a function did, given how that ended and in which
process. -/
structure Answered (outLen : Nat) (ended : Outcome ClientException ObjId × Process F G)
    (outcome : Outcome ClientException CountedArray) : Prop where
  /-- It has raised an exception. -/
  raised : ∀ stop, ended.1 = .error stop → Raises "RuntimeError" outcome
  /-- It has returned something else than a contiguous array of doubles in one dimension. -/
  unusable : ∀ r, ended.1 = .ok r → (∀ values, ¬ ended.2.rest.store.Vector r values) →
    Raises "TypeError" outcome
  /-- It has returned such an array that is too short. -/
  short : ∀ r values, ended.1 = .ok r → ended.2.rest.store.Vector r values →
    values.length < outLen → Raises "ValueError" outcome
  /-- It has returned one that is long enough. -/
  copied : ∀ r values, ended.1 = .ok r → ended.2.rest.store.Vector r values →
    outLen ≤ values.length → outcome = .ok (.ofValues (values.take outLen))

section Answers

variable {run : CallableRunner F G} {f : ObjId} {views : StateViews ObjId}
  {called : Outcome HostError ObjId} {before after : CountedWorld F G} {name : String}
  {outLen : Nat} {res res' told : Output} {outcome : Outcome BridgeError Unit}
  {policy : FailurePolicy}

/-- The client is told how the code ended. -/
theorem CountedEnd.answered {code : G} (h : CountedEnd name outLen res called after outcome res')
    (hcall : CountedWorld.call run f views before = (called, after))
    (hf : before.store.Callable f code) (hres : res = .fresh outLen)
    (htold : told.toList = res'.toList) :
    Answered outLen ((run code views).start before.process)
      (ClientBridge.reply (Verdict.ofOutcome policy outcome).status (some told)) := by
  obtain ⟨hcalled, hafter⟩ := CountedWorld.call_of_callable run hf views
  rw [hcall] at hcalled hafter
  dsimp only at hcalled hafter
  generalize (run code views).start before.process = ended at *
  have hlen : res.toList.length = outLen := by
    rw [hres]
    simp [Output.fresh, Output.toList]
  have hroom : outLen ≤ res.length := by
    rw [← Output.length_toList]
    exact Nat.le_of_eq hlen.symm
  have hread : ∀ r, ended.1 = .ok r → called = .ok r ∧
      ∀ values, after.read r = .ok values ↔ ended.2.rest.store.Vector r values := by
    intro r hr
    rw [← hafter r hr, hcalled, hr]
    exact ⟨rfl, fun values => CountedWorld.read_eq_ok_iff⟩
  refine ⟨?_, ?_, ?_, ?_⟩
  · intro stop hstop
    rw [hstop] at hcalled
    cases stop with
    | error e =>
      obtain ⟨rfl, -⟩ := h.stopped _ hcalled
      exact ClientBridge.raises_of_error _ policy _
    | panic message =>
      obtain ⟨rfl, -⟩ := h.stopped _ hcalled
      exact ClientBridge.raises_of_panic message policy _
  · intro r hr hunusable
    obtain ⟨hreturned, hvector⟩ := hread r hr
    cases hresult : after.read r with
    | ok values => exact absurd ((hvector values).mp hresult) (hunusable values)
    | error e =>
      obtain ⟨rfl, -⟩ := h.unread r e hreturned hresult
      obtain ⟨found, rfl⟩ := CountedWorld.read_eq_error hresult
      exact ClientBridge.raises_of_error _ policy _
  · intro r values hr hvalues hshort
    obtain ⟨hreturned, hvector⟩ := hread r hr
    have hended := h.read r values hreturned ((hvector values).mpr hvalues) hroom
    rw [if_pos hshort] at hended
    obtain ⟨rfl, -⟩ := Prod.mk.inj hended
    exact ClientBridge.raises_of_error _ policy _
  · intro r values hr hvalues hlong
    obtain ⟨hreturned, hvector⟩ := hread r hr
    have hended := h.read r values hreturned ((hvector values).mpr hvalues) hroom
    rw [if_neg (Nat.not_lt_of_le hlong), ← htold] at hended
    obtain ⟨rfl, hcopied⟩ := Prod.mk.inj hended
    show Except.ok (CountedArray.ofValues told.toList) = _
    rw [hcopied, List.drop_of_length_le (Nat.le_of_eq hlen), List.append_nil]

/-- The client is told that the function cannot be called. -/
theorem CountedEnd.raises_of_not_callable
    (h : CountedEnd name outLen res called after outcome res')
    (hcall : CountedWorld.call run f views before = (called, after))
    (hf : ∀ code, ¬ before.store.Callable f code) :
    Raises "TypeError"
      (ClientBridge.reply (Verdict.ofOutcome policy outcome).status (some told)) := by
  rw [CountedWorld.call_of_not_callable run hf views] at hcall
  cases hcall
  obtain ⟨rfl, -⟩ := h.stopped _ rfl
  exact ClientBridge.raises_of_error _ policy _

end Answers

/-! ## The whole evaluation -/

/-- Of functions that were given, the one for the entry point is found, or there is none. -/
theorem Lookup.handle_of_bound {run : CallableRunner F G} {names : BindingNames} {entry : Entry}
    {bindings : Bindings ObjId} {looking : List (HostOperation ObjId ObjId)}
    {found : Except BridgeError ObjId} {w w' : CountedWorld F G}
    (h : Lookup names entry (.bound bindings) looking found)
    (hrun : Carries (fun op => op.Performs (CountedWorld.runtime run)) w looking w') :
    (bindings.handle? entry = none ∧ ∃ name, found = .error (.unresolvedBinding name)) ∨
      ∃ f, bindings.handle? entry = some f ∧ found = .ok f := by
  cases h with
  | attached hhandle =>
    obtain ⟨_, hattach, -⟩ := hrun
    cases hattach
    exact Or.inr ⟨_, hhandle, rfl⟩
  | unbound hhandle => exact Or.inl ⟨hhandle, _, rfl⟩

/-- An evaluation calls the function once, and tells the client how that ended. -/
structure Consults (engine : Engine F G) (request : Request) (t : Binary64) (y yp : List Binary64)
    (p : Process F G) (f : ObjId) (trace : List (Moment (CountedWorld F G) ObjId ObjId))
    (outcome : Outcome ClientException CountedArray)
    (moment : Moment (CountedWorld F G) ObjId ObjId) (views : StateViews ObjId)
    (called : Outcome HostError ObjId) : Prop where
  /-- This is the only call. -/
  once : CalledOnce trace moment
  /-- The function is called with the views. -/
  operation : moment.operation = .call f views called
  /-- The first view shows the time. -/
  time : moment.before.store.ShowsOnly views.t [t]
  /-- The second view shows the state. -/
  state : moment.before.store.ShowsOnly views.y y
  /-- The third view shows the derivative. -/
  derivative : moment.before.store.ShowsOnly views.yp yp
  /-- Until then, all objects are as they were. -/
  stays : p.rest.store.Within moment.before.store
  /-- The code of the function is run, and the client is told how it ended. -/
  answered : ∀ code, p.rest.store.Callable f code →
    Answered (request.outLen y) ((engine.callable code views).start moment.before.process) outcome
  /-- If the function cannot be called any more, the client is told that. -/
  disabled : (∀ code, ¬ moment.before.store.Callable f code) → Raises "TypeError" outcome

/-- A function that can be called can be called later. -/
theorem Store.Callable.of_within {s s' : Store G} {f : ObjId} {code : G} (h : s.Callable f code)
    (hwithin : s.Within s') : s'.Callable f code := by
  obtain ⟨type, label, hf⟩ := h
  exact ⟨type, label, hwithin f _ hf⟩

namespace ClientBridge

variable {engine : Engine F G} {bridge : ClientBridge} {residual : ObjId} {event : Option ObjId}
  {settings : ClientSettings} {request : Request} {t : Binary64} {y yp : List Binary64}
  {stride : Nat} {p : Process F G}

/-- Lengths that do not fit are refused before the function is looked for. -/
theorem Injects.refuses (h : bridge.Injects residual event settings)
    (hready : Ready request y yp stride p)
    (hfits : ¬ request.Fits y settings.stateLen settings.eventCount) :
    Raises "ValueError" ((bridge.evaluate engine request t y yp stride).start p).1 ∧
      ∀ moment ∈ bridge.moments engine request t y yp stride p, ¬ moment.operation.Calls := by
  by_cases hstate : y = []
  · subst hstate
    obtain ⟨hraises, hmoments⟩ := h.kept_out engine t hready
    refine ⟨hraises, ?_⟩
    rw [hmoments]
    exact fun moment hmoment => nomatch hmoment
  · obtain ⟨hmoments, res, hevaluate, -⟩ := h.enters engine t hready hstate rfl rfl
    rw [← h.stateLen, ← h.eventCount] at hfits
    obtain ⟨index, expected, found, hcheck⟩ :=
      BridgeConfig.check_of_not_fits (request.exposed t y yp) hstate hfits
    have hconducted := (bridge.built residual event).evaluate_traced
      (CountedWorld.runtime engine.callable) request.native.entry (request.invocation t y yp)
      (request.world t y yp (p.lending (bridge.body residual event)))
    rw [Bridge.evaluate_of_rejected hcheck] at hevaluate
    rw [hmoments, hevaluate, List.map_eq_nil_iff.mp (hconducted.rejected _ hcheck)]
    exact ⟨raises_of_error _ _ _, fun moment hmoment => nomatch hmoment⟩

/-- Lengths that fit lead to the function, if there is one. -/
theorem Injects.consults (h : bridge.Injects residual event settings)
    (hready : Ready request y yp stride p)
    (hfits : request.Fits y settings.stateLen settings.eventCount) :
    ((Bindings.mk residual event).handle? request.native.entry = none →
      Raises "LookupError" ((bridge.evaluate engine request t y yp stride).start p).1 ∧
        ∀ moment ∈ bridge.moments engine request t y yp stride p, ¬ moment.operation.Calls) ∧
    ∀ f, (Bindings.mk residual event).handle? request.native.entry = some f →
      ∃ moment views called,
        Consults engine request t y yp p f (bridge.moments engine request t y yp stride p)
          ((bridge.evaluate engine request t y yp stride).start p).1 moment views called := by
  obtain ⟨hmoments, res, hevaluate, hres⟩ :=
    h.enters engine t hready hfits.state rfl rfl
  have hconfigured := hfits
  rw [← h.stateLen, ← h.eventCount] at hconfigured
  have hcheck := BridgeConfig.check_of_fits (request.exposed t y yp) hready.length hconfigured
  obtain ⟨looking, found, hlookup, hlooked, hfound⟩ :=
    (bridge.built residual event).exists_countedCall engine.callable h.strategy hcheck
      (request.world t y yp (p.lending (bridge.body residual event)))
  rw [hmoments, hevaluate]
  rcases hlookup.handle_of_bound hlooked with ⟨hhandle, name, rfl⟩ | ⟨f, hhandle, rfl⟩
  · obtain ⟨houtcome, -, hcalls⟩ := hfound
    rw [houtcome]
    refine ⟨fun _ => ⟨raises_of_error _ _ _, hcalls⟩, fun f hf => ?_⟩
    rw [hf] at hhandle
    cases hhandle
  · obtain ⟨views, called, moment, honce, hcalled, hended⟩ := hfound
    obtain ⟨htime, hstate, hderivative⟩ := Request.showsOnly_of_shown hready.length hcalled.shown
    refine ⟨fun hnone => ?_, fun f' hf' => ?_⟩
    · rw [hnone] at hhandle
      cases hhandle
    · rw [hf'] at hhandle
      cases hhandle
      refine ⟨moment, views, called, honce, hcalled.operation, htime, hstate, hderivative,
        hcalled.precedes.store, ?_, ?_⟩
      · intro code hf
        exact hended.answered hcalled.call (hf.of_within hcalled.precedes.store) rfl hres
      · exact fun hf => hended.raises_of_not_callable hcalled.call hf

end ClientBridge

/-- **What an evaluation of a bridge to functions does.**  Let a client have made a bridge from a
residual and perhaps an event function, and let no callback be running, on any machines and
whatever is registered.  A request whose state and derivative have different lengths is a
`ValueError`, and nothing is touched.  So is one without a state, or with lengths that differ from
the configured ones, and one for which there is no function is a `LookupError`; no function is
called then.  Otherwise the function is called exactly once, with views that cannot be assigned to
and show the time, the state and the derivative; and if its code is run, what the client is told
depends on how that ends alone. -/
theorem evaluation_of_functions (engine : Engine F G) (s : Store G) (residual : ObjId)
    (event : Option ObjId) (settings : ClientSettings) (bridge : ClientBridge)
    (hbridge : ClientBridge.ofFunctions s residual event settings = .ok bridge)
    (request : Request) (t : Binary64) (y yp : List Binary64) (stride : Nat) (p : Process F G)
    (hcontiguous : stride ≤ 1 ∨ y.length ≤ 1) (hsmall : request.Small y)
    (hunlocked : p.registry.locked = false) :
    (y.length ≠ yp.length →
      bridge.calling engine request t y yp stride p = none ∧
      Raises "ValueError" ((bridge.evaluate engine request t y yp stride).start p).1 ∧
      ((bridge.evaluate engine request t y yp stride).start p).2 = p) ∧
    (y.length = yp.length →
      (¬ request.Fits y settings.stateLen settings.eventCount →
        Raises "ValueError" ((bridge.evaluate engine request t y yp stride).start p).1 ∧
        ∀ moment ∈ bridge.moments engine request t y yp stride p, ¬ moment.operation.Calls) ∧
      (request.Fits y settings.stateLen settings.eventCount →
        ((Bindings.mk residual event).handle? request.native.entry = none →
          Raises "LookupError" ((bridge.evaluate engine request t y yp stride).start p).1 ∧
          ∀ moment ∈ bridge.moments engine request t y yp stride p, ¬ moment.operation.Calls) ∧
        ∀ f, (Bindings.mk residual event).handle? request.native.entry = some f →
          ∃ moment views called,
            Consults engine request t y yp p f (bridge.moments engine request t y yp stride p)
              ((bridge.evaluate engine request t y yp stride).start p).1 moment views called)) := by
  have hinjects := ClientBridge.injects_of_functions hbridge
  refine ⟨?_, ?_⟩
  · intro hlength
    obtain ⟨message, harguments⟩ :=
      Request.arguments_of_ne request t hcontiguous hlength
    obtain ⟨hnone, hevaluate⟩ := bridge.evaluate_of_arguments_error engine p harguments
    rw [hevaluate]
    exact ⟨hnone, ⟨message, rfl⟩, rfl⟩
  · intro hlength
    have hready : ClientBridge.Ready request y yp stride p :=
      ⟨hcontiguous, hlength, hsmall, hunlocked⟩
    exact ⟨hinjects.refuses hready, hinjects.consults hready⟩

/-- In the small process, the callable gives the state back, and the client gets a copy of it. -/
theorem evaluation_of_functions_lending :
    ClientBridge.ofFunctions Lending.process.rest.store ⟨0⟩ none ⟨"abort", none, none⟩ =
        .ok Lending.bridge ∧
      ((Lending.bridge.evaluate Lending.engine .residual .zero [.one, .half] [.zero, .zero]
        1).start Lending.process).1 = .ok (.ofValues [.one, .half]) := by
  have hbridge : ClientBridge.ofFunctions Lending.process.rest.store ⟨0⟩ none
      ⟨"abort", none, none⟩ = .ok Lending.bridge := rfl
  obtain ⟨-, hequal⟩ := evaluation_of_functions Lending.engine _ _ _ _ Lending.bridge hbridge
    .residual .zero [.one, .half] [.zero, .zero] 1 Lending.process (by decide)
    ⟨by decide, by decide⟩ rfl
  obtain ⟨-, hconsults⟩ := (hequal rfl).2
    ⟨by decide, fun n h => (nomatch h), fun count h => (nomatch h)⟩
  obtain ⟨moment, views, called, h⟩ := hconsults ⟨0⟩ rfl
  have hanswered := h.answered () ⟨"function", some "f", rfl⟩
  exact ⟨hbridge, hanswered.copied views.y _ rfl h.state.vector (Nat.le_refl 2)⟩

end CallbackBridge
