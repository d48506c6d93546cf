/-
# Which arguments an invocation accepts

Before it touches the host an invocation makes ten demands on its arguments, always in the same
order, and the first one that is not met decides the error.

* `Demand` lists the demands of an invocation, `Demand.Met` says what each of them asks, and
  `Demand.Refuses` which error tells that it is not met.
* `invocation_validated` says that an invocation proceeds exactly if all demands are met, and what
  is known of it in either case.
-/
import CallbackBridge.Proofs.Delivery
import CallbackBridge.Proofs.Examinations
namespace CallbackBridge

open HostOperation

variable {σ R K : Type}

/-! ## The demands of an invocation -/

/-- What an invocation demands of its arguments. -/
inductive Demand where
  /-- A state length is given. -/
  | stateLenGiven
  /-- It is at least one. -/
  | stateLenPositive
  /-- It is the configured one. -/
  | stateLenAgreed
  /-- An event count is given. -/
  | eventCountGiven
  /-- It is not negative. -/
  | eventCountNonneg
  /-- It is the configured one. -/
  | eventCountAgreed
  /-- There is a time. -/
  | time
  /-- There is a state for each variable. -/
  | state
  /-- There is a derivative for each variable. -/
  | derivative
  /-- There is room for the output. -/
  | output
  deriving DecidableEq

/-- The integer parameter at a position, if there is one. -/
def Invocation.parameter? (call : Invocation) (index : Nat) : Option Int :=
  call.ipar.entries[index]?

namespace Demand

/-- The demands in the order in which they are made. -/
def inOrder : List Demand :=
  [stateLenGiven, stateLenPositive, stateLenAgreed] ++
    ([eventCountGiven, eventCountNonneg, eventCountAgreed] ++ [time, state, derivative, output])

/-- What each demand asks. -/
def Met (config : BridgeConfig) (entry : Entry) (call : Invocation) : Demand → Prop
  | stateLenGiven => ∃ n, call.parameter? LengthParameters.stateLenIndex = some n
  | stateLenPositive => ∃ n, call.parameter? LengthParameters.stateLenIndex = some n ∧ 1 ≤ n
  | stateLenAgreed => ∀ expected : Nat, config.stateLen = some expected →
    call.parameter? LengthParameters.stateLenIndex = some (expected : Int)
  | eventCountGiven => entry = .event →
    ∃ m, call.parameter? LengthParameters.eventCountIndex = some m
  | eventCountNonneg => entry = .event →
    ∃ m, call.parameter? LengthParameters.eventCountIndex = some m ∧ 0 ≤ m
  | eventCountAgreed => entry = .event → ∀ expected : Nat, config.eventCount = some expected →
    call.parameter? LengthParameters.eventCountIndex = some (expected : Int)
  | time => 1 ≤ call.t.len
  | state => ∀ n : Nat, call.parameter? LengthParameters.stateLenIndex = some (n : Int) →
    n ≤ call.y.len
  | derivative => ∀ n : Nat, call.parameter? LengthParameters.stateLenIndex = some (n : Int) →
    n ≤ call.yp.len
  | output => ∀ len : Nat, call.parameter? entry.lengthIndex = some (len : Int) →
    len ≤ call.res.length

/-- The error that tells that a demand is not met. -/
def Refuses (config : BridgeConfig) (entry : Entry) (call : Invocation) :
    Demand → BridgeError → Prop
  | stateLenGiven, e => e = .missingLengthParameter 0
  | stateLenPositive, e => ∃ n, call.parameter? LengthParameters.stateLenIndex = some n ∧
    e = .invalidLengthParameter 0 n
  | stateLenAgreed, e => ∃ expected found : Nat, config.stateLen = some expected ∧
    call.parameter? LengthParameters.stateLenIndex = some (found : Int) ∧
    e = .unexpectedLength 0 expected found
  | eventCountGiven, e => e = .missingLengthParameter 1
  | eventCountNonneg, e => ∃ m, call.parameter? LengthParameters.eventCountIndex = some m ∧
    e = .invalidLengthParameter 1 m
  | eventCountAgreed, e => ∃ expected found : Nat, config.eventCount = some expected ∧
    call.parameter? LengthParameters.eventCountIndex = some (found : Int) ∧
    e = .unexpectedLength 1 expected found
  | time, e => e = .bufferTooShort call.t.role.argument 1 call.t.len
  | state, e => ∃ n : Nat, call.parameter? LengthParameters.stateLenIndex = some (n : Int) ∧
    e = .bufferTooShort call.y.role.argument n call.y.len
  | derivative, e => ∃ n : Nat, call.parameter? LengthParameters.stateLenIndex = some (n : Int) ∧
    e = .bufferTooShort call.yp.role.argument n call.yp.len
  | output, e => ∃ len : Nat, call.parameter? entry.lengthIndex = some (len : Int) ∧
    e = .bufferTooShort "res" len call.res.length

end Demand

/-! ## Each part of the examination -/

section Parts

variable {config : BridgeConfig} {entry : Entry} {call : Invocation}

/-- A length is looked up: it must be given, and not be negative. -/
theorem examines_length {γ : Type} {met : γ → Prop} {refuses : γ → BridgeError → Prop}
    {given nonneg : γ} {p : LengthParameters} {index : Nat}
    (hgiven : met given ↔ ∃ value, p.entries[index]? = some value)
    (hnonneg : met nonneg ↔ ∃ value, p.entries[index]? = some value ∧ 0 ≤ value)
    (hmissing : refuses given (.missingLengthParameter index))
    (hinvalid : ∀ value, p.entries[index]? = some value →
      refuses nonneg (.invalidLengthParameter index value)) :
    Examines met refuses [given, nonneg] (p.length? index) fun len =>
      p.entries[index]? = some (len : Int) := by
  cases hlength : p.length? index with
  | ok len =>
    have hentry := LengthParameters.length?_eq_ok hlength
    refine .of_met ?_ hentry
    simp only [List.forall_mem_cons, hgiven, hnonneg]
    exact ⟨⟨_, hentry⟩, ⟨_, hentry, by omega⟩, by simp⟩
  | error e =>
    rcases LengthParameters.length?_eq_error hlength with ⟨rfl, hnone⟩ | ⟨value, rfl, hvalue, hneg⟩
    · refine ⟨given, ⟨[], [nonneg], rfl, by simp, ?_⟩, hmissing⟩
      simp [hgiven, hnone]
    · refine ⟨nonneg, ⟨[given], [], rfl, ?_, ?_⟩, hinvalid value hvalue⟩
      · simp [hgiven, hvalue]
      · simp [hnonneg, hvalue, hneg]

/-- A length is compared with the configured one. -/
theorem examines_agreedLength {γ : Type} {met : γ → Prop} {refuses : γ → BridgeError → Prop}
    {agreed : γ} {found index : Nat} {configured : Option Nat}
    (hagreed : met agreed ↔ ∀ expected, configured = some expected → found = expected)
    (hunexpected : ∀ expected, configured = some expected →
      refuses agreed (.unexpectedLength index expected found)) :
    Examines met refuses [agreed] (agreedLength found configured index) fun len => len = found := by
  unfold agreedLength
  cases configured with
  | none =>
    refine .one (fun len h => ?_) (fun e h => by cases h)
    cases h
    exact ⟨hagreed.mpr (fun expected h => by cases h), rfl⟩
  | some expected =>
    by_cases heq : expected = found
    · simp only [if_pos heq]
      refine .one (fun len h => ?_) (fun e h => by cases h)
      cases h
      refine ⟨hagreed.mpr ?_, rfl⟩
      intro expected' h
      cases h
      exact heq.symm
    · simp only [if_neg heq]
      refine .one (fun len h => by cases h) (fun e h => ?_)
      cases h
      exact ⟨fun h => heq (hagreed.mp h expected rfl).symm, hunexpected expected rfl⟩

/-- A leading window is cut off a buffer. -/
theorem examines_leadingWindow {γ : Type} {met : γ → Prop} {refuses : γ → BridgeError → Prop}
    {reaches : γ} {buffer : Buffer} {len : Nat} (hreaches : met reaches ↔ len ≤ buffer.len)
    (hshort : refuses reaches (.bufferTooShort buffer.role.argument len buffer.len)) :
    Examines met refuses [reaches] (leadingWindow buffer len) fun _ => True := by
  refine .one (fun window h => ?_) (fun e h => ?_)
  · exact ⟨hreaches.mpr (leadingWindow_eq_ok h).1, trivial⟩
  · unfold leadingWindow Buffer.cut? at h
    by_cases hlen : buffer.len < len
    · rw [if_pos hlen] at h
      cases h
      exact ⟨fun hmet => absurd (hreaches.mp hmet) (Nat.not_le_of_lt hlen), hshort⟩
    · rw [if_neg hlen] at h
      cases h

/-- The state length is examined first. -/
theorem examines_stateLen :
    Examines (Demand.Met config entry call) (Demand.Refuses config entry call)
      [.stateLenGiven, .stateLenPositive] call.ipar.stateLen fun n =>
        call.parameter? LengthParameters.stateLenIndex = some (n : Int) ∧ 1 ≤ n := by
  unfold LengthParameters.stateLen
  cases hlength : call.ipar.length? LengthParameters.stateLenIndex with
  | error e =>
    rcases LengthParameters.length?_eq_error hlength with ⟨rfl, hnone⟩ | ⟨value, rfl, hvalue, hneg⟩
    · refine ⟨.stateLenGiven, ⟨[], [.stateLenPositive], rfl, by simp, ?_⟩, rfl⟩
      simp [Demand.Met, Invocation.parameter?, hnone]
    · refine ⟨.stateLenPositive, ⟨[.stateLenGiven], [], rfl, ?_, ?_⟩, value, hvalue, rfl⟩
      · simp [Demand.Met, Invocation.parameter?, hvalue]
      · simp [Demand.Met, Invocation.parameter?, hvalue]
        omega
  | ok n =>
    have hentry := LengthParameters.length?_eq_ok hlength
    by_cases hzero : n = 0
    · subst hzero
      refine ⟨.stateLenPositive, ⟨[.stateLenGiven], [], rfl, ?_, ?_⟩, 0, hentry, rfl⟩
      · simp [Demand.Met, Invocation.parameter?, hentry]
      · simp [Demand.Met, Invocation.parameter?, hentry]
    · have hpositive : 1 ≤ n := Nat.pos_of_ne_zero hzero
      show Examines _ _ _ (if n = 0 then _ else _) _
      rw [if_neg hzero]
      refine .of_met ?_ ⟨hentry, hpositive⟩
      simp [Demand.Met, Invocation.parameter?, hentry]
      omega

/-- What is demanded of the event count follows for events; other entry points have none. -/
theorem examines_outputLen {n : Nat}
    (hn : call.parameter? LengthParameters.stateLenIndex = some (n : Int)) :
    Examines (Demand.Met config entry call) (Demand.Refuses config entry call)
      [.eventCountGiven, .eventCountNonneg, .eventCountAgreed]
      (entry.outputLen config call.ipar n) fun len =>
        call.parameter? entry.lengthIndex = some (len : Int) := by
  cases entry with
  | residual =>
    refine .of_met ?_ hn
    simp [Demand.Met]
  | event =>
    have hcount : Examines (Demand.Met config .event call) (Demand.Refuses config .event call)
        [.eventCountGiven, .eventCountNonneg] call.ipar.eventCount fun m =>
          call.parameter? LengthParameters.eventCountIndex = some (m : Int) :=
      examines_length (by simp [Demand.Met, Invocation.parameter?])
        (by simp [Demand.Met, Invocation.parameter?]) rfl fun value hvalue => ⟨value, hvalue, rfl⟩
    refine hcount.bind fun m hm => ?_
    refine (examines_agreedLength ?_ ?_).mono fun len hlen => hlen ▸ hm
    · simp only [Demand.Met, forall_const, hm, Option.some.injEq, Int.natCast_inj]
    · exact fun expected hexpected => ⟨expected, m, hexpected, hm, rfl⟩

/-- What is asked of a length parameter is asked of the length that is given. -/
theorem forall_parameter_iff {index n : Nat} (hn : call.parameter? index = some (n : Int))
    {P : Nat → Prop} :
    (∀ m : Nat, call.parameter? index = some (m : Int) → P m) ↔ P n := by
  refine ⟨fun h => h n hn, fun h m hm => ?_⟩
  obtain rfl : n = m := Int.ofNat.inj (Option.some.inj (hn.symm.trans hm))
  exact h

/-- The buffers are examined last. -/
theorem examines_buffers {n outLen : Nat}
    (hn : call.parameter? LengthParameters.stateLenIndex = some (n : Int))
    (hlen : call.parameter? entry.lengthIndex = some (outLen : Int)) :
    Examines (Demand.Met config entry call) (Demand.Refuses config entry call)
      [.time, .state, .derivative, .output]
      (do
        let t ← leadingWindow call.t 1
        let y ← leadingWindow call.y n
        let yp ← leadingWindow call.yp n
        if call.res.length < outLen then
          throw (.bufferTooShort "res" outLen call.res.length)
        return (⟨outLen, ⟨t, y, yp⟩⟩ : Admission)) fun _ => True := by
  show Examines _ _ ([Demand.time] ++ ([.state] ++ ([.derivative] ++ [.output]))) _ _
  have htime : Examines (Demand.Met config entry call) (Demand.Refuses config entry call) [.time]
      (leadingWindow call.t 1) fun _ => True := examines_leadingWindow Iff.rfl rfl
  refine htime.bind fun t _ => ?_
  refine (examines_leadingWindow (forall_parameter_iff hn) ⟨n, hn, rfl⟩).bind fun y _ => ?_
  refine (examines_leadingWindow (forall_parameter_iff hn) ⟨n, hn, rfl⟩).bind fun yp _ => ?_
  show Examines _ _ _ (if call.res.length < outLen then _ else _) _
  by_cases hshort : call.res.length < outLen
  · rw [if_pos hshort]
    refine .one (fun admission h => by cases h) (fun e h => ?_)
    cases h
    exact ⟨fun hmet => absurd ((forall_parameter_iff hlen).mp hmet) (Nat.not_le_of_lt hshort),
      outLen, hlen, rfl⟩
  · rw [if_neg hshort]
    refine .of_met (fun demand hdemand => ?_) trivial
    obtain rfl := List.mem_singleton.mp hdemand
    exact (forall_parameter_iff hlen).mpr (Nat.le_of_not_lt hshort)

/-- The arguments are examined in order. -/
theorem examines_check (config : BridgeConfig) (entry : Entry) (call : Invocation) :
    Examines (Demand.Met config entry call) (Demand.Refuses config entry call) Demand.inOrder
      (config.check entry call) fun _ => True := by
  unfold BridgeConfig.check Demand.inOrder
  show Examines _ _ ([Demand.stateLenGiven, .stateLenPositive] ++ ([.stateLenAgreed] ++ _)) _ _
  refine examines_stateLen.bind fun n hn => ?_
  obtain ⟨hn, -⟩ := hn
  have hagreed : Examines (Demand.Met config entry call) (Demand.Refuses config entry call)
      [.stateLenAgreed] (agreedLength n config.stateLen LengthParameters.stateLenIndex)
      fun len => len = n :=
    examines_agreedLength (by simp only [Demand.Met, hn, Option.some.injEq, Int.natCast_inj])
      fun expected hexpected => ⟨expected, n, hexpected, hn, rfl⟩
  refine hagreed.bind fun len hlen => ?_
  subst hlen
  exact (examines_outputLen hn).bind fun outLen hout => examines_buffers hn hout

end Parts

/-- Every demand is made. -/
theorem Demand.mem_inOrder (demand : Demand) : demand ∈ Demand.inOrder := by
  cases demand <;> decide

/-! ## Accepted or refused -/

namespace Bridge

/-- The invocation goes ahead: it is counted, and its guard opens and closes. -/
structure Proceeds (host : HostRuntime σ R K) (bridge : Bridge K) (entry : Entry)
    (call : Invocation) (s : σ) : Prop where
  /-- One more invocation is counted, however this one ends. -/
  counted : (bridge.evaluate host entry call s).bridge.calls = bridge.calls + 1
  /-- The operations keep to the grammar, with the windows that the arguments declare. -/
  opened : ∃ admission n opening, Accepted bridge.config entry call admission n ∧
    Opening host.supportsReuse bridge entry admission call.res opening
      (bridge.evaluate host entry call s).outcome
      (bridge.evaluate host entry call s).bridge.reusable
      (bridge.evaluate host entry call s).res ∧
    bridge.operations host entry call s = opening ++ closing opening

/-- The invocation is refused: it ends with the error, nothing is asked of the host, and the
output, the bridge and the host are as before. -/
structure Refused (e : BridgeError) (host : HostRuntime σ R K) (bridge : Bridge K) (entry : Entry)
    (call : Invocation) (s : σ) : Prop where
  /-- All is as before. -/
  unchanged : bridge.evaluate host entry call s = ⟨.error (.error e), call.res, bridge, s⟩
  /-- Nothing is asked of the host. -/
  untouched : bridge.operations host entry call s = []

/-- What is refused does not go ahead. -/
theorem Refused.not_proceeds {e : BridgeError} {host : HostRuntime σ R K} {bridge : Bridge K}
    {entry : Entry} {call : Invocation} {s : σ} (h : bridge.Refused e host entry call s) :
    ¬ bridge.Proceeds host entry call s := by
  intro hproceeds
  have hcounted := hproceeds.counted
  rw [h.unchanged] at hcounted
  exact absurd hcounted (Nat.ne_of_lt (Nat.lt_succ_self _))

/-- An invocation with accepted arguments goes ahead. -/
theorem proceeds_of_admitted {bridge : Bridge K} {entry : Entry} {call : Invocation}
    {admission : Admission} (hcheck : bridge.config.check entry call = .ok admission)
    (host : HostRuntime σ R K) (s : σ) : bridge.Proceeds host entry call s := by
  obtain ⟨n, haccepted⟩ := BridgeConfig.accepted_of_check hcheck
  obtain ⟨opening, hopening, hops⟩ :=
    (bridge.evaluate_traced host entry call s).admitted admission hcheck
  refine ⟨?_, admission, n, opening, haccepted, hopening, hops⟩
  simp only [evaluate, hcheck]

/-- An invocation with rejected arguments is refused. -/
theorem refused_of_rejected {bridge : Bridge K} {entry : Entry} {call : Invocation}
    {e : BridgeError} (hcheck : bridge.config.check entry call = .error e)
    (host : HostRuntime σ R K) (s : σ) : bridge.Refused e host entry call s :=
  ⟨evaluate_of_rejected hcheck host s, (bridge.evaluate_traced host entry call s).rejected e hcheck⟩

end Bridge

/-- **The arguments decide.** An invocation goes ahead, and is counted whatever becomes of it,
exactly if its arguments meet every demand.  Otherwise the error is that of the first demand
which is not met, and nothing has been asked of the host or changed in the bridge. -/
theorem invocation_validated (host : HostRuntime σ R K) (bridge : Bridge K) (entry : Entry)
    (call : Invocation) (s : σ) :
    (bridge.Proceeds host entry call s ↔
      ∀ demand : Demand, demand.Met bridge.config entry call) ∧
    (bridge.Proceeds host entry call s ∨ ∃ demand e,
      FirstUnmet (Demand.Met bridge.config entry call) Demand.inOrder demand ∧
        demand.Refuses bridge.config entry call e ∧ bridge.Refused e host entry call s) := by
  have hexamined := examines_check bridge.config entry call
  cases hcheck : bridge.config.check entry call with
  | ok admission =>
    rw [hcheck] at hexamined
    have hproceeds := Bridge.proceeds_of_admitted hcheck host s
    have hmet : ∀ demand : Demand, demand.Met bridge.config entry call :=
      fun demand => hexamined.1 demand demand.mem_inOrder
    exact ⟨iff_of_true hproceeds hmet, Or.inl hproceeds⟩
  | error e =>
    rw [hcheck] at hexamined
    obtain ⟨demand, hfirst, hrefuses⟩ := hexamined
    have hrefused := Bridge.refused_of_rejected hcheck host s
    have hunmet : ¬ ∀ demand : Demand, demand.Met bridge.config entry call := by
      intro hmet
      obtain ⟨-, -, -, -, hfails⟩ := hfirst
      exact hfails (hmet demand)
    exact ⟨iff_of_false hrefused.not_proceeds hunmet,
      Or.inr ⟨demand, e, hfirst, hrefuses, hrefused⟩⟩

end CallbackBridge
