/-
# A whole result or nothing

Whatever fails in an invocation, be it the arguments, the search, a view, the user
function, the reading or the copying, the output stays as it was.  An invocation that
succeeds has called one function, has read once what that gave back, and has written the
leading values that it read, as many as the entry point asks for
(`evaluate_delivers`).
-/
import CallbackBridge.Proofs.Admission
import CallbackBridge.Proofs.Rooting
namespace CallbackBridge

open HostOperation

variable {σ R K : Type}

/-! ## Copying -/

/-- What is written over an output is what its leading elements are. -/
theorem Output.take_overwrite (o : Output) (values : List Binary64) :
    (o.overwrite values).toList.take values.length = values := by
  rw [toList_overwrite]
  exact List.take_left

/-- The elements after those that are written over stay. -/
theorem Output.drop_overwrite (o : Output) (values : List Binary64) :
    (o.overwrite values).toList.drop values.length = o.toList.drop values.length := by
  rw [toList_overwrite]
  exact List.drop_left

/-- What is known once `len` values have been copied into an output. -/
structure Copied (values : List Binary64) (len : Nat) (before after : Output) : Prop where
  /-- There are as many values. -/
  enough : len ≤ values.length
  /-- There is as much room. -/
  room : len ≤ before.length
  /-- The leading elements are the leading values. -/
  leading : after.toList.take len = values.take len
  /-- All other elements stay. -/
  others : after.toList.drop len = before.toList.drop len

/-- A copy that is made is whole. -/
theorem copied_of_copyOut {values : List Binary64} {destination res : Output} {len : Nat}
    (h : copyOut values destination len = .ok res) : Copied values len destination res := by
  unfold copyOut at h
  by_cases hshort : values.length < len
  · rw [if_pos hshort] at h
    cases h
  by_cases hfull : destination.length < len
  · rw [if_neg hshort, if_pos hfull] at h
    cases h
  rw [if_neg hshort, if_neg hfull] at h
  cases h
  have hlength : (values.take len).length = len :=
    List.length_take_of_le (Nat.le_of_not_lt hshort)
  refine ⟨Nat.le_of_not_lt hshort, Nat.le_of_not_lt hfull, ?_, ?_⟩
  · have htake := destination.take_overwrite (values.take len)
    rwa [hlength] at htake
  · have hdrop := destination.drop_overwrite (values.take len)
    rwa [hlength] at hdrop

/-! ## The length of the output -/

/-- The position of the parameter that says how many values an entry point delivers. -/
def Entry.lengthIndex : Entry → Nat
  | .residual => LengthParameters.stateLenIndex
  | .event => LengthParameters.eventCountIndex

/-- A length that is found stands at its position. -/
theorem LengthParameters.length?_eq_ok {p : LengthParameters} {index len : Nat}
    (h : p.length? index = .ok len) : p.entries[index]? = some (len : Int) := by
  unfold length? at h
  cases hentry : p.entries[index]? with
  | none =>
    rw [hentry] at h
    cases h
  | some value =>
    simp only [hentry] at h
    by_cases hneg : value < 0
    · rw [if_pos hneg] at h
      cases h
    · rw [if_neg hneg] at h
      cases h
      rw [Int.toNat_of_nonneg (Int.not_lt.mp hneg)]

/-- A length that is refused stands nowhere, or what stands there is negative. -/
theorem LengthParameters.length?_eq_error {p : LengthParameters} {index : Nat} {e : BridgeError}
    (h : p.length? index = .error e) :
    e = .missingLengthParameter index ∧ p.entries[index]? = none ∨
      ∃ value, e = .invalidLengthParameter index value ∧ p.entries[index]? = some value ∧
        value < 0 := by
  unfold length? at h
  cases hentry : p.entries[index]? with
  | none =>
    rw [hentry] at h
    cases h
    exact Or.inl ⟨rfl, rfl⟩
  | some value =>
    simp only [hentry] at h
    by_cases hneg : value < 0
    · rw [if_pos hneg] at h
      cases h
      exact Or.inr ⟨value, rfl, rfl, hneg⟩
    · rw [if_neg hneg] at h
      cases h

/-- A state length that is found stands at its position and is not zero. -/
theorem LengthParameters.stateLen_eq_ok {p : LengthParameters} {n : Nat}
    (h : p.stateLen = .ok n) : p.entries[stateLenIndex]? = some (n : Int) ∧ 1 ≤ n := by
  unfold stateLen at h
  obtain ⟨m, hlength, hpositive⟩ := bind_eq_ok h
  by_cases hzero : m = 0
  · rw [if_pos hzero] at hpositive
    cases hpositive
  · rw [if_neg hzero] at hpositive
    cases hpositive
    exact ⟨length?_eq_ok hlength, Nat.pos_of_ne_zero hzero⟩

/-- The output of accepted arguments has the declared length. -/
theorem Accepted.declared {config : BridgeConfig} {entry : Entry} {call : Invocation}
    {admission : Admission} {n : Nat} (h : Accepted config entry call admission n) :
    call.ipar.entries[entry.lengthIndex]? = some (admission.outLen : Int) := by
  have hout := h.outputLen
  cases entry with
  | residual =>
    cases hout
    exact (LengthParameters.stateLen_eq_ok h.stateLen).1
  | event =>
    obtain ⟨m, hlength, hagreed⟩ := bind_eq_ok hout
    cases agreedLength_eq_ok hagreed
    exact LengthParameters.length?_eq_ok hlength

/-! ## The result -/

/-- In the course of an invocation one function was called, and the reference that it gave
back was pinned and read; nothing else was called or read. -/
def Yields (host : HostRuntime σ R K) (trace : List (Moment σ R K)) (values : List Binary64) :
    Prop :=
  ∃ pre post f views r s₁ s₂ s₃,
    trace = pre ++ ⟨.call f views (.ok r), s₁, s₂⟩ :: ⟨.pin r, s₂, host.pin r s₂⟩ ::
      ⟨.read r (.ok values), host.pin r s₂, s₃⟩ :: post ∧
    host.call f views s₁ = (.ok r, s₂) ∧
    host.read r (host.pin r s₂) = (.ok values, s₃) ∧
    ∀ moment ∈ pre ++ post, ¬ moment.operation.Calls ∧ ¬ moment.operation.Reads

/-- What the function gave back is found in the moments of a chain, if it is found in their
operations. -/
theorem yields_of_operations {host : HostRuntime σ R K} {s s' : σ}
    {trace : List (Moment σ R K)} {before after : List (HostOperation R K)} {f r : R}
    {views : StateViews R} {values : List Binary64} (hchain : Chain host s trace s')
    (hops : trace.map Moment.operation =
      before ++ [.call f views (.ok r), .pin r, .read r (.ok values)] ++ after)
    (hbefore : ∀ op ∈ before, ¬ op.Calls ∧ ¬ op.Reads)
    (hafter : ∀ op ∈ after, ¬ op.Calls ∧ ¬ op.Reads) : Yields host trace values := by
  obtain ⟨earlier, post, rfl, hearlier, rfl⟩ := List.map_eq_append_iff.mp hops
  obtain ⟨pre, three, rfl, rfl, hthree⟩ := List.map_eq_append_iff.mp hearlier
  obtain ⟨u, -, hlater⟩ := (List.append_assoc pre three post ▸ hchain).split
  -- the three moments follow each other
  match three, hthree with
  | [⟨_, s₁, _⟩, ⟨_, s₂, _⟩, ⟨_, s₃, s₄⟩], hthree =>
    simp only [List.map_cons, List.map_nil, List.cons.injEq, and_true] at hthree
    obtain ⟨rfl, rfl, rfl⟩ := hthree
    obtain ⟨rfl, hcall, rfl, hpin, rfl, hread, -⟩ := hlater
    obtain rfl : host.pin r s₂ = s₃ := hpin
    refine ⟨pre, post, f, views, r, s₁, s₂, s₄, List.append_assoc _ _ _, hcall, hread, ?_⟩
    intro moment hmoment
    rcases List.mem_append.mp hmoment with hmem | hmem
    · exact hbefore _ (List.mem_map_of_mem hmem)
    · exact hafter _ (List.mem_map_of_mem hmem)

/-- The closing of the guard reads nothing. -/
theorem closing_reads_nothing (ops : List (HostOperation R K)) :
    ∀ op ∈ closing ops, ¬ op.Reads := by
  simp [closing, Reads, or_imp, forall_and]

/-- Calling and delivering writes a whole result or nothing. -/
theorem Answering.delivers {f : R} {name : String} {views : StateViews R} {outLen : Nat}
    {res res' : Output} {ops : List (HostOperation R K)} {outcome : Outcome BridgeError Unit}
    (h : Answering f name views outLen res ops outcome res') :
    ((∃ stop, outcome = .error stop) ∧ res' = res) ∨
    (outcome = .ok () ∧ ∃ r values,
      ops = [.call f views (.ok r), .pin r, .read r (.ok values)] ∧
        Copied values outLen res res') := by
  cases h with
  | stopped stop => cases stop <;> exact Or.inl ⟨⟨_, rfl⟩, rfl⟩
  | unread e => exact Or.inl ⟨⟨_, rfl⟩, rfl⟩
  | refused _ => exact Or.inl ⟨⟨_, rfl⟩, rfl⟩
  | copied hcopy => exact Or.inr ⟨rfl, _, _, rfl, copied_of_copyOut hcopy⟩

/-- A function that stops has the output left as it is. -/
theorem Answering.eq_of_stopped {f : R} {name : String} {views : StateViews R}
    {outLen : Nat} {res res' : Output} {stop : Stop HostError}
    {rest : List (HostOperation R K)} {outcome : Outcome BridgeError Unit}
    (h : Answering f name views outLen res (.call f views (.error stop) :: rest) outcome res') :
    outcome = Outcome.mapError (HostError.ofCall name) (.error stop) ∧ res' = res := by
  cases h with
  | stopped stop => exact ⟨rfl, rfl⟩

/-- A result that cannot be read has the output left as it is. -/
theorem Answering.eq_of_unread {f r : R} {name : String} {views : StateViews R}
    {outLen : Nat} {res res' : Output} {e : HostError} {outcome : Outcome BridgeError Unit}
    (h : Answering (K := K) f name views outLen res
      [.call f views (.ok r), .pin r, .read r (.error e)] outcome res') :
    outcome = .error (.error e.ofResult) ∧ res' = res := by
  cases h with
  | unread e => exact ⟨rfl, rfl⟩

/-- A result that was read is delivered if it is long enough. -/
theorem Answering.eq_of_read {f r : R} {name : String} {views : StateViews R}
    {outLen : Nat} {res res' : Output} {values : List Binary64}
    {outcome : Outcome BridgeError Unit}
    (h : Answering (K := K) f name views outLen res
      [.call f views (.ok r), .pin r, .read r (.ok values)] outcome res')
    (hlen : outLen ≤ res.length) :
    (outcome, res'.toList) =
      if values.length < outLen then
        (.error (.error (.lengthMismatch outLen values.length)), res.toList)
      else (.ok (), values.take outLen ++ res.toList.drop outLen) := by
  cases h with
  | refused hcopy =>
    unfold copyOut at hcopy
    by_cases hshort : values.length < outLen
    · rw [if_pos hshort] at hcopy ⊢
      cases hcopy
      rfl
    · rw [if_neg hshort, if_neg (Nat.not_lt_of_le hlen)] at hcopy
      cases hcopy
  | copied hcopy =>
    unfold copyOut at hcopy
    by_cases hshort : values.length < outLen
    · rw [if_pos hshort] at hcopy
      cases hcopy
    · rw [if_neg hshort, if_neg (Nat.not_lt_of_le hlen)] at hcopy
      cases hcopy
      rw [if_neg hshort, Output.toList_overwrite, List.length_take,
        Nat.min_eq_left (Nat.le_of_not_lt hshort)]

/-- An opening writes a whole result or nothing. -/
theorem Opening.delivers {supportsReuse : Bool} {bridge : Bridge K} {entry : Entry}
    {admission : Admission} {res res' : Output} {opening : List (HostOperation R K)}
    {outcome : Outcome BridgeError Unit} {kept : Option (StateViews K)}
    (h : Opening supportsReuse bridge entry admission res opening outcome kept res') :
    ((∃ stop, outcome = .error stop) ∧ res' = res) ∨
    (outcome = .ok () ∧ ∃ before f views r values,
      opening = before ++ [.call f views (.ok r), .pin r, .read r (.ok values)] ∧
        (∀ op ∈ before, ¬ op.Calls ∧ ¬ op.Reads) ∧ Copied values admission.outLen res res') := by
  cases h with
  | unfound _ => exact Or.inl ⟨⟨_, rfl⟩, rfl⟩
  | unseen _ _ => exact Or.inl ⟨⟨_, rfl⟩, rfl⟩
  | @asked looking viewing asking f views _ _ _ hlookup hviewing hanswering =>
    rcases hanswering.delivers with hstopped | ⟨rfl, r, values, rfl, hcopied⟩
    · exact Or.inl hstopped
    · refine Or.inr ⟨rfl, looking ++ .pin f :: viewing, f, views, r, values, by simp, ?_,
        hcopied⟩
      rw [List.forall_mem_append, List.forall_mem_cons]
      refine ⟨fun op hop => ?_, by simp [Calls, Reads], fun op hop => ?_⟩
      · have hexcludes := (hlookup.looks op hop).excludes
        exact ⟨hexcludes.2.2.1, hexcludes.2.1⟩
      · have hplain := hviewing.disciplined.1 op hop
        exact ⟨hplain.2.2, hplain.2.1⟩

/-! ## Whole invocations -/

/-- **A whole result or nothing.** On every host, for every bridge and every call, an
invocation that ends with an error or a panic leaves the output as it was.  One that
succeeds has written over the leading elements of the output, as many as the parameter of
the entry point says, the leading values that it read from what the called function gave
back; there were that many values, and all other elements of the output stay. -/
theorem evaluate_delivers (host : HostRuntime σ R K) (bridge : Bridge K) (entry : Entry)
    (call : Invocation) (s : σ) :
    ((∃ stop, (bridge.evaluate host entry call s).outcome = .error stop) ∧
      (bridge.evaluate host entry call s).res = call.res) ∨
    ((bridge.evaluate host entry call s).outcome = .ok () ∧ ∃ (len : Nat) (values : List Binary64),
      call.ipar.entries[entry.lengthIndex]? = some (len : Int) ∧
        Yields host (bridge.trace host entry call s) values ∧
          Copied values len call.res (bridge.evaluate host entry call s).res) := by
  have hconducted := bridge.evaluate_traced host entry call s
  cases hcheck : bridge.config.check entry call with
  | error e =>
    rw [Bridge.evaluate_of_rejected hcheck]
    exact Or.inl ⟨⟨_, rfl⟩, rfl⟩
  | ok admission =>
    obtain ⟨n, haccepted⟩ := BridgeConfig.accepted_of_check hcheck
    obtain ⟨opening, hopening, hops⟩ := hconducted.admitted admission hcheck
    rcases hopening.delivers with hstopped | ⟨hok, before, f, views, r, values, heq, hbefore,
      hcopied⟩
    · exact Or.inl hstopped
    · refine Or.inr ⟨hok, admission.outLen, values, haccepted.declared, ?_, hcopied⟩
      have hclosing : ∀ op ∈ closing opening, ¬ op.Calls ∧ ¬ op.Reads := fun op hop =>
        ⟨closing_calls_nothing opening op hop, closing_reads_nothing opening op hop⟩
      rw [heq] at hops hclosing
      exact yields_of_operations hconducted.chain hops hbefore hclosing

end CallbackBridge
