/-
# The operations of one invocation

Which operations the bridge asks of a host in one invocation, in which order, and how the
invocation ends depending on what they give.  The grammar has a rule for each way on and
each way out:

* `Lookup` finds the user function,
* `Makes` and `Moves` bring up views one by one, `Viewing` chooses between them,
* `Answering` calls, pins the result, reads and copies,
* `Opening` puts these together.

After the opening the guard closes, whichever rule applied (`Bridge.evaluate_traced`).
-/
import CallbackBridge.Proofs.Traces
namespace CallbackBridge

open HostOperation

variable {σ R K : Type}

/-! ## Names and handles of an entry point -/

/-- The name under which failures of the function for an entry point are reported. -/
def BindingNames.reported (names : BindingNames) : Entry → String
  | .residual => names.residual
  | .event => names.eventName

/-- The name that is looked up for an entry point, if there is one. -/
def BindingNames.name? (names : BindingNames) : Entry → Option String
  | .residual => some names.residual
  | .event => names.event

/-- The handle that is kept for an entry point, if there is one. -/
def Bindings.handle? (bindings : Bindings K) : Entry → Option K
  | .residual => some bindings.residual
  | .event => bindings.event

/-! ## The grammar -/

/-- Looking for the user function of an entry point. -/
inductive Lookup (names : BindingNames) (entry : Entry) :
    Symbols K → List (HostOperation R K) → Except BridgeError R → Prop where
  /-- There is a handle for it. -/
  | attached {bindings : Bindings K} {handle : K} {f : R}
      (hhandle : bindings.handle? entry = some handle) :
      Lookup names entry (.bound bindings) [.attach handle f] (.ok f)
  /-- It was missing when the handles were made. -/
  | unbound {bindings : Bindings K} (hhandle : bindings.handle? entry = none) :
      Lookup names entry (.bound bindings) [] (.error (.unresolvedBinding (names.reported entry)))
  /-- There is no name for it. -/
  | unnamed (hname : names.name? entry = none) :
      Lookup names entry .perCall [] (.error (.unresolvedBinding (names.reported entry)))
  /-- Its name is not bound. -/
  | missing {name : String} (hname : names.name? entry = some name) :
      Lookup names entry .perCall [.resolve name none] (.error (.unresolvedBinding name))
  /-- Its name is bound to something that cannot be called. -/
  | mistyped {name found : String} {value : R} (hname : names.name? entry = some name) :
      Lookup names entry .perCall
        [.resolve name (some value), .isCallable value false, .typeName value found]
        (.error (.typeMismatch name "callable" found))
  /-- Its name is bound to a function. -/
  | callable {name : String} {f : R} (hname : names.name? entry = some name) :
      Lookup names entry .perCall [.resolve name (some f), .isCallable f true] (.ok f)

/-- Making views of buffers one by one, each pinned at once, up to the first failure. -/
inductive Makes : List Buffer → List (HostOperation R K) → Except HostError (List R) → Prop where
  /-- All views are made. -/
  | nil : Makes [] [] (.ok [])
  /-- The next view cannot be made. -/
  | failed {buffer : Buffer} {rest : List Buffer} {e : HostError} :
      Makes (buffer :: rest) [.materialize buffer (.error e)] (.error e)
  /-- The next view is made and pinned. -/
  | made {buffer : Buffer} {rest : List Buffer} {view : R} {ops : List (HostOperation R K)}
      {result : Except HostError (List R)} (hrest : Makes rest ops result) :
      Makes (buffer :: rest) (.materialize buffer (.ok view) :: .pin view :: ops)
        (result.map (view :: ·))

/-- Pointing views at buffers one by one, each pinned at once, up to the first failure. -/
inductive Moves : List (R × Buffer) → List (HostOperation R K) → Except HostError Unit →
    Prop where
  /-- All views are moved. -/
  | nil : Moves [] [] (.ok ())
  /-- The next view cannot be moved. -/
  | failed {view : R} {buffer : Buffer} {rest : List (R × Buffer)} {e : HostError} :
      Moves ((view, buffer) :: rest) [.repoint view buffer (.error e)] (.error e)
  /-- The next view is moved and pinned. -/
  | moved {view : R} {buffer : Buffer} {rest : List (R × Buffer)}
      {ops : List (HostOperation R K)} {result : Except HostError Unit}
      (hrest : Moves rest ops result) :
      Moves ((view, buffer) :: rest) (.repoint view buffer (.ok ()) :: .pin view :: ops) result

/-- Obtaining views of the three buffers.  The handles are those that are kept before and
afterwards. -/
inductive Viewing (supportsReuse : Bool) (buffers : StateViews Buffer) :
    ViewStrategy → Option (StateViews K) → List (HostOperation R K) →
      Except HostError (StateViews R) → Option (StateViews K) → Prop where
  /-- A new view cannot be made; with views that are kept none is tried. -/
  | unmade {strategy : ViewStrategy} {kept : Option (StateViews K)}
      {ops : List (HostOperation R K)} {e : HostError}
      (hmakes : Makes buffers.toList ops (.error e)) (hnew : strategy = .reuse → kept = none) :
      Viewing supportsReuse buffers strategy kept ops (.error e) kept
  /-- New views for this invocation only. -/
  | fresh {kept : Option (StateViews K)} {ops : List (HostOperation R K)} {views : StateViews R}
      (hmakes : Makes buffers.toList ops (.ok views.toList)) :
      Viewing supportsReuse buffers .fresh kept ops (.ok views) kept
  /-- The host cannot point views elsewhere. -/
  | unsupported {kept : Option (StateViews K)} (hsupports : supportsReuse = false) :
      Viewing supportsReuse buffers .reuse kept []
        (.error (.unsupported "view reuse")) kept
  /-- New views that are kept from now on. -/
  | first {ops : List (HostOperation R K)} {views : StateViews R} {handles : StateViews K}
      (hsupports : supportsReuse = true)
      (hmakes : Makes buffers.toList ops (.ok views.toList)) :
      Viewing supportsReuse buffers .reuse none
        (ops ++ [.persist views.t handles.t, .persist views.y handles.y,
          .persist views.yp handles.yp])
        (.ok views) (some handles)
  /-- The kept views. -/
  | later {ops : List (HostOperation R K)} {views : StateViews R} {handles : StateViews K}
      {result : Except HostError Unit} (hsupports : supportsReuse = true)
      (hmoves : Moves [(views.t, buffers.t), (views.y, buffers.y), (views.yp, buffers.yp)] ops
        result) :
      Viewing supportsReuse buffers .reuse (some handles)
        ([.attach handles.t views.t, .attach handles.y views.y,
          .attach handles.yp views.yp] ++ ops)
        (result.map fun _ => views) (some handles)

/-- Calling the function and delivering what it returns. -/
inductive Answering (f : R) (name : String) (views : StateViews R) (outLen : Nat)
    (res : Output) : List (HostOperation R K) → Outcome BridgeError Unit → Output → Prop where
  /-- The function fails or panics. -/
  | stopped (stop : Stop HostError) :
      Answering f name views outLen res [.call f views (.error stop)]
        (Outcome.mapError (HostError.ofCall name) (.error stop)) res
  /-- The result cannot be read. -/
  | unread {r : R} (e : HostError) :
      Answering f name views outLen res [.call f views (.ok r), .pin r, .read r (.error e)]
        (.error (.error (HostError.ofResult e))) res
  /-- The result is not copied. -/
  | refused {r : R} {values : List Binary64} {e : BridgeError}
      (hcopy : copyOut values res outLen = .error e) :
      Answering f name views outLen res [.call f views (.ok r), .pin r, .read r (.ok values)]
        (.error (.error e)) res
  /-- The result is copied. -/
  | copied {r : R} {values : List Binary64} {res' : Output}
      (hcopy : copyOut values res outLen = .ok res') :
      Answering f name views outLen res [.call f views (.ok r), .pin r, .read r (.ok values)]
        (.ok ()) res'

/-- All that the bridge asks of the host before the guard closes. -/
inductive Opening (supportsReuse : Bool) (bridge : Bridge K) (entry : Entry)
    (admission : Admission) (res : Output) :
    List (HostOperation R K) → Outcome BridgeError Unit → Option (StateViews K) → Output →
      Prop where
  /-- There is no function. -/
  | unfound {looking : List (HostOperation R K)} {e : BridgeError}
      (hlookup : Lookup bridge.config.names entry bridge.symbols looking (.error e)) :
      Opening supportsReuse bridge entry admission res looking (.error (.error e))
        bridge.reusable res
  /-- There are no views. -/
  | unseen {looking viewing : List (HostOperation R K)} {f : R} {e : HostError}
      {kept : Option (StateViews K)}
      (hlookup : Lookup bridge.config.names entry bridge.symbols looking (.ok f))
      (hviewing : Viewing supportsReuse admission.buffers bridge.config.strategy bridge.reusable
        viewing (.error e) kept) :
      Opening supportsReuse bridge entry admission res (looking ++ .pin f :: viewing)
        (.error (.error (.host e))) kept res
  /-- The function is called. -/
  | asked {looking viewing asking : List (HostOperation R K)} {f : R} {views : StateViews R}
      {kept : Option (StateViews K)} {outcome : Outcome BridgeError Unit} {res' : Output}
      (hlookup : Lookup bridge.config.names entry bridge.symbols looking (.ok f))
      (hviewing : Viewing supportsReuse admission.buffers bridge.config.strategy bridge.reusable
        viewing (.ok views) kept)
      (hanswering : Answering f (bridge.config.names.reported entry) views admission.outLen res
        asking outcome res') :
      Opening supportsReuse bridge entry admission res
        (looking ++ .pin f :: (viewing ++ asking)) outcome kept res'

/-! ## What the guard is charged with -/

/-- The holdings after operations: the pinned values and the shown views have to be given
back. -/
def Frame.charge (held : Holdings R K) (ops : List (HostOperation R K)) : Holdings R K :=
  { held with guard := ⟨(pinnedValues ops).reverse ++ held.guard.pinned,
    held.guard.views ++ shownViews ops⟩ }

theorem charge_nil (held : Holdings R K) : held.charge [] = held := by
  simp [Frame.charge]

theorem charge_append (held : Holdings R K) (ops ops' : List (HostOperation R K)) :
    (held.charge ops).charge ops' = held.charge (ops ++ ops') := by
  simp [Frame.charge]

/-- Operations that neither pin nor show anything charge nothing. -/
theorem charge_of_idle (held : Holdings R K) {ops : List (HostOperation R K)}
    (hpinned : pinnedValues ops = []) (hshown : shownViews ops = []) : held.charge ops = held := by
  simp [Frame.charge, hpinned, hshown]

/-! ## Each part of an invocation keeps to the grammar -/

variable {host : HostRuntime σ R K}

/-- Looking a name up, operation by operation. -/
theorem start_resolveFunction (host : HostRuntime σ R K) (name : String) (s : σ) :
    (resolveFunction host name).start s =
      match host.resolve name s with
      | (none, s₁) => (.error (.error (.unresolvedBinding name)), s₁)
      | (some value, s₁) =>
        match host.isCallable value s₁ with
        | (true, s₂) => (.ok value, s₂)
        | (false, s₂) =>
          match host.typeName value s₂ with
          | (found, s₃) => (.error (.error (.typeMismatch name "callable" found)), s₃) := by
  have htotal : ∀ {α : Type} (step : σ → α × σ) (u : σ),
      (Act.total step : Act σ BridgeError α).start u = (.ok (step u).1, (step u).2) :=
    fun _ _ => rfl
  unfold resolveFunction
  rw [Act.start_bind, htotal]
  rcases host.resolve name s with ⟨_ | value, s₁⟩
  · rfl
  · simp only
    rw [Act.start_bind, htotal]
    rcases host.isCallable value s₁ with ⟨_ | _, s₂⟩ <;> rfl

/-- A name is looked up as the grammar says. -/
theorem observes_resolveFunction {names : BindingNames} {entry : Entry} {name : String}
    (hname : names.name? entry = some name) :
    Observes host (Step.onHost (resolveFunction host.traced name))
      (Step.onHost (resolveFunction host name)) fun held ops out held' => held' = held ∧
        ∃ result, Lookup names entry .perCall ops result ∧ out = Outcome.ofExcept result := by
  intro frame
  have hzoom : ∀ {τ α : Type} (act : Act τ BridgeError α) (u : Frame τ R K),
      (Step.onHost act).start u = ((act.start u.host).1, u.withHost (act.start u.host).2) :=
    fun _ _ => rfl
  rw [hzoom, hzoom, start_resolveFunction, start_resolveFunction]
  simp only [HostRuntime.traced, Frame.withHost]
  rcases hresolve : host.resolve name frame.host.host with ⟨_ | value, s₁⟩
  · rw [Traced.perform_of_eq hresolve]
    exact ⟨_, _, [_], rfl, rfl, rfl, ⟨rfl, hresolve, rfl⟩, rfl, _, .missing hname, rfl⟩
  · rw [Traced.perform_of_eq hresolve]
    simp only
    rcases hcallable : host.isCallable value s₁ with ⟨_ | _, s₂⟩
    · rw [Traced.perform_of_eq (s := ⟨s₁, _⟩) hcallable]
      simp only
      exact ⟨_, _, [⟨.resolve name (some value), _, s₁⟩, ⟨.isCallable value false, s₁, s₂⟩,
        ⟨.typeName value (host.typeName value s₂).1, s₂, (host.typeName value s₂).2⟩], rfl, rfl,
        by simp [Traced.perform], ⟨rfl, hresolve, rfl, hcallable, rfl, rfl, rfl⟩, rfl, _,
        .mistyped hname, rfl⟩
    · rw [Traced.perform_of_eq (s := ⟨s₁, _⟩) hcallable]
      exact ⟨_, _, [⟨.resolve name (some value), _, s₁⟩, ⟨.isCallable value true, s₁, s₂⟩],
        rfl, rfl, by simp, ⟨rfl, hresolve, rfl, hcallable, rfl⟩, rfl, _, .callable hname, rfl⟩

/-- The user function is found as the grammar says. -/
theorem observes_find (symbols : Symbols K) (names : BindingNames) (entry : Entry) :
    Observes host (symbols.find host.traced names entry) (symbols.find host names entry)
      fun held ops out held' => held' = held ∧ ∃ result, Lookup names entry symbols ops result ∧
        out = Outcome.ofExcept (result.map fun f => (f, names.reported entry)) := by
  -- a handle is enough, and so is a name; the entry point does not matter
  have hattach : ∀ {bindings : Bindings K} {handle : K},
      bindings.handle? entry = some handle →
      Observes host
        (Step.ofHost (host.traced.attach handle) >>= fun f => pure (f, names.reported entry))
        (Step.ofHost (host.attach handle) >>= fun f => pure (f, names.reported entry))
        fun held ops out held' => held' = held ∧
          ∃ result, Lookup names entry (.bound bindings) ops result ∧
            out = Outcome.ofExcept (result.map fun f => (f, names.reported entry)) := by
    intro bindings handle hhandle
    refine ((Observes.ofHost (.attach handle) fun _ => rfl).bind fun f => .pure _).mono ?_
    rintro held ops out held' (⟨stop, rfl, f, -, hstop, -⟩ |
      ⟨f, mid, _, _, rfl, ⟨f', rfl, hf, rfl⟩, rfl, rfl, rfl⟩)
    · cases hstop
    · cases hf
      exact ⟨rfl, _, .attached hhandle, rfl⟩
  have hresolve : ∀ {name : String}, names.name? entry = some name →
      names.reported entry = name →
      Observes host
        (Step.onHost (resolveFunction host.traced name) >>= fun f => pure (f, name))
        (Step.onHost (resolveFunction host name) >>= fun f => pure (f, name))
        fun held ops out held' => held' = held ∧
          ∃ result, Lookup names entry .perCall ops result ∧
            out = Outcome.ofExcept (result.map fun f => (f, names.reported entry)) := by
    intro name hname hreported
    refine ((observes_resolveFunction hname).bind fun f => .pure _).mono ?_
    rintro held ops out held' (⟨stop, rfl, rfl, result, hlookup, hresult⟩ |
      ⟨f, mid, ops, _, rfl, ⟨rfl, result, hlookup, hresult⟩, rfl, rfl, rfl⟩)
    · cases result with
      | ok f => cases hresult
      | error e =>
        cases hresult
        exact ⟨rfl, _, hlookup, rfl⟩
    · cases result with
      | ok f =>
        cases hresult
        rw [List.append_nil]
        exact ⟨rfl, _, hlookup, by rw [hreported]; rfl⟩
      | error e => cases hresult
  cases symbols with
  | bound bindings =>
    cases entry with
    | residual => exact hattach rfl
    | event =>
      cases hevent : bindings.event with
      | none =>
        simp only [Symbols.find, hevent]
        refine (Observes.fail _).mono ?_
        rintro held ops out held' ⟨rfl, rfl, rfl⟩
        exact ⟨rfl, _, .unbound hevent, rfl⟩
      | some handle =>
        simp only [Symbols.find, hevent]
        exact hattach hevent
  | perCall =>
    cases entry with
    | residual => exact hresolve rfl rfl
    | event =>
      cases hevent : names.event with
      | none =>
        simp only [Symbols.find, hevent]
        refine (Observes.fail _).mono ?_
        rintro held ops out held' ⟨rfl, rfl, rfl⟩
        exact ⟨rfl, _, .unnamed hevent, rfl⟩
      | some name =>
        simp only [Symbols.find, hevent]
        exact hresolve hevent (by simp [BindingNames.reported, BindingNames.eventName, hevent])

/-- One view is made and pinned, or not made. -/
theorem observes_materializeOne (buffer : Buffer) :
    Observes host (StateViews.materializeOne host.traced buffer)
      (StateViews.materializeOne host buffer) fun held ops out held' =>
        held' = held.charge ops ∧
          ((∃ e, ops = [.materialize buffer (.error e)] ∧ out = .error (.error (.host e))) ∨
            ∃ view, ops = [.materialize buffer (.ok view), .pin view] ∧ out = .ok view) := by
  refine ((Observes.tryHost (.materialize buffer) .host fun _ => rfl).bind fun view =>
    (Observes.adopt view).bind fun _ => .pure view).mono ?_
  rintro held ops out held' (⟨stop, rfl, result, rfl, hresult, rfl⟩ |
    ⟨view, mid, _, _, rfl, ⟨result, rfl, hresult, rfl⟩, hrest⟩)
  · cases result with
    | ok view => cases hresult
    | error e =>
      cases hresult
      exact ⟨(charge_of_idle _ rfl rfl).symm, Or.inl ⟨e, rfl, rfl⟩⟩
  · cases result with
    | error e => cases hresult
    | ok made =>
      cases hresult
      rcases hrest with ⟨stop, -, -, hstop, -⟩ |
        ⟨_, mid, _, _, rfl, ⟨rfl, -, rfl⟩, rfl, rfl, rfl⟩
      · cases hstop
      · exact ⟨rfl, Or.inr ⟨view, rfl, rfl⟩⟩

/-- New views are made as the grammar says. -/
theorem observes_materialize (buffers : StateViews Buffer) :
    Observes host (StateViews.materialize host.traced buffers)
      (StateViews.materialize host buffers) fun held ops out held' =>
        held' = held.charge ops ∧ ∃ result : Except HostError (StateViews R),
          Makes buffers.toList ops (result.map StateViews.toList) ∧
            out = Outcome.ofExcept (result.mapError .host) := by
  refine ((observes_materializeOne buffers.t).bind fun t =>
    (observes_materializeOne buffers.y).bind fun y =>
      (observes_materializeOne buffers.yp).bind fun yp =>
        .pure (⟨t, y, yp⟩ : StateViews R)).mono ?_
  -- each of the three views may be the first that is not made
  rintro held ops out held' (⟨stop, rfl, rfl, ⟨e, rfl, hstop⟩ | ⟨t, -, hstop⟩⟩ |
    ⟨t, mid, _, ops, rfl, ⟨rfl, ⟨e, -, hstop⟩ | ⟨t, rfl, hout⟩⟩, hrest⟩)
  · cases hstop
    exact ⟨rfl, .error e, .failed, rfl⟩
  · cases hstop
  · cases hstop
  cases hout
  rcases hrest with ⟨stop, rfl, rfl, ⟨e, rfl, hstop⟩ | ⟨y, -, hstop⟩⟩ |
    ⟨y, mid, _, ops, rfl, ⟨rfl, ⟨e, -, hstop⟩ | ⟨y, rfl, hout⟩⟩, hrest⟩
  · cases hstop
    exact ⟨charge_append _ _ _, .error e, .made .failed, rfl⟩
  · cases hstop
  · cases hstop
  cases hout
  rcases hrest with ⟨stop, rfl, rfl, ⟨e, rfl, hstop⟩ | ⟨yp, -, hstop⟩⟩ |
    ⟨yp, mid, _, _, rfl, ⟨rfl, ⟨e, -, hstop⟩ | ⟨yp, rfl, hout⟩⟩, rfl, rfl, rfl⟩
  · cases hstop
    exact ⟨by simp only [charge_append, List.append_assoc], .error e, .made (.made .failed), rfl⟩
  · cases hstop
  · cases hstop
  cases hout
  exact ⟨by simp only [charge_append, List.append_assoc, List.append_nil],
    .ok ⟨t, y, yp⟩, .made (.made (.made .nil)), rfl⟩

/-- One view is moved and pinned, or not moved. -/
theorem observes_repointOne (view : R) (buffer : Buffer) :
    Observes host (StateViews.repointOne host.traced view buffer)
      (StateViews.repointOne host view buffer) fun held ops out held' =>
        held' = held.charge ops ∧
          ((∃ e, ops = [.repoint view buffer (.error e)] ∧ out = .error (.error (.host e))) ∨
            ops = [.repoint view buffer (.ok ()), .pin view] ∧ out = .ok ()) := by
  refine ((Observes.tryHost (.repoint view buffer) .host fun _ => rfl).bind fun _ =>
    Observes.adopt view).mono ?_
  rintro held ops out held' (⟨stop, rfl, result, rfl, hresult, rfl⟩ |
    ⟨_, mid, _, _, rfl, ⟨result, rfl, hresult, rfl⟩, rfl, rfl, rfl⟩)
  · cases result with
    | ok _ => cases hresult
    | error e =>
      cases hresult
      exact ⟨(charge_of_idle _ rfl rfl).symm, Or.inl ⟨e, rfl, rfl⟩⟩
  · cases result with
    | error e => cases hresult
    | ok _ => exact ⟨rfl, Or.inr ⟨rfl, rfl⟩⟩

/-- Kept views are moved as the grammar says. -/
theorem observes_repoint (views : StateViews R) (buffers : StateViews Buffer) :
    Observes host (StateViews.repoint host.traced views buffers)
      (StateViews.repoint host views buffers) fun held ops out held' =>
        held' = held.charge ops ∧ ∃ result,
          Moves [(views.t, buffers.t), (views.y, buffers.y), (views.yp, buffers.yp)] ops result ∧
            out = Outcome.ofExcept (result.mapError .host) := by
  refine ((observes_repointOne views.t buffers.t).bind fun _ =>
    (observes_repointOne views.y buffers.y).bind fun _ =>
      observes_repointOne views.yp buffers.yp).mono ?_
  rintro held ops out held' (⟨stop, rfl, rfl, ⟨e, rfl, hstop⟩ | ⟨-, hstop⟩⟩ |
    ⟨_, mid, _, ops, rfl, ⟨rfl, ⟨e, -, hstop⟩ | ⟨rfl, -⟩⟩, hrest⟩)
  · cases hstop
    exact ⟨rfl, .error e, .failed, rfl⟩
  · cases hstop
  · cases hstop
  rcases hrest with ⟨stop, rfl, rfl, ⟨e, rfl, hstop⟩ | ⟨-, hstop⟩⟩ |
    ⟨_, mid, _, ops, rfl, ⟨rfl, ⟨e, -, hstop⟩ | ⟨rfl, -⟩⟩, rfl, hrest⟩
  · cases hstop
    exact ⟨charge_append _ _ _, .error e, .moved .failed, rfl⟩
  · cases hstop
  · cases hstop
  rcases hrest with ⟨e, rfl, rfl⟩ | ⟨rfl, rfl⟩
  · exact ⟨by simp only [charge_append, List.append_assoc], .error e, .moved (.moved .failed),
      rfl⟩
  · exact ⟨by simp only [charge_append, List.append_assoc], .ok (), .moved (.moved (.moved .nil)),
      rfl⟩

/-- One operation that cannot fail is asked for each of three, and then nothing any more. -/
theorem observes_each {α β γ : Type} {operation : α → σ → β × σ}
    (event : α → β → HostOperation R K)
    (hevent : ∀ a s, (event a (operation a s).1).Performs host s (operation a s).2)
    {last : StateViews β → Step (Traced σ R K) R K γ} {plain : StateViews β → Step σ R K γ}
    {outcome : StateViews β → Outcome BridgeError γ}
    {change : StateViews β → Holdings R K → Holdings R K}
    (hlast : ∀ results, Observes host (last results) (plain results) fun held ops out held' =>
      ops = [] ∧ out = outcome results ∧ held' = change results held)
    (values : StateViews α) :
    Observes host
      (Step.ofHost (Traced.perform (operation values.t) (event values.t)) >>= fun t =>
        Step.ofHost (Traced.perform (operation values.y) (event values.y)) >>= fun y =>
          Step.ofHost (Traced.perform (operation values.yp) (event values.yp)) >>= fun yp =>
            last ⟨t, y, yp⟩)
      (Step.ofHost (operation values.t) >>= fun t =>
        Step.ofHost (operation values.y) >>= fun y =>
          Step.ofHost (operation values.yp) >>= fun yp => plain ⟨t, y, yp⟩)
      fun held ops out held' => ∃ results : StateViews β,
        ops = [event values.t results.t, event values.y results.y, event values.yp results.yp] ∧
          out = outcome results ∧ held' = change results held := by
  refine ((Observes.ofHost (event values.t) (hevent values.t)).bind fun t =>
    (Observes.ofHost (event values.y) (hevent values.y)).bind fun y =>
      (Observes.ofHost (event values.yp) (hevent values.yp)).bind fun yp =>
        hlast ⟨t, y, yp⟩).mono ?_
  rintro held ops out held' (⟨_, rfl, t, -, hstop, -⟩ |
    ⟨t, _, _, _, rfl, ⟨_, rfl, ht, rfl⟩, ⟨_, rfl, y, -, hstop, -⟩ |
      ⟨y, _, _, _, rfl, ⟨_, rfl, hy, rfl⟩, ⟨_, rfl, yp, -, hstop, -⟩ |
        ⟨yp, _, _, _, rfl, ⟨_, rfl, hyp, rfl⟩, rfl, rfl, rfl⟩⟩⟩)
  · cases hstop
  · cases hstop
  · cases hstop
  · cases ht
    cases hy
    cases hyp
    exact ⟨⟨t, y, yp⟩, rfl, rfl, rfl⟩

/-- Handles to all three views are made and kept. -/
theorem observes_persist (views : StateViews R) :
    Observes host (StateViews.persist host.traced views) (StateViews.persist host views)
      fun held ops out held' => ∃ handles : StateViews K,
        ops = [.persist views.t handles.t, .persist views.y handles.y,
          .persist views.yp handles.yp] ∧
        out = .ok () ∧ held' = { held with reusable := some handles } :=
  observes_each .persist (fun _ _ => rfl) (fun handles =>
    .silent (.ok ()) (fun held => { held with reusable := some handles }) (fun _ => rfl)
      fun _ => rfl) views

/-- References to all three kept views are taken. -/
theorem observes_attach (handles : StateViews K) :
    Observes host (StateViews.attach host.traced handles) (StateViews.attach host handles)
      fun held ops out held' => ∃ views : StateViews R,
        ops = [.attach handles.t views.t, .attach handles.y views.y,
          .attach handles.yp views.yp] ∧
        out = .ok views ∧ held' = held :=
  observes_each .attach (fun _ _ => rfl) (fun views => .pure views) handles

/-- Kept views are moved, or new ones made and kept, as the grammar says. -/
theorem observes_reuse (buffers : StateViews Buffer) :
    Observes host (StateViews.reuse host.traced buffers) (StateViews.reuse host buffers)
      fun held ops out held' => ∃ result kept,
        Viewing host.supportsReuse buffers .reuse held.reusable ops result kept ∧
          out = Outcome.ofExcept (result.mapError .host) ∧
          held' = { held.charge ops with reusable := kept } := by
  cases hsupports : host.supportsReuse with
  | false =>
    have htraced : host.traced.supportsReuse = false := hsupports
    simp only [StateViews.reuse, hsupports, htraced, Bool.not_false, if_true]
    refine (Observes.fail _).mono ?_
    rintro held ops out held' ⟨rfl, rfl, rfl⟩
    exact ⟨_, _, .unsupported rfl, rfl, by rw [charge_nil]⟩
  | true =>
    have htraced : host.traced.supportsReuse = true := hsupports
    have hlook : Observes host
        (Act.total fun frame : Frame (Traced σ R K) R K => (frame.reusable, frame))
        (Act.total fun frame : Frame σ R K => (frame.reusable, frame))
        fun held ops out held' => ops = [] ∧ out = .ok held.reusable ∧ held' = held :=
      fun frame => ⟨_, frame, [], rfl, rfl, (List.append_nil _).symm, rfl, rfl, rfl, rfl⟩
    simp only [StateViews.reuse, hsupports, htraced, Bool.not_true, Bool.false_eq_true, if_false]
    -- what follows depends on whether there are kept views
    refine (hlook.bind fun reusable => show Observes host _ _ fun held ops out held' =>
      held.reusable = reusable → ∃ result kept,
        Viewing true buffers .reuse held.reusable ops result kept ∧
          out = Outcome.ofExcept (result.mapError .host) ∧
          held' = { held.charge ops with reusable := kept } from ?_).mono ?_
    · cases reusable with
      | none =>
        refine ((observes_materialize buffers).bind fun views =>
          (observes_persist views).bind fun _ => .pure views).mono ?_
        rintro held ops out held' (⟨stop, rfl, rfl, result, hmakes, hresult⟩ |
          ⟨views, mid, ops, _, rfl, ⟨rfl, result, hmakes, hresult⟩, hrest⟩) hnone
        · cases result with
          | ok views => cases hresult
          | error e =>
            cases hresult
            exact ⟨_, _, .unmade hmakes fun _ => hnone, rfl, rfl⟩
        · cases result with
          | error e => cases hresult
          | ok made =>
            cases hresult
            rcases hrest with ⟨stop, -, handles, -, hstop, -⟩ |
              ⟨_, mid, _, _, rfl, ⟨handles, rfl, -, rfl⟩, rfl, rfl, rfl⟩
            · cases hstop
            · rw [hnone, List.append_nil]
              refine ⟨_, _, .first rfl hmakes, rfl, ?_⟩
              rw [← charge_append, charge_of_idle (held.charge ops) rfl rfl]
      | some handles =>
        refine ((observes_attach handles).bind fun views =>
          (observes_repoint views buffers).bind fun _ => .pure views).mono ?_
        rintro held ops out held' (⟨stop, -, views, -, hstop, -⟩ |
          ⟨views, mid, _, ops, rfl, ⟨views', rfl, hviews, rfl⟩, hrest⟩) hsome
        · cases hstop
        cases hviews
        rw [hsome]
        rcases hrest with ⟨stop, rfl, rfl, result, hmoves, hresult⟩ |
          ⟨_, mid, ops, _, rfl, ⟨rfl, result, hmoves, hresult⟩, rfl, rfl, rfl⟩
        · cases result with
          | ok _ => cases hresult
          | error e =>
            cases hresult
            refine ⟨_, _, .later rfl hmoves, rfl, ?_⟩
            rw [← hsome]
            rfl
        · cases result with
          | error e => cases hresult
          | ok _ =>
            rw [List.append_nil]
            refine ⟨_, _, .later rfl hmoves, rfl, ?_⟩
            rw [← hsome]
            rfl
    · rintro held ops out held' (⟨stop, -, -, hstop, -⟩ |
        ⟨reusable, mid, _, ops, rfl, ⟨rfl, hlooked, rfl⟩, hrest⟩)
      · cases hstop
      · cases hlooked
        exact hrest rfl

/-- Views are obtained as the grammar says. -/
theorem observes_obtainViews (strategy : ViewStrategy) (buffers : StateViews Buffer) :
    Observes host (StateViews.obtain host.traced strategy buffers)
      (StateViews.obtain host strategy buffers) fun held ops out held' => ∃ result kept,
        Viewing host.supportsReuse buffers strategy held.reusable ops result kept ∧
          out = Outcome.ofExcept (result.mapError .host) ∧
          held' = { held.charge ops with reusable := kept } := by
  cases strategy with
  | reuse => exact observes_reuse buffers
  | fresh =>
    refine (observes_materialize buffers).mono ?_
    rintro held ops out held' ⟨rfl, result, hmakes, rfl⟩
    cases result with
    | ok views => exact ⟨_, _, .fresh hmakes, rfl, rfl⟩
    | error e => exact ⟨_, _, .unmade hmakes nofun, rfl, rfl⟩

/-- The function is called, and what it gives back is pinned. -/
theorem observes_invoke (f : R) (name : String) (views : StateViews R) :
    Observes host (invoke host.traced f name views) (invoke host f name views)
      fun held ops out held' =>
        (∃ stop, ops = [.call f views (.error stop)] ∧
          out = Outcome.mapError (HostError.ofCall name) (.error stop) ∧ held' = held) ∨
        ∃ r, ops = [.call f views (.ok r), .pin r] ∧ out = .ok r ∧
          held' = { held with guard.pinned := r :: held.guard.pinned } := by
  have hcall : Observes host
      (Step.onHost (Act.mapError (HostError.ofCall name)
        (Act.ofStep (host.traced.call f views))))
      (Step.onHost (Act.mapError (HostError.ofCall name) (Act.ofStep (host.call f views))))
      fun held ops out held' => ∃ outcome : Outcome HostError R, ops = [.call f views outcome] ∧
        out = outcome.mapError (HostError.ofCall name) ∧ held' = held := by
    intro frame
    exact ⟨_, _, [⟨_, _, _⟩], rfl, rfl, rfl, ⟨rfl, rfl, rfl⟩, _, rfl, rfl, rfl⟩
  refine (hcall.bind fun result => (Observes.root result).bind fun _ => .pure result).mono ?_
  rintro held ops out held' (⟨stop, rfl, outcome, rfl, houtcome, rfl⟩ |
    ⟨r, mid, _, _, rfl, ⟨outcome, rfl, houtcome, rfl⟩, hrooted⟩)
  · -- the call fails or panics
    cases outcome with
    | ok r => cases houtcome
    | error stop =>
      cases stop with
      | error e =>
        cases houtcome
        exact Or.inl ⟨.error e, rfl, rfl, rfl⟩
      | panic message =>
        cases houtcome
        exact Or.inl ⟨.panic message, rfl, rfl, rfl⟩
  · cases outcome with
    | error stop => cases stop <;> cases houtcome
    | ok r' =>
      cases houtcome
      rcases hrooted with ⟨_, -, -, hstop, -⟩ | ⟨_, _, _, _, rfl, ⟨rfl, -, rfl⟩, rfl, hvalue, rfl⟩
      · cases hstop
      · exact Or.inr ⟨r, rfl, hvalue, rfl⟩

/-- The result is read and copied into the output. -/
theorem observes_deliver (result : R) (outLen : Nat) :
    Observes host (deliver host.traced result outLen) (deliver host result outLen)
      fun held ops out held' =>
        (∃ e, ops = [.read result (.error e)] ∧
          out = .error (.error (HostError.ofResult e)) ∧ held' = held) ∨
        ∃ values, ops = [.read result (.ok values)] ∧
          ((∃ res, copyOut values held.res outLen = .ok res ∧ out = .ok () ∧
              held' = { held with res }) ∨
            ∃ e, copyOut values held.res outLen = .error e ∧ out = .error (.error e) ∧
              held' = held) := by
  refine ((Observes.tryHost (.read result) HostError.ofResult fun _ => rfl).bind
    (Q := fun values held ops out held' => ops = [] ∧
      ((∃ res, copyOut values held.res outLen = .ok res ∧ out = .ok () ∧
          held' = { held with res }) ∨
        ∃ e, copyOut values held.res outLen = .error e ∧ out = .error (.error e) ∧
          held' = held)) fun values frame => ?_).mono ?_
  · cases hcopied : copyOut values frame.res outLen with
    | ok res =>
      refine ⟨.ok (), { frame with res }, [], ?_, ?_, (List.append_nil _).symm, rfl, rfl, ?_⟩
      · simp [Act.start, Act.checked, hcopied, Outcome.ofExcept]
      · simp [Act.start, Act.checked, Frame.withHost, hcopied, Outcome.ofExcept]
      · exact Or.inl ⟨res, hcopied, rfl, rfl⟩
    | error e =>
      refine ⟨.error (.error e), frame, [], ?_, ?_, (List.append_nil _).symm, rfl, rfl, ?_⟩
      · simp [Act.start, Act.checked, hcopied, Outcome.ofExcept]
      · simp [Act.start, Act.checked, Frame.withHost, hcopied, Outcome.ofExcept]
      · exact Or.inr ⟨e, hcopied, rfl, rfl⟩
  · rintro held ops out held' (⟨stop, rfl, read, rfl, hread, rfl⟩ |
      ⟨values, mid, _, _, rfl, ⟨read, rfl, hread, rfl⟩, rfl, hcopied⟩)
    · cases read with
      | ok values => cases hread
      | error e =>
        cases hread
        exact Or.inl ⟨e, rfl, rfl, rfl⟩
    · cases read with
      | error e => cases hread
      | ok values' =>
        cases hread
        exact Or.inr ⟨values, rfl, hcopied⟩

/-- The function is called and its result delivered as the grammar says. -/
theorem observes_answering (f : R) (name : String) (views : StateViews R) (outLen : Nat) :
    Observes host
      (invoke host.traced f name views >>= fun result => deliver host.traced result outLen)
      (invoke host f name views >>= fun result => deliver host result outLen)
      fun held ops out held' => ∃ res', Answering f name views outLen held.res ops out res' ∧
        held' = { held.charge ops with res := res' } := by
  -- of the operations that follow, only the pin is charged
  have hcharge : ∀ (held : Holdings R K) (r : R) (read : Except HostError (List Binary64)),
      ({ held with guard.pinned := r :: held.guard.pinned } : Holdings R K) =
        held.charge [.call f views (.ok r), .pin r, .read r read] := by
    intro held r read
    simp [Frame.charge, pinned?, shown?]
  refine ((observes_invoke f name views).bind fun r => observes_deliver r outLen).mono ?_
  rintro held ops out held' (⟨stop, rfl, ⟨stop', rfl, hstop, rfl⟩ | ⟨r, -, hstop, -⟩⟩ |
    ⟨r, mid, _, _, rfl, ⟨stop', -, hstop, -⟩ | ⟨r', rfl, hvalue, rfl⟩, hdelivered⟩)
  · refine ⟨_, ?_, (charge_of_idle _ rfl rfl).symm⟩
    cases stop' with
    | error e =>
      cases hstop
      exact .stopped (.error e)
    | panic message =>
      cases hstop
      exact .stopped (.panic message)
  · cases hstop
  · cases stop' <;> cases hstop
  · cases hvalue
    rcases hdelivered with ⟨e, rfl, rfl, rfl⟩ | ⟨values, rfl, ⟨res', hcopy, rfl, rfl⟩ |
      ⟨e, hcopy, rfl, rfl⟩⟩
    · exact ⟨_, .unread e, by rw [hcharge _ _ (.error e)]; rfl⟩
    · exact ⟨_, .copied hcopy, by rw [hcharge _ _ (.ok values)]; rfl⟩
    · exact ⟨_, .refused hcopy, by rw [hcharge _ _ (.ok values)]; rfl⟩

/-- The user function is found and pinned as the grammar says. -/
theorem observes_obtainFunction (symbols : Symbols K) (names : BindingNames) (entry : Entry) :
    Observes host (symbols.obtain host.traced names entry) (symbols.obtain host names entry)
      fun held ops out held' =>
        (∃ e, Lookup names entry symbols ops (.error e) ∧ out = .error (.error e) ∧
          held' = held) ∨
        ∃ f looking, Lookup names entry symbols looking (.ok f) ∧ ops = looking ++ [.pin f] ∧
          out = .ok (f, names.reported entry) ∧
          held' = { held with guard.pinned := f :: held.guard.pinned } := by
  refine ((observes_find symbols names entry).bind fun found =>
    (Observes.root found.1).bind fun _ => .pure (found.1, found.2)).mono ?_
  rintro held ops out held' (⟨stop, rfl, rfl, result, hlookup, hresult⟩ |
    ⟨found, mid, looking, _, rfl, ⟨rfl, result, hlookup, hresult⟩, ⟨stop, -, -, hstop, -⟩ |
      ⟨_, _, _, _, rfl, ⟨rfl, -, rfl⟩, rfl, rfl, rfl⟩⟩)
  · cases result with
    | ok f => cases hresult
    | error e =>
      cases hresult
      exact Or.inl ⟨e, hlookup, rfl, rfl⟩
  · cases hstop
  · cases result with
    | error e => cases hresult
    | ok f =>
      cases hresult
      exact Or.inr ⟨f, looking, hlookup, rfl, rfl, rfl⟩

/-- Looking for the function neither pins nor shows anything. -/
theorem Lookup.idle {names : BindingNames} {entry : Entry} {symbols : Symbols K}
    {ops : List (HostOperation R K)} {result : Except BridgeError R}
    (h : Lookup names entry symbols ops result) : ∀ op ∈ ops,
      op.shown? = none ∧ op.pinned? = none := by
  cases h <;> simp [shown?, pinned?]

/-- All that runs under the guard keeps to the grammar. -/
theorem observes_body (host : HostRuntime σ R K) (bridge : Bridge K) (entry : Entry)
    (admission : Admission) :
    Observes host (bridge.body host.traced entry admission) (bridge.body host entry admission)
      fun held ops out held' => held.reusable = bridge.reusable → ∃ kept res',
        Opening host.supportsReuse bridge entry admission held.res ops out kept res' ∧
          held' = { held.charge ops with reusable := kept, res := res' } := by
  refine ((observes_obtainFunction bridge.symbols bridge.config.names entry).bind fun found =>
      (observes_obtainViews bridge.config.strategy admission.buffers).bind fun views =>
        observes_answering found.1 found.2 views admission.outLen).mono ?_
  have hidle : ∀ {held : Holdings R K} {looking : List (HostOperation R K)}
      {result : Except BridgeError R},
      Lookup bridge.config.names entry bridge.symbols looking result →
      held.charge looking = held := fun hlookup =>
    charge_of_idle _ (pinnedValues_eq_nil fun op hop => (hlookup.idle op hop).2)
      (shownViews_eq_nil fun op hop => (hlookup.idle op hop).1)
  have hpinned : ∀ {held : Holdings R K} {looking : List (HostOperation R K)} {f : R},
      Lookup bridge.config.names entry bridge.symbols looking (.ok f) →
      ({ held with guard.pinned := f :: held.guard.pinned } : Holdings R K) =
        held.charge (looking ++ [.pin f]) := by
    intro held looking f hlookup
    rw [← charge_append, hidle hlookup]
    simp [Frame.charge, pinned?, shown?]
  rintro held ops out held'
    (⟨stop, rfl, ⟨e, hlookup, hstop, rfl⟩ | ⟨f, looking, -, -, hstop, -⟩⟩ |
      ⟨found, mid, _, ops, rfl, ⟨e, -, hout, -⟩ | ⟨f, looking, hlookup, rfl, hout, rfl⟩, hrest⟩)
    hreusable
  · cases hstop
    refine ⟨_, _, .unfound hlookup, ?_⟩
    rw [hidle hlookup, ← hreusable]
  · cases hstop
  · cases hout
  cases hout
  rcases hrest with ⟨stop, rfl, result, kept, hviewing, hresult, rfl⟩ |
    ⟨views, mid, viewing, asking, rfl, ⟨result, kept, hviewing, hresult, rfl⟩, res', hanswering,
      rfl⟩
  · cases result with
    | ok views => cases hresult
    | error e =>
      cases hresult
      rw [show looking ++ [.pin f] ++ ops = looking ++ .pin f :: ops by simp]
      refine ⟨_, _, .unseen hlookup (hreusable ▸ hviewing), ?_⟩
      rw [hpinned hlookup, charge_append, List.append_assoc]
      rfl
  · cases result with
    | error e => cases hresult
    | ok views =>
      cases hresult
      rw [show looking ++ [.pin f] ++ (viewing ++ asking) =
        looking ++ .pin f :: (viewing ++ asking) by simp]
      refine ⟨_, _, .asked hlookup (hreusable ▸ hviewing) hanswering, ?_⟩
      rw [hpinned hlookup, charge_append]
      simp [Frame.charge]

/-! ## Closing the guard -/

/-- What the guard asks of the host when it closes after the given operations: the shown
views are retired in order, then the pins are undone, the latest first. -/
def closing (ops : List (HostOperation R K)) : List (HostOperation R K) :=
  (shownViews ops).map .retire ++ (pinnedValues ops).reverse.map .unpin

/-- A change of the host for each of some values, one after the other, under
observation. -/
theorem foldl_change {α : Type} (change : α → σ → σ) (event : α → HostOperation R K)
    (hevent : ∀ value s, (event value).Performs host s (change value s)) (values : List α)
    (s : Traced σ R K) : ∃ moments,
      values.foldl (fun s value => Traced.change (change value) (event value) s) s =
        ⟨values.foldl (fun s value => change value s) s.host, s.moments ++ moments⟩ ∧
      Chain host s.host moments (values.foldl (fun s value => change value s) s.host) ∧
      moments.map Moment.operation = values.map event := by
  induction values generalizing s with
  | nil => exact ⟨[], by simp, rfl, rfl⟩
  | cons value rest ih =>
    obtain ⟨moments, hfold, hchain, hops⟩ := ih (Traced.change (change value) (event value) s)
    refine ⟨⟨event value, s.host, change value s.host⟩ :: moments, ?_,
      ⟨rfl, hevent value s.host, hchain⟩, by simp [hops]⟩
    rw [List.foldl_cons, hfold]
    simp [Traced.change]

/-- The guard closes under observation as it closes without. -/
theorem close_traced (host : HostRuntime σ R K) (guard : RootGuard R) (s : Traced σ R K) :
    ∃ moments,
    guard.close host.traced s = ⟨guard.close host s.host, s.moments ++ moments⟩ ∧
      Chain host s.host moments (guard.close host s.host) ∧
      moments.map Moment.operation = guard.views.map .retire ++ guard.pinned.map .unpin := by
  obtain ⟨retired, hretire, hchain, hops⟩ :=
    foldl_change host.retire (K := K) .retire (fun _ _ => rfl) guard.views s
  obtain ⟨unpinned, hunpin, hchain', hops'⟩ :=
    foldl_change host.unpin (K := K) .unpin (fun _ _ => rfl) guard.pinned
      ⟨RootGuard.retireAll host guard.views s.host, s.moments ++ retired⟩
  refine ⟨retired ++ unpinned, ?_, hchain.append hchain', by rw [List.map_append, hops, hops']⟩
  show RootGuard.unpinAll host.traced guard.pinned
    (RootGuard.retireAll host.traced guard.views s) = _
  rw [show RootGuard.retireAll host.traced guard.views s = _ from hretire, ← List.append_assoc]
  exact hunpin

/-! ## Whole invocations -/

namespace Bridge

/-- The moments of one invocation. -/
def trace (host : HostRuntime σ R K) (bridge : Bridge K) (entry : Entry) (call : Invocation)
    (s : σ) : List (Moment σ R K) :=
  (bridge.evaluate host.traced entry call ⟨s, []⟩).host.moments

/-- The operations of one invocation. -/
def operations (host : HostRuntime σ R K) (bridge : Bridge K) (entry : Entry)
    (call : Invocation) (s : σ) : List (HostOperation R K) :=
  (bridge.trace host entry call s).map Moment.operation

/-- What is known of an invocation: observing it changes nothing, the moments lead from the
state before it to the state after it, and the operations keep to the grammar. -/
structure Conducted (host : HostRuntime σ R K) (bridge : Bridge K) (entry : Entry)
    (call : Invocation) (s : σ) : Prop where
  /-- Observing changes nothing. -/
  observed : bridge.evaluate host.traced entry call ⟨s, []⟩ =
    ⟨(bridge.evaluate host entry call s).outcome, (bridge.evaluate host entry call s).res,
      (bridge.evaluate host entry call s).bridge,
      ⟨(bridge.evaluate host entry call s).host, bridge.trace host entry call s⟩⟩
  /-- The moments lead through the invocation. -/
  chain : Chain host s (bridge.trace host entry call s) (bridge.evaluate host entry call s).host
  /-- Rejected arguments leave the host alone. -/
  rejected : ∀ e, bridge.config.check entry call = .error e →
    bridge.operations host entry call s = []
  /-- Otherwise the guard closes after an opening. -/
  admitted : ∀ admission, bridge.config.check entry call = .ok admission → ∃ opening,
    Opening host.supportsReuse bridge entry admission call.res opening
      (bridge.evaluate host entry call s).outcome
      (bridge.evaluate host entry call s).bridge.reusable
      (bridge.evaluate host entry call s).res ∧
    bridge.operations host entry call s = opening ++ closing opening

/-- Rejected arguments leave everything as it is. -/
theorem evaluate_of_rejected {bridge : Bridge K} {entry : Entry} {call : Invocation}
    {e : BridgeError} (hcheck : bridge.config.check entry call = .error e)
    (host : HostRuntime σ R K) (s : σ) :
    bridge.evaluate host entry call s = ⟨.error (.error e), call.res, bridge, s⟩ := by
  simp only [evaluate, hcheck]

/-- An invocation changes neither the settings of a bridge nor where its functions come
from. -/
theorem config_symbols_evaluate (host : HostRuntime σ R K) (bridge : Bridge K) (entry : Entry)
    (call : Invocation) (s : σ) :
    (bridge.evaluate host entry call s).bridge.config = bridge.config ∧
      (bridge.evaluate host entry call s).bridge.symbols = bridge.symbols := by
  unfold evaluate
  split <;> exact ⟨rfl, rfl⟩

/-- **Every invocation is conducted.** -/
theorem evaluate_traced (host : HostRuntime σ R K) (bridge : Bridge K) (entry : Entry)
    (call : Invocation) (s : σ) : bridge.Conducted host entry call s := by
  cases hcheck : bridge.config.check entry call with
  | error e =>
    have htrace : bridge.trace host entry call s = [] := by
      simp only [trace, evaluate_of_rejected hcheck]
    refine ⟨?_, ?_, ?_, ?_⟩
    · rw [evaluate_of_rejected hcheck, evaluate_of_rejected hcheck, htrace]
    · rw [htrace, evaluate_of_rejected hcheck]
      rfl
    · intro _ _
      simp only [operations, htrace, List.map_nil]
    · intro admission hadmitted
      rw [hcheck] at hadmitted
      cases hadmitted
  | ok admission =>
    obtain ⟨outcome, frame, moments, hbody, hplain, hmoments, hchain, hopening⟩ :=
      observes_body host bridge entry admission ⟨⟨s, []⟩, {}, bridge.reusable, call.res⟩
    obtain ⟨kept, res', hopening, hheld⟩ := hopening rfl
    obtain ⟨closed, hclose, hchain', hops⟩ := close_traced host frame.guard frame.host
    have hguard : frame.guard = ⟨(pinnedValues (moments.map Moment.operation)).reverse,
        shownViews (moments.map Moment.operation)⟩ := by
      have := congrArg Frame.guard hheld
      simpa [Frame.withHost, Frame.charge] using this
    have hkept : frame.reusable = kept := congrArg Frame.reusable hheld
    have hres : frame.res = res' := congrArg Frame.res hheld
    have htraced : bridge.evaluate host.traced entry call ⟨s, []⟩ =
        ⟨outcome, frame.res, { bridge with calls := bridge.calls + 1, reusable := frame.reusable },
          frame.guard.close host.traced frame.host⟩ := by
      simp only [evaluate, hcheck, hbody]
    have hevaluate : bridge.evaluate host entry call s =
        ⟨outcome, frame.res, { bridge with calls := bridge.calls + 1, reusable := frame.reusable },
          frame.guard.close host frame.host.host⟩ := by
      simp only [Frame.withHost] at hplain
      simp only [evaluate, hcheck, hplain]
    have htrace : bridge.trace host entry call s = moments ++ closed := by
      simp only [trace, htraced, hclose, hmoments, List.nil_append]
    refine ⟨?_, ?_, ?_, ?_⟩
    · rw [htraced, hevaluate, htrace, hclose, hmoments, List.nil_append]
    · rw [htrace, hevaluate]
      exact hchain.append hchain'
    · intro e herror
      rw [hcheck] at herror
      cases herror
    · intro admission' hadmitted
      rw [hcheck] at hadmitted
      cases hadmitted
      refine ⟨moments.map Moment.operation, ?_, ?_⟩
      · rw [hevaluate, hkept, hres]
        exact hopening
      · simp only [operations, htrace, List.map_append, hops, hguard, closing]

end Bridge

end CallbackBridge
