/-
# The operations of setup and teardown

At setup both functions are looked up before either is rooted, so a search that fails has
asked the host for nothing but lookups (`Binding`).  At teardown every handle is given up
once, in the order in which a bridge lists its handles (`Bridge.teardown_traced`).
-/
import CallbackBridge.Proofs.Rooting
namespace CallbackBridge

open HostOperation

variable {σ R K : Type}

/-! ## Setup -/

/-- Looking both functions up and rooting what was found. -/
inductive Binding (names : BindingNames) :
    List (HostOperation R K) → Except BridgeError (Bindings K) → Prop where
  /-- The residual function is not found. -/
  | unfound {looking : List (HostOperation R K)} {e : BridgeError}
      (hresidual : Lookup names .residual .perCall looking (.error e)) :
      Binding names looking (.error e)
  /-- The event function is not one. -/
  | unusable {looking looking' : List (HostOperation R K)} {f : R} {e : BridgeError}
      (hresidual : Lookup names .residual .perCall looking (.ok f))
      (hevent : Lookup names .event .perCall looking' (.error e)) :
      Binding names (looking ++ looking') (.error e)
  /-- There is no event function. -/
  | alone {looking looking' : List (HostOperation R K)} {f : R} {name : String} {handle : K}
      (hresidual : Lookup names .residual .perCall looking (.ok f))
      (hevent : Lookup names .event .perCall looking' (.error (.unresolvedBinding name))) :
      Binding names (looking ++ (looking' ++ [.persist f handle])) (.ok ⟨handle, none⟩)
  /-- There are both. -/
  | both {looking looking' : List (HostOperation R K)} {f g : R} {handle handle' : K}
      (hresidual : Lookup names .residual .perCall looking (.ok f))
      (hevent : Lookup names .event .perCall looking' (.ok g)) :
      Binding names (looking ++ (looking' ++ [.persist f handle, .persist g handle']))
        (.ok ⟨handle, some handle'⟩)

/-- A lookup leads from one state of the host to another as the grammar says. -/
theorem exists_lookup {names : BindingNames} {entry : Entry} {name : String}
    (hname : names.name? entry = some name) (host : HostRuntime σ R K) (s : σ) :
    ∃ (moments : List (Moment σ R K)) (result : Except BridgeError R) (s' : σ),
      (resolveFunction host name).start s = (Outcome.ofExcept result, s') ∧
        Chain host s moments s' ∧
        Lookup names entry .perCall (moments.map Moment.operation) result := by
  have hobserves : Observes host (Step.onHost (resolveFunction host.traced name))
      (Step.onHost (resolveFunction host name)) _ := observes_resolveFunction hname
  obtain ⟨outcome, frame, moments, -, hplain, -, hchain, -, result, hlookup, rfl⟩ :=
    hobserves ⟨⟨s, []⟩, {}, none, default⟩
  have houtcome := congrArg Prod.fst hplain
  have hhost := congrArg (fun ended => ended.2.host) hplain
  exact ⟨moments, result, frame.host.host, Prod.ext houtcome hhost, hchain, hlookup⟩

/-- An action that does not panic hands its result over. -/
theorem Act.start_caught_of_eq {ε δ α : Type} {act : Act σ ε α} {result : Except ε α} {s s' : σ}
    (h : act.start s = (Outcome.ofExcept result, s')) :
    (caught act : Act σ δ (Except ε α)).start s = (.ok result, s') := by
  unfold caught start at *
  simp only [h]
  cases result <;> rfl

/-- The one operation that roots a value beyond the call. -/
theorem chain_persist (host : HostRuntime σ R K) (value : R) (s : σ) :
    Chain host s [⟨.persist value (host.persist value s).1, s, (host.persist value s).2⟩]
      (host.persist value s).2 :=
  ⟨rfl, rfl, rfl⟩

/-- **Functions are bound as the grammar says**, on every host. -/
theorem exists_binding (host : HostRuntime σ R K) (names : BindingNames) (s : σ) :
    ∃ (moments : List (Moment σ R K)) (result : Except BridgeError (Bindings K)) (s' : σ),
      (Bindings.resolve host names).start s = (Outcome.ofExcept result, s') ∧
        Chain host s moments s' ∧ Binding names (moments.map Moment.operation) result := by
  have hresidual : names.name? .residual = some names.residual := rfl
  obtain ⟨moments, found, s₁, hstart, hchain, hlookup⟩ := exists_lookup hresidual host s
  unfold Bindings.resolve
  rw [Act.start_bind, hstart]
  cases found with
  | error e => exact ⟨moments, .error e, s₁, rfl, hchain, .unfound hlookup⟩
  | ok f =>
    simp only [Outcome.ofExcept]
    cases hevent : names.event with
    | none =>
      -- without a name nothing is asked for the event function
      have hunnamed : Lookup names .event .perCall ([] : List (HostOperation R K))
          (.error (.unresolvedBinding (names.reported .event))) := .unnamed hevent
      refine ⟨moments ++ [_], .ok ⟨(host.persist f s₁).1, none⟩, _, rfl,
        hchain.append (chain_persist host f s₁), ?_⟩
      rw [List.map_append]
      exact .alone hlookup hunnamed
    | some name =>
      have hname : names.name? .event = some name := hevent
      obtain ⟨moments', found', s₂, hstart', hchain', hlookup'⟩ := exists_lookup hname host s₁
      simp only
      rw [Act.start_bind, Act.start_caught_of_eq hstart']
      cases found' with
      | ok g =>
        have hroots := (chain_persist host f s₂).append (chain_persist host g (host.persist f s₂).2)
        refine ⟨moments ++ (moments' ++ [_, _]),
          .ok ⟨(host.persist f s₂).1, some (host.persist g (host.persist f s₂).2).1⟩, _, rfl,
          hchain.append (hchain'.append hroots), ?_⟩
        rw [List.map_append, List.map_append]
        exact .both hlookup hlookup'
      | error e =>
        -- only a missing event function is none
        have hfails : Binding names ((moments ++ moments').map Moment.operation)
            (.error e : Except BridgeError (Bindings K)) := by
          rw [List.map_append]
          exact .unusable hlookup hlookup'
        cases e with
        | unresolvedBinding missing =>
          refine ⟨moments ++ (moments' ++ [_]), .ok ⟨(host.persist f s₂).1, none⟩, _, rfl,
            hchain.append (hchain'.append (chain_persist host f s₂)), ?_⟩
          rw [List.map_append, List.map_append]
          exact .alone hlookup hlookup'
        | _ => exact ⟨moments ++ moments', .error _, s₂, rfl, hchain.append hchain', hfails⟩

/-- A binding that fails has only looked. -/
theorem Binding.looks_of_error {names : BindingNames} {ops : List (HostOperation R K)}
    {e : BridgeError} (h : Binding names ops (.error e)) : ∀ op ∈ ops, op.Looks := by
  cases h with
  | unfound hresidual => exact hresidual.looks
  | unusable hresidual hevent =>
    rw [List.forall_mem_append]
    exact ⟨hresidual.looks, hevent.looks⟩

/-- A bridge is set up if its settings are in order and its functions can be bound. -/
theorem Bridge.exists_setup (host : HostRuntime σ R K) (config : BridgeConfig) (s : σ) :
    ∃ (moments : List (Moment σ R K)) (result : Except BridgeError (Bridge K)) (s' : σ),
      (Bridge.resolveAtSetup host config).start s = (Outcome.ofExcept result, s') ∧
        Chain host s moments s' ∧
        ((∃ e, moments = [] ∧ result = .error (.config e)) ∨
          ∃ bound, Binding config.names (moments.map Moment.operation) bound ∧
            result = bound.map fun bindings => Bridge.start config (.bound bindings)) := by
  unfold Bridge.resolveAtSetup
  cases config.validate with
  | error e => exact ⟨[], .error (.config e), s, rfl, rfl, Or.inl ⟨e, rfl, rfl⟩⟩
  | ok _ =>
    obtain ⟨moments, bound, s', hstart, hchain, hbinding⟩ := exists_binding host config.names s
    refine ⟨moments, bound.map fun bindings => Bridge.start config (.bound bindings), s', ?_,
      hchain, Or.inr ⟨bound, hbinding, rfl⟩⟩
    simp only
    rw [Act.start_bind, hstart]
    cases bound <;> rfl

/-! ## Teardown -/

/-- The handles of functions. -/
def Symbols.handles : Symbols K → List K
  | .bound bindings => bindings.residual :: bindings.event.toList
  | .perCall => []

namespace Bridge

/-- All handles of a bridge. -/
def handles (bridge : Bridge K) : List K :=
  bridge.symbols.handles ++ (bridge.reusable.map StateViews.toList).getD []

/-- At teardown each handle is given up, one after the other. -/
theorem teardown_eq_foldl (host : HostRuntime σ R K) (bridge : Bridge K) (s : σ) :
    bridge.teardown host s =
      bridge.handles.foldl (fun s handle => host.release handle s) s := by
  unfold teardown handles
  rw [List.foldl_append]
  cases bridge.symbols with
  | perCall => cases bridge.reusable <;> rfl
  | bound bindings =>
    obtain ⟨residual, event⟩ := bindings
    cases event <;> cases bridge.reusable <;> rfl

/-- The moments of a teardown. -/
def teardownTrace (host : HostRuntime σ R K) (bridge : Bridge K) (s : σ) :
    List (Moment σ R K) :=
  (bridge.teardown host.traced ⟨s, []⟩).moments

/-- Observing a teardown changes nothing; its moments lead from the state before it to the
state after it, and they give up each handle. -/
theorem teardown_traced (host : HostRuntime σ R K) (bridge : Bridge K) (s : σ) :
    bridge.teardown host.traced ⟨s, []⟩ =
        ⟨bridge.teardown host s, bridge.teardownTrace host s⟩ ∧
      Chain host s (bridge.teardownTrace host s) (bridge.teardown host s) ∧
      (bridge.teardownTrace host s).map Moment.operation = bridge.handles.map .release := by
  obtain ⟨moments, hfold, hchain, hops⟩ :=
    foldl_change host.release .release (fun _ _ => rfl) bridge.handles ⟨s, []⟩
  have htraced : bridge.teardown host.traced ⟨s, []⟩ = ⟨bridge.teardown host s, moments⟩ := by
    rw [teardown_eq_foldl, teardown_eq_foldl]
    exact hfold
  have htrace : bridge.teardownTrace host s = moments := by
    unfold teardownTrace
    rw [htraced]
  rw [htrace, teardown_eq_foldl host]
  exact ⟨teardown_eq_foldl host bridge s ▸ htraced, hchain, hops⟩

end Bridge

end CallbackBridge
