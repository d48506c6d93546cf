/-
# The heap behind a host

What the operations of a host do to the managed heap.  Invocations may run on any host
that is backed by the heap (`HeapBacked`): it does what the heap does, or makes an
operation fail that can fail.  The heap itself is such a host (`heapBacked_runtime`), and
so is the heap under observation with any plan of faults (`heapBacked_recorded`).

Whatever the user code does, a step brings no reference back to life, and objects remain
what they are but for where views are pointed (`HeapStep.forward`).
-/
import CallbackBridge.Heap.Runtime
import CallbackBridge.Proofs.Protocol
import CallbackBridge.Proofs.UserCode
import CallbackBridge.Recorded
namespace CallbackBridge

variable {F ω : Type} {I : Interface}

/-! ## Hosts that are backed by the heap -/

/-- The operation has failed in a way that it can fail without being carried out. -/
def HostOperation.Refused {R K : Type} : HostOperation R K → Prop
  | resolve _ none => True
  | isCallable _ false => True
  | materialize _ (.error _) => True
  | repoint _ _ (.error _) => True
  | call _ _ (.error (.error _)) => True
  | read _ (.error _) => True
  | _ => False

/-- The heap has carried the operation out, or it was refused and nothing has happened. -/
def HeapStep (run : Runner F ω) (op : HostOperation ObjRef Rooted) (w w' : HeapWorld F ω) :
    Prop :=
  op.Performs (HeapWorld.runtime run) w w' ∨ (op.Refused ∧ w' = w)

/-- Whatever the host does, the heap below has done it, or has not noticed. -/
def HeapBacked {σ : Type} (run : Runner F ω) (host : HostRuntime σ ObjRef Rooted)
    (world : σ → HeapWorld F ω) : Prop :=
  ∀ op s s', op.Performs host s s' → HeapStep run op (world s) (world s')

/-- The heap itself is backed by the heap. -/
theorem heapBacked_runtime (run : Runner F ω) : HeapBacked run (HeapWorld.runtime run) id :=
  fun _ _ _ h => Or.inl h

/-- What the recorder passes on is done below. -/
theorem Recorded.host_of_below {σ R K α : Type} (operation : σ → α × σ) {s s' : Recorded σ R K}
    {a : α} (h : s.below operation = (a, s')) : operation s.host = (a, s'.host) := by
  unfold below at h
  cases h
  rfl

/-- Counting an occurrence is not noticed below. -/
theorem Recorded.host_of_occur {σ R K : Type} {operation : FallibleOperation}
    {s s' : Recorded σ R K} {fault : Option HostError}
    (h : occur operation s = (fault, s')) : s'.host = s.host := by
  unfold occur at h
  cases h
  rfl

/-- An operation that can fail is counted first, and done below unless it is to fail. -/
theorem Recorded.host_of_fallible {σ R K α : Type} {operation : FallibleOperation}
    {event : HostEvent R K} {refused : HostError → α} {below : σ → α × σ}
    {s s' : Recorded σ R K} {a : α}
    (h : (match occur operation (s.note event) with
      | (some e, s) => (refused e, s)
      | (none, s) => s.below below) = (a, s')) :
    below s.host = (a, s'.host) ∨ ((∃ e, a = refused e) ∧ s'.host = s.host) := by
  split at h
  · next e s₁ hoccur =>
    cases h
    have hsame := host_of_occur hoccur
    exact Or.inr ⟨⟨e, rfl⟩, hsame⟩
  · next s₁ hoccur =>
    refine Or.inl ?_
    rw [← host_of_below _ h, host_of_occur hoccur]
    rfl

/-- The heap under observation is backed by the heap, whatever is to fail and whatever it
admits about reuse. -/
theorem heapBacked_recorded (support : ReuseSupport) (run : Runner F ω) :
    HeapBacked run (Recorded.runtime support (HeapWorld.runtime run)) Recorded.host := by
  intro op s s' h
  cases op with
  | resolve name found =>
    rcases Recorded.host_of_fallible h with hdone | ⟨⟨e, rfl⟩, hsame⟩
    · exact Or.inl hdone
    · exact Or.inr ⟨trivial, hsame⟩
  | isCallable value callable =>
    rcases Recorded.host_of_fallible h with hdone | ⟨⟨e, rfl⟩, hsame⟩
    · exact Or.inl hdone
    · exact Or.inr ⟨trivial, hsame⟩
  | typeName value name =>
    have hdone := Recorded.host_of_below ((HeapWorld.runtime run).typeName value) h
    exact Or.inl hdone
  | materialize buffer made =>
    simp only [HostOperation.Performs, Recorded.runtime] at h
    split at h
    · next e s₁ hoccur =>
      cases h
      have hsame := Recorded.host_of_occur hoccur
      exact Or.inr ⟨trivial, hsame⟩
    · next s₁ hoccur =>
      split at h
      · next view s₂ hbelow =>
        cases h
        refine Or.inl ?_
        have hdone := Recorded.host_of_below _ hbelow
        rw [Recorded.host_of_occur hoccur] at hdone
        exact hdone
      · next e s₂ hbelow =>
        cases h
        refine Or.inl ?_
        have hdone := Recorded.host_of_below _ hbelow
        rw [Recorded.host_of_occur hoccur] at hdone
        exact hdone
  | repoint view buffer done =>
    cases support with
    | full =>
      rcases Recorded.host_of_fallible h with hdone | ⟨⟨e, rfl⟩, hsame⟩
      · exact Or.inl hdone
      · exact Or.inr ⟨trivial, hsame⟩
    | none =>
      cases h
      exact Or.inr ⟨trivial, rfl⟩
    | nominal =>
      cases h
      exact Or.inr ⟨trivial, rfl⟩
  | retire view =>
    cases h
    exact Or.inl rfl
  | pin value =>
    cases h
    exact Or.inl rfl
  | unpin value =>
    cases h
    exact Or.inl rfl
  | persist value handle =>
    have hdone := Recorded.host_of_below ((HeapWorld.runtime run).persist value) h
    exact Or.inl hdone
  | attach handle value =>
    have hdone := Recorded.host_of_below ((HeapWorld.runtime run).attach handle) h
    exact Or.inl hdone
  | release handle =>
    cases h
    exact Or.inl rfl
  | call function views outcome =>
    rcases Recorded.host_of_fallible h with hdone | ⟨⟨e, rfl⟩, hsame⟩
    · exact Or.inl hdone
    · exact Or.inr ⟨trivial, hsame⟩
  | read value result =>
    rcases Recorded.host_of_fallible h with hdone | ⟨⟨e, rfl⟩, hsame⟩
    · exact Or.inl hdone
    · exact Or.inr ⟨trivial, hsame⟩

/-! ## What each operation does -/

namespace HeapStep

variable {run : Runner F ω} {w w' : HeapWorld F ω}

/-- A name that is found is bound to what was found. -/
theorem resolve {name : String} {found : Option ObjRef}
    (h : HeapStep run (.resolve name found) w w') :
    w' = w ∧ ∀ r, found = some r → w.heap.lookup name = some r := by
  rcases h with hdone | ⟨hrefused, rfl⟩
  · cases hdone
    exact ⟨rfl, fun r hr => hr⟩
  · refine ⟨rfl, ?_⟩
    rintro r rfl
    exact hrefused.elim

/-- What can be called is a function. -/
theorem isCallable {r : ObjRef} {callable : Bool}
    (h : HeapStep run (.isCallable r callable) w w') :
    w' = w ∧ (callable = true → w.heap.kind? r = some "function") := by
  rcases h with hdone | ⟨hrefused, rfl⟩
  · cases hdone
    exact ⟨rfl, fun hcallable => by simpa using hcallable⟩
  · refine ⟨rfl, ?_⟩
    rintro rfl
    exact hrefused.elim

theorem typeName {r : ObjRef} {name : String} (h : HeapStep run (.typeName r name) w w') :
    w' = w := by
  rcases h with hdone | ⟨-, rfl⟩
  · cases hdone
    rfl
  · rfl

/-- A handle leads to what it roots. -/
theorem attach {handle : Rooted} {r : ObjRef} (h : HeapStep run (.attach handle r) w w') :
    w' = w ∧ r = handle.ref := by
  rcases h with hdone | ⟨hrefused, -⟩
  · cases hdone
    exact ⟨rfl, rfl⟩
  · exact hrefused.elim

/-- A view that is made was allocated. -/
theorem materialize {buffer : Buffer} {view : ObjRef}
    (h : HeapStep run (.materialize buffer (.ok view)) w w') :
    view = (w.heap.materialize buffer).1 ∧ w' = w.update fun h => (h.materialize buffer).2 := by
  rcases h with hdone | ⟨hrefused, -⟩
  · cases hdone
    exact ⟨rfl, rfl⟩
  · exact hrefused.elim

theorem materialize_error {buffer : Buffer} {e : HostError}
    (h : HeapStep run (.materialize buffer (.error e)) w w') : w' = w := by
  rcases h with hdone | ⟨-, rfl⟩
  · cases hdone
  · rfl

/-- A view that is moved was pointed at the buffer. -/
theorem repoint {buffer : Buffer} {view : ObjRef}
    (h : HeapStep run (.repoint view buffer (.ok ())) w w') :
    ∃ heap, w.heap.repoint view buffer = .ok heap ∧ w' = { w with heap } := by
  rcases h with hdone | ⟨hrefused, -⟩
  · change HeapWorld.repoint view buffer w = (.ok (), w') at hdone
    unfold HeapWorld.repoint at hdone
    split at hdone
    · next heap hrepoint =>
      cases hdone
      exact ⟨heap, hrepoint, rfl⟩
    · cases hdone
  · exact hrefused.elim

theorem repoint_error {buffer : Buffer} {view : ObjRef} {e : HostError}
    (h : HeapStep run (.repoint view buffer (.error e)) w w') : w' = w := by
  rcases h with hdone | ⟨-, rfl⟩
  · change HeapWorld.repoint view buffer w = (.error e, w') at hdone
    unfold HeapWorld.repoint at hdone
    split at hdone
    · cases hdone
    · cases hdone
      rfl
  · rfl

theorem retire {view : ObjRef} (h : HeapStep run (.retire view) w w') :
    w' = w.update fun h => h.retire view := by
  rcases h with hdone | ⟨hrefused, -⟩
  · exact hdone.symm
  · exact hrefused.elim

theorem pin {r : ObjRef} (h : HeapStep run (.pin r) w w') : w' = w.update fun h => h.pin r := by
  rcases h with hdone | ⟨hrefused, -⟩
  · exact hdone.symm
  · exact hrefused.elim

theorem unpin {r : ObjRef} (h : HeapStep run (.unpin r) w w') :
    w' = w.update fun h => h.unpin r := by
  rcases h with hdone | ⟨hrefused, -⟩
  · exact hdone.symm
  · exact hrefused.elim

/-- A handle is one more pin. -/
theorem persist {r : ObjRef} {handle : Rooted} (h : HeapStep run (.persist r handle) w w') :
    handle = ⟨r⟩ ∧ w' = w.update fun h => h.pin r := by
  rcases h with hdone | ⟨hrefused, -⟩
  · cases hdone
    exact ⟨rfl, rfl⟩
  · exact hrefused.elim

theorem release {handle : Rooted} (h : HeapStep run (.release handle) w w') :
    w' = w.update fun h => h.unpin handle.ref := by
  rcases h with hdone | ⟨hrefused, -⟩
  · exact hdone.symm
  · exact hrefused.elim

/-- A call runs on the heap, or is refused. -/
theorem call {f : ObjRef} {views : StateViews ObjRef} {outcome : Outcome HostError ObjRef}
    (h : HeapStep run (.call f views outcome) w w') :
    (HeapWorld.call run f views).start w = (outcome, w') ∨
      ((∃ e, outcome = .error (.error e)) ∧ w' = w) := by
  rcases h with hdone | ⟨hrefused, rfl⟩
  · exact Or.inl hdone
  · rcases outcome with (e | message) | r
    · exact Or.inr ⟨⟨e, rfl⟩, rfl⟩
    · exact hrefused.elim
    · exact hrefused.elim

theorem read {r : ObjRef} {result : Except HostError (List Binary64)}
    (h : HeapStep run (.read r result) w w') : w' = w := by
  rcases h with hdone | ⟨-, rfl⟩
  · cases hdone
    rfl
  · rfl

end HeapStep

/-- The operation neither makes nor moves nor detaches a view. -/
def HostOperation.SparesViews {R K : Type} : HostOperation R K → Prop
  | materialize _ (.ok _) => False
  | repoint _ _ (.ok _) => False
  | retire _ => False
  | _ => True

/-- What a step does: it changes nothing, or a pin, or a view, or runs the user code. -/
inductive StepEffect (run : Runner F ω) (w : HeapWorld F ω) :
    HostOperation ObjRef Rooted → HeapWorld F ω → Prop where
  /-- Nothing is changed. -/
  | idle {op : HostOperation ObjRef Rooted} (hop : op.SparesViews) : StepEffect run w op w
  /-- An object is pinned. -/
  | pins {op : HostOperation ObjRef Rooted} (hop : op.SparesViews) (r : ObjRef) :
      StepEffect run w op (w.update fun h => h.pin r)
  /-- A pin is undone. -/
  | unpins {op : HostOperation ObjRef Rooted} (hop : op.SparesViews) (r : ObjRef) :
      StepEffect run w op (w.update fun h => h.unpin r)
  /-- A view is made. -/
  | makes {buffer : Buffer} :
      StepEffect run w (.materialize buffer (.ok (w.heap.materialize buffer).1))
        (w.update fun h => (h.materialize buffer).2)
  /-- A view is moved. -/
  | moves {view : ObjRef} {buffer : Buffer} {heap : Heap F}
      (hrepoint : w.heap.repoint view buffer = .ok heap) :
      StepEffect run w (.repoint view buffer (.ok ())) { w with heap }
  /-- A view is detached. -/
  | retires {view : ObjRef} : StepEffect run w (.retire view) (w.update fun h => h.retire view)
  /-- The user code is run. -/
  | runs {f : ObjRef} {views : StateViews ObjRef} {outcome : Outcome HostError ObjRef}
      {w' : HeapWorld F ω} (hcall : (HeapWorld.call run f views).start w = (outcome, w')) :
      StepEffect run w (.call f views outcome) w'

namespace HeapStep

variable {run : Runner F ω} {w w' : HeapWorld F ω}

/-- **What a step can do.** -/
theorem effect {op : HostOperation ObjRef Rooted} (h : HeapStep run op w w') :
    StepEffect run w op w' := by
  cases op with
  | resolve name found =>
    rw [h.resolve.1]
    exact .idle trivial
  | isCallable r callable =>
    rw [h.isCallable.1]
    exact .idle trivial
  | typeName r name =>
    rw [h.typeName]
    exact .idle trivial
  | materialize buffer made =>
    cases made with
    | ok view =>
      obtain ⟨rfl, rfl⟩ := h.materialize
      exact .makes
    | error e =>
      rw [h.materialize_error]
      exact .idle trivial
  | repoint view buffer done =>
    cases done with
    | ok _ =>
      obtain ⟨heap, hrepoint, rfl⟩ := h.repoint
      exact .moves hrepoint
    | error e =>
      rw [h.repoint_error]
      exact .idle trivial
  | retire view =>
    rw [h.retire]
    exact .retires
  | pin r =>
    rw [h.pin]
    refine .pins ?_ r
    exact trivial
  | unpin r =>
    rw [h.unpin]
    refine .unpins ?_ r
    exact trivial
  | persist r handle =>
    rw [h.persist.2]
    refine .pins ?_ r
    exact trivial
  | attach handle r =>
    rw [h.attach.1]
    exact .idle trivial
  | release handle =>
    rw [h.release]
    refine .unpins ?_ handle.ref
    exact trivial
  | call f views outcome =>
    rcases h.call with hcall | ⟨-, rfl⟩
    · exact .runs hcall
    · exact .idle trivial
  | read r result =>
    rw [h.read]
    exact .idle trivial

/-- **No step brings a reference back to life**, whatever the user code does that it
runs. -/
theorem forward {code : UserCode F I} {stack : List (Surroundings I ω)}
    {op : HostOperation ObjRef Rooted} (h : HeapStep (Runner.ofStack code stack) op w w') :
    w.Forward w' := by
  cases h.effect with
  | idle _ => exact .refl w
  | pins _ r => exact ⟨w.heap.evolves_pin HeapEntry.fixedSorts_pins r, rfl⟩
  | unpins _ r => exact ⟨w.heap.evolves_unpin HeapEntry.fixedSorts_pins r, rfl⟩
  | makes => exact ⟨Heap.evolves_alloc _ trivial, rfl⟩
  | moves hrepoint => exact ⟨Heap.evolves_repoint hrepoint, rfl⟩
  | retires => exact ⟨w.heap.evolves_retire _, rfl⟩
  | @runs f views outcome _ hcall =>
    have hforward : w.Forward ((HeapWorld.call (Runner.ofStack code stack) f views).start w).2 :=
      (runClosed_forward (I := I)).call fun function _ =>
        runClosed_forward.runner (fun f args => (code f args).all_true) stack function.code views
    rw [hcall] at hforward
    exact hforward

end HeapStep

/-- The operations lead from one world to another. -/
abbrev HeapRun (code : UserCode F I) (stack : List (Surroundings I ω)) (w : HeapWorld F ω)
    (ops : List (HostOperation ObjRef Rooted)) (w' : HeapWorld F ω) : Prop :=
  Carries (HeapStep (Runner.ofStack code stack)) w ops w'

/-- Operations that follow each other bring no reference back to life either. -/
theorem Carries.forward {code : UserCode F I} {stack : List (Surroundings I ω)}
    {ops : List (HostOperation ObjRef Rooted)} {w w' : HeapWorld F ω}
    (h : HeapRun code stack w ops w') : w.Forward w' :=
  h.relates .refl .trans fun _ _ _ _ hstep => hstep.forward

/-- What a call returns is there. -/
theorem HeapStep.isLive_result {run : Runner F ω} {w w' : HeapWorld F ω} {f r : ObjRef}
    {views : StateViews ObjRef} (h : HeapStep run (.call f views (.ok r)) w w') :
    w'.heap.isLive r := by
  rcases h.call with hcall | ⟨⟨e, hrefused⟩, -⟩
  · rcases HeapWorld.call_cases run f views w with
      ⟨e, -, heq⟩ | ⟨arg, -, -, heq⟩ | ⟨function, hf, hargs⟩
    · rw [heq] at hcall
      cases hcall
    · rw [heq] at hcall
      cases hcall
    · rw [HeapWorld.start_call_entered run hf hargs] at hcall
      obtain ⟨houtcome, rfl⟩ := Prod.mk.inj hcall
      exact (HeapWorld.settle_eq_ok houtcome).2
  · cases hrefused

/-- A call leaves alone what the code of its function leaves alone. -/
theorem HeapStep.sparesAll {names : List String} {code : UserCode F I}
    {stack : List (Surroundings I ω)} {w w' : HeapWorld F ω} {f : ObjRef}
    {views : StateViews ObjRef} {outcome : Outcome HostError ObjRef}
    (h : HeapStep (Runner.ofStack code stack) (.call f views outcome) w w')
    (hbody : ∀ function, w.heap.function f = .ok function → ∀ v : HeapWorld F ω,
      v.SparesAll names ((Runner.ofStack code stack function.code views).start v).2) :
    w.SparesAll names w' := by
  rcases h.call with hcall | ⟨-, rfl⟩
  · have hspares := (runClosed_sparesAll (F := F) (I := I) names).call hbody
    rw [hcall] at hspares
    exact hspares
  · exact .refl _

/-! ## Finding functions on the heap -/

/-- What a name is bound to, if that can be called. -/
def Heap.callable (h : Heap F) (name : String) : Except BridgeError ObjRef :=
  match h.lookup name with
  | none => .error (.unresolvedBinding name)
  | some r =>
    if h.kind? r = some "function" then .ok r
    else .error (.typeMismatch name "callable" ((h.kind? r).getD "stale reference"))

/-- What is found by name is there, and is a function. -/
theorem Heap.entry?_of_callable {h : Heap F} {name : String} {r : ObjRef}
    (hr : h.callable name = .ok r) :
    h.lookup name = some r ∧ ∃ function pins, h.entry? r = some ⟨.function function, pins⟩ := by
  unfold callable at hr
  split at hr
  · cases hr
  · next found hlookup =>
    split at hr
    · next hkind =>
      cases hr
      refine ⟨hlookup, ?_⟩
      unfold kind? at hkind
      obtain ⟨⟨object, pins⟩, hentry, hobject⟩ := Option.map_eq_some_iff.mp hkind
      cases object with
      | function function => exact ⟨function, pins, hentry⟩
      | _ => simp [Object.kind] at hobject
    · cases hr

/-- The heap finds functions by name, and does nothing else. -/
theorem start_resolveFunction_runtime (run : Runner F ω) (name : String) (w : HeapWorld F ω) :
    (resolveFunction (HeapWorld.runtime run) name).start w =
      (Outcome.ofExcept (w.heap.callable name), w) := by
  rw [start_resolveFunction]
  simp only [HeapWorld.runtime, Heap.callable]
  cases w.heap.lookup name with
  | none => rfl
  | some r =>
    simp only
    by_cases hkind : w.heap.kind? r = some "function"
    · simp [hkind, Outcome.ofExcept]
    · have hanswer : (w.heap.kind? r == some "function") = false := by simpa using hkind
      simp [hkind, hanswer, Outcome.ofExcept]

/-- The functions that are found at setup; a missing event function is none. -/
def Heap.bindings (h : Heap F) (names : BindingNames) : Except BridgeError (Bindings Rooted) := do
  let f ← h.callable names.residual
  match names.event with
  | none => return ⟨⟨f⟩, none⟩
  | some name =>
    match h.callable name with
    | .ok g => return ⟨⟨f⟩, some ⟨g⟩⟩
    | .error (.unresolvedBinding _) => return ⟨⟨f⟩, none⟩
    | .error e => throw e

/-- Pins what the handles of functions root. -/
def Heap.pinAll (h : Heap F) (bindings : Bindings Rooted) : Heap F :=
  match bindings.event with
  | none => h.pin bindings.residual.ref
  | some event => (h.pin bindings.residual.ref).pin event.ref

/-- The heap finds the functions and pins them. -/
theorem start_resolve_runtime (run : Runner F ω) (names : BindingNames) (w : HeapWorld F ω) :
    (Bindings.resolve (HeapWorld.runtime run) names).start w =
      match w.heap.bindings names with
      | .ok bindings => (.ok bindings, w.update fun h => h.pinAll bindings)
      | .error e => (.error (.error e), w) := by
  have hcaught : ∀ (name : String),
      (Act.caught (resolveFunction (HeapWorld.runtime run) name) :
        Act _ BridgeError _).start w = (.ok (w.heap.callable name), w) := by
    intro name
    have hfound := start_resolveFunction_runtime run name w
    unfold Act.caught Act.start at *
    simp only [hfound]
    cases w.heap.callable name <;> rfl
  unfold Bindings.resolve Heap.bindings
  rw [Act.start_bind, start_resolveFunction_runtime]
  cases w.heap.callable names.residual with
  | error e => rfl
  | ok f =>
    simp only [Outcome.ofExcept]
    cases names.event with
    | none => rfl
    | some name =>
      simp only
      rw [Act.start_bind, hcaught]
      cases w.heap.callable name with
      | ok g => rfl
      | error e => cases e <;> rfl

/-- There is a handle exactly for what is found by name. -/
theorem Heap.handle?_eq_some_iff {h : Heap F} {names : BindingNames} {bindings : Bindings Rooted}
    (hbindings : h.bindings names = .ok bindings) {entry : Entry} {handle : Rooted} :
    bindings.handle? entry = some handle ↔
      ∃ name, names.name? entry = some name ∧ h.callable name = .ok handle.ref := by
  obtain ⟨r⟩ := handle
  unfold Heap.bindings at hbindings
  obtain ⟨f, hf, hbindings⟩ := bind_eq_ok hbindings
  cases hevent : names.event with
  | none =>
    rw [hevent] at hbindings
    cases hbindings
    cases entry <;> simp [Bindings.handle?, BindingNames.name?, hevent, hf]
  | some name =>
    rw [hevent] at hbindings
    cases hg : h.callable name with
    | ok g =>
      simp only [hg] at hbindings
      cases hbindings
      cases entry <;> simp [Bindings.handle?, BindingNames.name?, hevent, hf, hg]
    | error e =>
      simp only [hg] at hbindings
      split at hbindings
      · next hok => cases hok
      · cases hbindings
        cases entry <;> simp [Bindings.handle?, BindingNames.name?, hevent, hf, hg]
      · cases hbindings

/-- Pinning what handles root changes no object. -/
theorem Heap.evolves_pinAll (h : Heap F) (bindings : Bindings Rooted) :
    h.table.Evolves HeapEntry.fixedSorts (h.pinAll bindings).table := by
  unfold pinAll
  cases bindings.event with
  | none => exact h.evolves_pin HeapEntry.fixedSorts_pins _
  | some event =>
    have hresidual := h.evolves_pin HeapEntry.fixedSorts_pins bindings.residual.ref
    exact hresidual.trans (Heap.evolves_pin HeapEntry.fixedSorts_pins _ _)

end CallbackBridge
