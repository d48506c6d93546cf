/-
# Traces of host operations

A traced host notes every operation with what it gave, and the states of the host before
and after it.  The bridge does not notice: an invocation on the traced host is the
invocation on the host itself (`Bridge.evaluate_traced` in `Proofs.Protocol`).

* `HostOperation.Performs` says what it takes that an operation leads from one state of a
  host to another.
* `Chain` says that the moments of a trace lead from one state to another, each from where
  the last one ended, and `Carries` says the same of operations alone, for anything that
  is known of each of them.
-/
import CallbackBridge.Bridge
import CallbackBridge.Proofs.Actions
namespace CallbackBridge

/-! ## Operations and moments -/

/-- An operation of a host, with what it gave. -/
inductive HostOperation (R K : Type) where
  /-- A name was looked up. -/
  | resolve (name : String) (found : Option R)
  /-- A value was asked whether it can be called. -/
  | isCallable (value : R) (callable : Bool)
  /-- The type of a value was asked for. -/
  | typeName (value : R) (name : String)
  /-- A view was to be made. -/
  | materialize (buffer : Buffer) (made : Except HostError R)
  /-- A view was to be pointed at a buffer. -/
  | repoint (view : R) (buffer : Buffer) (done : Except HostError Unit)
  /-- A view was detached. -/
  | retire (view : R)
  /-- A value was rooted. -/
  | pin (value : R)
  /-- A pin was undone. -/
  | unpin (value : R)
  /-- A value was rooted beyond the call. -/
  | persist (value : R) (handle : K)
  /-- A reference was taken from a handle. -/
  | attach (handle : K) (value : R)
  /-- A handle was given up. -/
  | release (handle : K)
  /-- A function was called. -/
  | call (function : R) (views : StateViews R) (outcome : Outcome HostError R)
  /-- A value was read. -/
  | read (value : R) (result : Except HostError (List Binary64))

/-- An operation together with the states of the host around it. -/
structure Moment (σ R K : Type) where
  /-- The operation. -/
  operation : HostOperation R K
  /-- The state in which it was asked for. -/
  before : σ
  /-- The state that it left. -/
  after : σ

namespace HostOperation

variable {σ R K : Type}

/-- The host, asked for the operation in the first state, gives what the operation says
and is left in the second state. -/
def Performs (host : HostRuntime σ R K) (s s' : σ) : HostOperation R K → Prop
  | resolve name found => host.resolve name s = (found, s')
  | isCallable value callable => host.isCallable value s = (callable, s')
  | typeName value name => host.typeName value s = (name, s')
  | materialize buffer made => host.materialize buffer s = (made, s')
  | repoint view buffer done => host.repoint view buffer s = (done, s')
  | retire view => host.retire view s = s'
  | pin value => host.pin value s = s'
  | unpin value => host.unpin value s = s'
  | persist value handle => host.persist value s = (handle, s')
  | attach handle value => host.attach handle s = (value, s')
  | release handle => host.release handle s = s'
  | call function views outcome => host.call function views s = (outcome, s')
  | read value result => host.read value s = (result, s')

/-- The view that the operation has just pointed at a buffer. -/
def shown? : HostOperation R K → Option R
  | materialize _ (.ok view) => some view
  | repoint view _ (.ok ()) => some view
  | _ => none

/-- The value that the operation pins. -/
def pinned? : HostOperation R K → Option R
  | pin value => some value
  | _ => none

/-- The views that operations have pointed at buffers, in order. -/
def shownViews (ops : List (HostOperation R K)) : List R := ops.filterMap shown?

/-- The values that operations have pinned, in order. -/
def pinnedValues (ops : List (HostOperation R K)) : List R := ops.filterMap pinned?

@[simp] theorem shownViews_nil : shownViews ([] : List (HostOperation R K)) = [] := rfl

@[simp] theorem pinnedValues_nil : pinnedValues ([] : List (HostOperation R K)) = [] := rfl

@[simp] theorem shownViews_cons (op : HostOperation R K) (ops : List (HostOperation R K)) :
    shownViews (op :: ops) = op.shown?.toList ++ shownViews ops := by
  unfold shownViews
  cases hop : op.shown? <;> simp [hop]

@[simp] theorem pinnedValues_cons (op : HostOperation R K) (ops : List (HostOperation R K)) :
    pinnedValues (op :: ops) = op.pinned?.toList ++ pinnedValues ops := by
  unfold pinnedValues
  cases hop : op.pinned? <;> simp [hop]

@[simp] theorem shownViews_append (ops ops' : List (HostOperation R K)) :
    shownViews (ops ++ ops') = shownViews ops ++ shownViews ops' :=
  List.filterMap_append

@[simp] theorem pinnedValues_append (ops ops' : List (HostOperation R K)) :
    pinnedValues (ops ++ ops') = pinnedValues ops ++ pinnedValues ops' :=
  List.filterMap_append

/-- A view that was made was shown. -/
theorem mem_shownViews_of_made {ops : List (HostOperation R K)} {buffer : Buffer} {view : R}
    (h : .materialize buffer (.ok view) ∈ ops) : view ∈ shownViews ops :=
  List.mem_filterMap.mpr ⟨_, h, rfl⟩

/-- An operation that points no view at a buffer adds no shown view. -/
theorem shownViews_eq_nil {ops : List (HostOperation R K)} (h : ∀ op ∈ ops, op.shown? = none) :
    shownViews ops = [] :=
  List.filterMap_eq_nil_iff.mpr h

/-- An operation that pins nothing adds no pinned value. -/
theorem pinnedValues_eq_nil {ops : List (HostOperation R K)}
    (h : ∀ op ∈ ops, op.pinned? = none) : pinnedValues ops = [] :=
  List.filterMap_eq_nil_iff.mpr h

end HostOperation

/-! ## Chains of moments -/

section Chains

variable {σ R K : Type} {host : HostRuntime σ R K} {s s' : σ}

/-- The moments lead from one state of the host to another. -/
def Chain (host : HostRuntime σ R K) (s : σ) : List (Moment σ R K) → σ → Prop
  | [], s' => s = s'
  | moment :: rest, s' =>
    moment.before = s ∧ moment.operation.Performs host s moment.after ∧
      Chain host moment.after rest s'

/-- The operations lead from one state to another, when `step` says what each of them can
lead to. -/
def Carries (step : HostOperation R K → σ → σ → Prop) (s : σ) :
    List (HostOperation R K) → σ → Prop
  | [], s' => s = s'
  | op :: rest, s' => ∃ m, step op s m ∧ Carries step m rest s'

/-- Chains follow each other. -/
theorem Chain.append {moments moments' : List (Moment σ R K)} {m : σ}
    (h : Chain host s moments m) (h' : Chain host m moments' s') :
    Chain host s (moments ++ moments') s' := by
  induction moments generalizing s with
  | nil => exact h ▸ h'
  | cons moment rest ih => exact ⟨h.1, h.2.1, ih h.2.2⟩

/-- A chain can be cut anywhere. -/
theorem Chain.split {moments moments' : List (Moment σ R K)}
    (h : Chain host s (moments ++ moments') s') :
    ∃ m, Chain host s moments m ∧ Chain host m moments' s' := by
  induction moments generalizing s with
  | nil => exact ⟨s, rfl, h⟩
  | cons moment rest ih =>
    obtain ⟨m, hfirst, hrest⟩ := ih h.2.2
    exact ⟨m, ⟨h.1, h.2.1, hfirst⟩, hrest⟩

/-- The operations of a chain lead where the chain leads, also in another view of the
states. -/
theorem Chain.carries {τ : Type} {step : HostOperation R K → τ → τ → Prop} {g : σ → τ}
    {moments : List (Moment σ R K)} (h : Chain host s moments s')
    (hstep : ∀ op s s', op.Performs host s s' → step op (g s) (g s')) :
    Carries step (g s) (moments.map Moment.operation) (g s') := by
  induction moments generalizing s with
  | nil => exact congrArg g h
  | cons moment rest ih => exact ⟨g moment.after, hstep _ _ _ h.2.1, ih h.2.2⟩

/-- The operations of a chain lead where the chain leads. -/
theorem Chain.performs {moments : List (Moment σ R K)} (h : Chain host s moments s') :
    Carries (fun op => op.Performs host) s (moments.map Moment.operation) s' :=
  h.carries (g := id) fun _ _ _ hop => hop

/-- Each moment of a chain is performed. -/
theorem Chain.performs_of_mem {moments : List (Moment σ R K)} (h : Chain host s moments s')
    {moment : Moment σ R K} (hmoment : moment ∈ moments) :
    moment.operation.Performs host moment.before moment.after := by
  obtain ⟨pre, post, rfl⟩ := List.append_of_mem hmoment
  obtain ⟨m, -, rfl, hperforms, -⟩ := h.split
  exact hperforms

/-- A chain can be cut around any of its operations. -/
theorem Chain.split_at {moments : List (Moment σ R K)} (h : Chain host s moments s')
    {before after : List (HostOperation R K)} {op : HostOperation R K}
    (hops : moments.map Moment.operation = before ++ op :: after) :
    ∃ pre moment post, moments = pre ++ moment :: post ∧
      pre.map Moment.operation = before ∧ moment.operation = op ∧
      post.map Moment.operation = after ∧ Chain host s pre moment.before ∧
      op.Performs host moment.before moment.after ∧ Chain host moment.after post s' := by
  obtain ⟨pre, later, rfl, rfl, hlater⟩ := List.map_eq_append_iff.mp hops
  obtain ⟨moment, post, rfl, rfl, rfl⟩ := List.map_eq_cons_iff.mp hlater
  obtain ⟨m, hpre, rfl, hperforms, hpost⟩ := h.split
  exact ⟨pre, moment, post, rfl, rfl, rfl, rfl, hpre, hperforms, hpost⟩

/-- Among operations for a list of values, a moment comes after those for the values before its
own. -/
theorem Chain.exists_value {α : Type} {event : α → HostOperation R K} {values : List α}
    {moments : List (Moment σ R K)} (h : Chain host s moments s')
    (hops : moments.map Moment.operation = values.map event) {moment : Moment σ R K}
    (hmoment : moment ∈ moments) : ∃ done value rest, values = done ++ value :: rest ∧
      moment.operation = event value ∧
      Carries (fun op => op.Performs host) s (done.map event) moment.before := by
  obtain ⟨pre, post, rfl⟩ := List.append_of_mem hmoment
  rw [List.map_append, List.map_cons] at hops
  obtain ⟨done, later, rfl, hdone, hlater⟩ := List.append_eq_map_iff.mp hops
  obtain ⟨value, rest, rfl, hvalue, -⟩ := List.map_eq_cons_iff.mp hlater
  obtain ⟨_, hbefore, rfl, -⟩ := h.split
  refine ⟨done, value, rest, rfl, hvalue.symm, ?_⟩
  rw [hdone]
  exact hbefore.performs

variable {step : HostOperation R K → σ → σ → Prop}

/-- Operations can be cut anywhere. -/
theorem carries_append {ops ops' : List (HostOperation R K)} :
    Carries step s (ops ++ ops') s' ↔ ∃ m, Carries step s ops m ∧ Carries step m ops' s' := by
  induction ops generalizing s with
  | nil => simp [Carries]
  | cons op rest ih =>
    simp only [List.cons_append, Carries, ih]
    constructor
    · rintro ⟨m, hop, m', hrest, hops'⟩
      exact ⟨m', ⟨m, hop, hrest⟩, hops'⟩
    · rintro ⟨m', ⟨m, hop, hrest⟩, hops'⟩
      exact ⟨m, hop, m', hrest, hops'⟩

/-- More may be known of each operation. -/
theorem Carries.mono {finer : HostOperation R K → σ → σ → Prop} {ops : List (HostOperation R K)}
    (h : Carries step s ops s') (hstep : ∀ op ∈ ops, ∀ u u', step op u u' → finer op u u') :
    Carries finer s ops s' := by
  induction ops generalizing s with
  | nil => exact h
  | cons op rest ih =>
    obtain ⟨m, hop, hrest⟩ := h
    exact ⟨m, hstep op List.mem_cons_self _ _ hop,
      ih hrest fun op' hop' => hstep op' (List.mem_cons_of_mem op hop')⟩

/-- What every operation does, operations do together. -/
theorem Carries.relates {P : σ → σ → Prop} {ops : List (HostOperation R K)}
    (h : Carries step s ops s') (hrefl : ∀ u, P u u)
    (htrans : ∀ {u v w}, P u v → P v w → P u w)
    (hstep : ∀ op ∈ ops, ∀ u u', step op u u' → P u u') : P s s' := by
  induction ops generalizing s with
  | nil => exact h ▸ hrefl s
  | cons op rest ih =>
    obtain ⟨m, hop, hrest⟩ := h
    exact htrans (hstep op List.mem_cons_self _ _ hop)
      (ih hrest fun op' hop' => hstep op' (List.mem_cons_of_mem op hop'))

/-- What each operation keeps, operations keep. -/
theorem Carries.preserves {P : List (HostOperation R K) → σ → Prop}
    {ops : List (HostOperation R K)} (h : Carries step s ops s')
    (hstep : ∀ pre op u u', op ∈ ops → P pre u → step op u u' → P (pre ++ [op]) u')
    (hstart : P [] s) : P ops s' := by
  -- the operations so far are carried along
  have hgeneral : ∀ (pre rest : List (HostOperation R K)) (u : σ), (∀ op ∈ rest, op ∈ ops) →
      P pre u → Carries step u rest s' → P (pre ++ rest) s' := by
    intro pre rest
    induction rest generalizing pre with
    | nil =>
      intro u _ hpre hcarries
      rw [List.append_nil]
      exact hcarries ▸ hpre
    | cons op rest ih =>
      rintro u hmem hpre ⟨m, hop, hrest⟩
      have hnext := hstep pre op u m (hmem op List.mem_cons_self) hpre hop
      have := ih (pre ++ [op]) m (fun op' h => hmem op' (List.mem_cons_of_mem op h)) hnext hrest
      rwa [List.append_assoc] at this
  exact hgeneral [] ops s (fun _ h => h) hstart h

end Chains

/-! ## The traced host -/

/-- A host's state with the moments so far, the earliest first. -/
structure Traced (σ R K : Type) where
  /-- The state of the host. -/
  host : σ
  /-- The moments so far. -/
  moments : List (Moment σ R K) := []

namespace Traced

variable {σ R K α : Type}

/-- Carries out an operation of the host and notes it. -/
def perform (operation : σ → α × σ) (event : α → HostOperation R K) (s : Traced σ R K) :
    α × Traced σ R K :=
  let (a, after) := operation s.host
  (a, ⟨after, s.moments ++ [⟨event a, s.host, after⟩]⟩)

/-- Carries out an operation that gives nothing and notes it. -/
def change (operation : σ → σ) (event : HostOperation R K) (s : Traced σ R K) :
    Traced σ R K :=
  ⟨operation s.host, s.moments ++ [⟨event, s.host, operation s.host⟩]⟩

/-- What a noted operation leaves behind, given what the operation does. -/
theorem perform_of_eq {operation : σ → α × σ} {event : α → HostOperation R K}
    {s : Traced σ R K} {a : α} {s' : σ} (h : operation s.host = (a, s')) :
    perform operation event s = (a, ⟨s', s.moments ++ [⟨event a, s.host, s'⟩]⟩) := by
  unfold perform
  rw [h]

end Traced

/-- The host with every operation noted. -/
def HostRuntime.traced {σ R K : Type} (host : HostRuntime σ R K) :
    HostRuntime (Traced σ R K) R K where
  supportsReuse := host.supportsReuse
  resolve name := Traced.perform (host.resolve name) (.resolve name)
  isCallable value := Traced.perform (host.isCallable value) (.isCallable value)
  typeName value := Traced.perform (host.typeName value) (.typeName value)
  materialize buffer := Traced.perform (host.materialize buffer) (.materialize buffer)
  repoint view buffer := Traced.perform (host.repoint view buffer) (.repoint view buffer)
  retire view := Traced.change (host.retire view) (.retire view)
  pin value := Traced.change (host.pin value) (.pin value)
  unpin value := Traced.change (host.unpin value) (.unpin value)
  persist value := Traced.perform (host.persist value) (.persist value)
  attach handle := Traced.perform (host.attach handle) (.attach handle)
  release handle := Traced.change (host.release handle) (.release handle)
  call function views := Traced.perform (host.call function views) (.call function views)
  read value := Traced.perform (host.read value) (.read value)

/-! ## Steps on the traced host -/

/-- The frame with another host. -/
def Frame.withHost {σ τ R K : Type} (frame : Frame σ R K) (host : τ) : Frame τ R K :=
  ⟨host, frame.guard, frame.reusable, frame.res⟩

/-- What a step works on, apart from the host. -/
abbrev Holdings (R K : Type) : Type := Frame Unit R K

/-- What a step does to its holdings and to the host: which operations it asks for, how it
ends, and what it holds afterwards. -/
abbrev Conduct (R K α : Type) : Type :=
  Holdings R K → List (HostOperation R K) → Outcome BridgeError α → Holdings R K → Prop

namespace Conduct

variable {R K α β : Type}

/-- One conduct after another, unless the first ends without a value. -/
def andThen (P : Conduct R K α) (Q : α → Conduct R K β) : Conduct R K β :=
  fun held ops outcome held' =>
    (∃ stop, outcome = .error stop ∧ P held ops (.error stop) held') ∨
      ∃ a mid ops₁ ops₂, ops = ops₁ ++ ops₂ ∧ P held ops₁ (.ok a) mid ∧
        Q a mid ops₂ outcome held'

end Conduct

/-- The step on the traced host is the plain step under observation: it differs in the
noted moments only, these lead from the state before to the state after, and they conduct
themselves as described. -/
def Observes {σ R K α : Type} (host : HostRuntime σ R K) (step : Step (Traced σ R K) R K α)
    (plain : Step σ R K α) (conduct : Conduct R K α) : Prop :=
  ∀ frame : Frame (Traced σ R K) R K, ∃ outcome frame' moments,
    step.start frame = (outcome, frame') ∧
    plain.start (frame.withHost frame.host.host) =
      (outcome, frame'.withHost frame'.host.host) ∧
    frame'.host.moments = frame.host.moments ++ moments ∧
    Chain host frame.host.host moments frame'.host.host ∧
    conduct (frame.withHost ()) (moments.map Moment.operation) outcome (frame'.withHost ())

namespace Observes

variable {σ R K α β : Type} {host : HostRuntime σ R K} {step : Step (Traced σ R K) R K α}
  {plain : Step σ R K α} {P : Conduct R K α}

/-- What is observed may be described more loosely. -/
theorem mono {Q : Conduct R K α} (h : Observes host step plain P)
    (hPQ : ∀ held ops outcome held', P held ops outcome held' → Q held ops outcome held') :
    Observes host step plain Q := by
  intro frame
  obtain ⟨outcome, frame', moments, hstep, hplain, hmoments, hchain, hP⟩ := h frame
  exact ⟨outcome, frame', moments, hstep, hplain, hmoments, hchain, hPQ _ _ _ _ hP⟩

/-- Steps that are observed can follow each other. -/
theorem bind {f : α → Step (Traced σ R K) R K β} {g : α → Step σ R K β}
    {Q : α → Conduct R K β} (h : Observes host step plain P)
    (hf : ∀ a, Observes host (f a) (g a) (Q a)) :
    Observes host (step >>= f) (plain >>= g) (P.andThen Q) := by
  intro frame
  obtain ⟨outcome, frame', moments, hstep, hplain, hmoments, hchain, hP⟩ := h frame
  rw [Act.start_bind, Act.start_bind, hstep, hplain]
  cases outcome with
  | error stop =>
    exact ⟨_, frame', moments, rfl, rfl, hmoments, hchain, Or.inl ⟨stop, rfl, hP⟩⟩
  | ok a =>
    obtain ⟨outcome, frame'', moments', hstep', hplain', hmoments', hchain', hQ⟩ := hf a frame'
    refine ⟨outcome, frame'', moments ++ moments', hstep', hplain', ?_, hchain.append hchain',
      Or.inr ⟨a, _, _, _, List.map_append, hP, hQ⟩⟩
    rw [hmoments', hmoments, List.append_assoc]

/-- A step that asks nothing of the host. -/
theorem silent (outcome : Outcome BridgeError α) (f : Holdings R K → Holdings R K)
    (hstep : ∀ frame, step.start frame =
      (outcome, (f (frame.withHost ())).withHost frame.host))
    (hplain : ∀ frame, plain.start frame =
      (outcome, (f (frame.withHost ())).withHost frame.host)) :
    Observes host step plain fun held ops out held' =>
      ops = [] ∧ out = outcome ∧ held' = f held := by
  intro frame
  exact ⟨_, _, [], hstep frame, hplain _, (List.append_nil _).symm, rfl, rfl, rfl, rfl⟩

theorem pure (a : α) : Observes host (Pure.pure a : Step (Traced σ R K) R K α) (Pure.pure a)
    fun held ops out held' => ops = [] ∧ out = .ok a ∧ held' = held :=
  silent (.ok a) id (fun _ => rfl) fun _ => rfl

theorem fail (e : BridgeError) : Observes host (Act.fail e : Step (Traced σ R K) R K α)
    (Act.fail e) fun held ops out held' => ops = [] ∧ out = .error (.error e) ∧ held' = held :=
  silent (.error (.error e)) id (fun _ => rfl) fun _ => rfl

/-- One operation that cannot fail. -/
theorem ofHost {operation : σ → α × σ} (event : α → HostOperation R K)
    (hevent : ∀ s, (event (operation s).1).Performs host s (operation s).2) :
    Observes host (Step.ofHost (Traced.perform operation event)) (Step.ofHost operation)
      fun held ops out held' => ∃ a, ops = [event a] ∧ out = .ok a ∧ held' = held := by
  intro frame
  exact ⟨_, _, [⟨_, _, _⟩], rfl, rfl, rfl, ⟨rfl, hevent _, rfl⟩, _, rfl, rfl, rfl⟩

/-- One operation that may fail. -/
theorem tryHost {operation : σ → Except HostError α × σ}
    (event : Except HostError α → HostOperation R K) (classify : HostError → BridgeError)
    (hevent : ∀ s, (event (operation s).1).Performs host s (operation s).2) :
    Observes host (Step.tryHost classify (Traced.perform operation event))
      (Step.tryHost classify operation) fun held ops out held' => ∃ result,
        ops = [event result] ∧ out = Outcome.ofExcept (result.mapError classify) ∧
          held' = held := by
  intro frame
  exact ⟨_, _, [⟨_, _, _⟩], rfl, rfl, rfl, ⟨rfl, hevent _, rfl⟩, _, rfl, rfl, rfl⟩

/-- Pinning a value until the guard closes. -/
theorem root (value : R) :
    Observes host (Step.root host.traced value) (Step.root host value)
      fun held ops out held' => ops = [.pin value] ∧ out = .ok () ∧
        held' = { held with guard.pinned := value :: held.guard.pinned } := by
  intro frame
  exact ⟨_, _, [⟨_, _, _⟩], rfl, rfl, rfl, ⟨rfl, rfl, rfl⟩, rfl, rfl, rfl⟩

/-- Pinning a view and taking charge of retiring it. -/
theorem adopt (view : R) :
    Observes host (Step.adopt host.traced view) (Step.adopt host view)
      fun held ops out held' => ops = [.pin view] ∧ out = .ok () ∧
        held' = { held with
          guard := ⟨view :: held.guard.pinned, held.guard.views ++ [view]⟩ } := by
  intro frame
  exact ⟨_, _, [⟨_, _, _⟩], rfl, rfl, rfl, ⟨rfl, rfl, rfl⟩, rfl, rfl, rfl⟩

end Observes

end CallbackBridge
