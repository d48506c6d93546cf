/-
# Two invocations side by side

Two invocations of the same bridge on two hosts are compared by a relation between the states of
the hosts (`HostRuntime.Coupling`).  The relation may depend on two lists of views.  Views that are
in use have been made of two buffers that are alike, or pointed at them, and are not yet retired;
where the buffers are may differ.  Views that are pending will be pointed at two buffers that are
alike before anything is called; until then it does not matter what they show.

Each step of an invocation keeps to the relation, and so do whole invocations whose arguments are
accepted (`Bridge.evaluate_alike`): they end alike, deliver the same, leave the same bridge, and
leave states that are related without any view in use.
-/
import CallbackBridge.Proofs.Coupling
import CallbackBridge.Proofs.Delivery
namespace CallbackBridge

variable {σ σ' R K ε α β : Type}

/-! ## Actions that change the relation -/

/-- Two attempts have ended alike, and the states are related as the end demands. -/
structure Ended (after : α → σ → σ' → Prop) (stopped : σ → σ' → Prop) (ended : Except ε α × σ)
    (ended' : Except ε α × σ') : Prop where
  /-- They have ended alike. -/
  same : ended.1 = ended'.1
  /-- What holds where there is a value. -/
  value : ∀ a, ended.1 = .ok a → after a ended.2 ended'.2
  /-- What holds where there is none. -/
  stop : ∀ e, ended.1 = .error e → stopped ended.2 ended'.2

namespace Ended

variable {rel stopped : σ → σ' → Prop} {after : α → σ → σ' → Prop} {ended : Except ε α × σ}
  {ended' : Except ε α × σ'}

/-- Attempts that keep to a relation. -/
theorem of_agree (h : Agree rel ended ended') (hstopped : ∀ s s', rel s s' → stopped s s') :
    Ended (fun _ => rel) stopped ended ended' :=
  ⟨h.1, fun _ _ => h.2, fun _ _ => hstopped _ _ h.2⟩

/-- What holds of all ends. -/
theorem related (h : Ended after stopped ended ended')
    (hafter : ∀ a s s', after a s s' → stopped s s') : stopped ended.2 ended'.2 := by
  cases hended : ended.1 with
  | ok a => exact hafter a _ _ (h.value a hended)
  | error e => exact h.stop e hended

end Ended

namespace Act

/-- From states that are related by `before`, the actions lead to such ends. -/
def Takes (before : σ → σ' → Prop) (after : α → σ → σ' → Prop) (stopped : σ → σ' → Prop)
    (act : Act σ ε α) (act' : Act σ' ε α) : Prop :=
  ∀ s s', before s s' → Ended after stopped (act.start s) (act'.start s')

variable {before stopped : σ → σ' → Prop} {middle : α → σ → σ' → Prop} {after : β → σ → σ' → Prop}

/-- Coupled actions keep to the relation. -/
theorem Coupled.takes {act : Act σ ε α} {act' : Act σ' ε α} (h : Coupled before act act')
    (hstopped : ∀ s s', before s s' → stopped s s') :
    Takes before (fun _ => before) stopped act act' :=
  fun s s' hrel => .of_agree (h s s' hrel) hstopped

/-- What follows an action goes on where that has ended with a value. -/
theorem Takes.bind {act : Act σ ε α} {act' : Act σ' ε α} {f : α → Act σ ε β}
    {f' : α → Act σ' ε β} (h : Takes before middle stopped act act')
    (hf : ∀ a, Takes (middle a) after stopped (f a) (f' a)) :
    Takes before after stopped (act >>= f) (act' >>= f') := by
  intro s s' hrel
  obtain ⟨heq, hvalue, hstop⟩ := h s s' hrel
  rw [start_bind, start_bind]
  rcases hact : act.start s with ⟨outcome, t⟩
  rcases hact' : act'.start s' with ⟨outcome', t'⟩
  rw [hact, hact'] at heq hvalue hstop
  cases heq
  cases outcome with
  | ok a => exact hf a t t' (hvalue a rfl)
  | error stop => exact ⟨rfl, nofun, fun _ _ => hstop stop rfl⟩

end Act

/-! ## Hosts -/

/-- Three things and three others are related one by one. -/
structure StateViews.Paired (related : α → β → Prop) (parts : StateViews α)
    (parts' : StateViews β) : Prop where
  /-- The first ones are. -/
  t : related parts.t parts'.t
  /-- The second ones are. -/
  y : related parts.y parts'.y
  /-- The third ones are. -/
  yp : related parts.yp parts'.yp

/-- A relation between the states of two hosts, given the pending views and those in use, to which
the operations of an invocation keep. -/
structure HostRuntime.Coupling (host : HostRuntime σ R K) (host' : HostRuntime σ' R K)
    (alike : Buffer → Buffer → Prop) (behind : K → R)
    (rel : List R → List R → σ → σ' → Prop) : Prop where
  /-- Both hosts can point views elsewhere, or none can. -/
  supportsReuse : host.supportsReuse = host'.supportsReuse
  /-- Names are bound to the same. -/
  resolve : ∀ pending views name,
    Alongside (rel pending views) (host.resolve name) (host'.resolve name)
  /-- The same can be called. -/
  isCallable : ∀ pending views r,
    Alongside (rel pending views) (host.isCallable r) (host'.isCallable r)
  /-- Types have the same names. -/
  typeName : ∀ pending views r, Alongside (rel pending views) (host.typeName r) (host'.typeName r)
  /-- The same handles are handed out. -/
  persist : ∀ pending views r, Alongside (rel pending views) (host.persist r) (host'.persist r)
  /-- The same is attached. -/
  attach : ∀ pending views handle,
    Alongside (rel pending views) (host.attach handle) (host'.attach handle)
  /-- Each handle always leads to the same. -/
  behind : ∀ handle s, (host.attach handle s).1 = behind handle
  /-- Calls end alike, if no view is pending. -/
  call : ∀ views f args, Alongside (rel [] views) (host.call f args) (host'.call f args)
  /-- The same is read, if no view is pending. -/
  read : ∀ views r, Alongside (rel [] views) (host.read r) (host'.read r)
  /-- The states stay related when a value is pinned. -/
  pin : ∀ {pending views s s'} r, rel pending views s s' →
    rel pending views (host.pin r s) (host'.pin r s')
  /-- The states stay related when a pin is undone. -/
  unpin : ∀ {pending views s s'} r, rel pending views s s' →
    rel pending views (host.unpin r s) (host'.unpin r s')
  /-- Views of buffers that are alike are made alike. -/
  materialize : ∀ {pending views b b' s s'}, alike b b' → rel pending views s s' →
    Ended (fun view => rel pending (views ++ [view])) (rel pending views) (host.materialize b s)
      (host'.materialize b' s')
  /-- Pending views are pointed alike at buffers that are alike. -/
  repoint : ∀ {view pending views b b' s s'}, alike b b' → rel (view :: pending) views s s' →
    Ended (fun _ => rel pending (views ++ [view])) (rel (view :: pending) views)
      (host.repoint view b s) (host'.repoint view b' s')
  /-- A view that is retired is in use no more. -/
  retire : ∀ {pending view views s s'}, rel pending (view :: views) s s' →
    rel pending views (host.retire view s) (host'.retire view s')

/-! ## Frames -/

/-- What relates the states of two hosts, given the handles that are kept and the adopted views. -/
abbrev FrameRelation (σ σ' R K : Type) : Type :=
  Option (StateViews K) → List R → σ → σ' → Prop

/-- Two frames with the same guard and handles on related states, and with room for the output. -/
structure Frame.Paired (rel : FrameRelation σ σ' R K) (len : Nat) (frame : Frame σ R K)
    (frame' : Frame σ' R K) : Prop where
  /-- The states are related. -/
  host : rel frame.reusable frame.guard.views frame.host frame'.host
  /-- The same has to be given back. -/
  guard : frame.guard = frame'.guard
  /-- The same handles are kept. -/
  reusable : frame.reusable = frame'.reusable
  /-- There is room in the first output. -/
  room : len ≤ frame.res.length
  /-- There is room in the second output. -/
  room' : len ≤ frame'.res.length

theorem Frame.Paired.mono {rel rel' : FrameRelation σ σ' R K} {len : Nat} {frame : Frame σ R K}
    {frame' : Frame σ' R K} (h : frame.Paired rel len frame')
    (hrel : ∀ kept views s s', rel kept views s s' → rel' kept views s s') :
    frame.Paired rel' len frame' :=
  ⟨hrel _ _ _ _ h.host, h.guard, h.reusable, h.room, h.room'⟩

/-- Two frames are paired, and the leading elements of their outputs are the same. -/
def Frame.Filled (rel : FrameRelation σ σ' R K) (len : Nat) (frame : Frame σ R K)
    (frame' : Frame σ' R K) : Prop :=
  frame.Paired rel len frame' ∧ frame.res.toList.take len = frame'.res.toList.take len

/-- Into outputs that have room for them, the same values are copied. -/
theorem copyOut_paired (values : List Binary64) {o o' : Output} {len : Nat}
    (hroom : len ≤ o.length) (hroom' : len ≤ o'.length) :
    (∃ e, copyOut values o len = .error e ∧ copyOut values o' len = .error e) ∨
      ∃ res res', copyOut values o len = .ok res ∧ copyOut values o' len = .ok res' ∧
        len ≤ res.length ∧ len ≤ res'.length ∧ res.toList.take len = res'.toList.take len := by
  by_cases hshort : values.length < len
  · exact Or.inl ⟨_, if_pos hshort, if_pos hshort⟩
  · have hcopies : ∀ o : Output, len ≤ o.length → ∃ res, copyOut values o len = .ok res ∧
        len ≤ res.length ∧ res.toList.take len = values.take len := by
      intro o hroom
      have hcopy : copyOut values o len = .ok (o.overwrite (values.take len)) := by
        unfold copyOut
        rw [if_neg hshort, if_neg (Nat.not_lt_of_le hroom)]
      have htake := (copied_of_copyOut hcopy).leading
      refine ⟨_, hcopy, ?_, htake⟩
      have hlength := congrArg List.length htake
      rw [List.length_take, List.length_take, Output.length_toList] at hlength
      omega
    obtain ⟨res, hcopy, hlong, htake⟩ := hcopies o hroom
    obtain ⟨res', hcopy', hlong', htake'⟩ := hcopies o' hroom'
    exact Or.inr ⟨res, res', hcopy, hcopy', hlong, hlong', htake.trans htake'.symm⟩

/-! ### Steps -/

section Steps

variable {rel before after stopped : FrameRelation σ σ' R K} {len : Nat}

theorem coupled_ofHost {step : σ → α × σ} {step' : σ' → α × σ'}
    (hstep : ∀ kept views, Alongside (rel kept views) step step') :
    (Step.ofHost step : Step σ R K α).Coupled (Frame.Paired rel len) (Step.ofHost step') := by
  refine .total fun frame frame' h => ?_
  obtain ⟨heq, hnext⟩ := hstep frame.reusable frame.guard.views _ _ h.host
  exact ⟨heq, hnext, h.guard, h.reusable, h.room, h.room'⟩

theorem coupled_tryHost {step : σ → Except HostError α × σ} {step' : σ' → Except HostError α × σ'}
    (hstep : ∀ kept views, Alongside (rel kept views) step step')
    (classify : HostError → BridgeError) :
    (Step.tryHost classify step : Step σ R K α).Coupled (Frame.Paired rel len)
      (Step.tryHost classify step') := by
  refine .checked fun frame frame' h => ?_
  obtain ⟨heq, hnext⟩ := hstep frame.reusable frame.guard.views _ _ h.host
  exact ⟨congrArg (Except.mapError classify) heq, hnext, h.guard, h.reusable, h.room, h.room'⟩

theorem coupled_onHost {act : Act σ BridgeError α} {act' : Act σ' BridgeError α}
    (hact : ∀ kept views, act.Coupled (rel kept views) act') :
    (Step.onHost act : Step σ R K α).Coupled (Frame.Paired rel len) (Step.onHost act') := by
  intro frame frame' h
  obtain ⟨heq, hnext⟩ := hact frame.reusable frame.guard.views _ _ h.host
  exact ⟨heq, hnext, h.guard, h.reusable, h.room, h.room'⟩

variable {host : HostRuntime σ R K} {host' : HostRuntime σ' R K}

theorem coupled_root (hpin : ∀ {kept views s s'} r, rel kept views s s' →
      rel kept views (host.pin r s) (host'.pin r s')) (value : R) :
    (Step.root host value : Step σ R K Unit).Coupled (Frame.Paired rel len)
      (Step.root host' value) := by
  refine .total fun frame frame' hpaired => ⟨rfl, hpin value hpaired.host, ?_,
    hpaired.reusable, hpaired.room, hpaired.room'⟩
  dsimp only
  rw [hpaired.guard]

/-- What brings a view into use is followed by its adoption, or fails. -/
theorem takes_adopting {step : σ → Except HostError α × σ} {step' : σ' → Except HostError α × σ'}
    (view : α → R)
    (hstep : ∀ {kept views s s'}, before kept views s s' →
      Ended (fun a => after kept (views ++ [view a])) (stopped kept views) (step s) (step' s'))
    (hpin : ∀ {kept views s s'} r, after kept views s s' →
      after kept views (host.pin r s) (host'.pin r s')) :
    (Step.tryHost .host step >>= fun a => Step.adopt host (view a) >>= fun _ => pure a :
        Step σ R K α).Takes (Frame.Paired before len) (fun _ => Frame.Paired after len)
      (Frame.Paired stopped len)
      (Step.tryHost .host step' >>= fun a => Step.adopt host' (view a) >>= fun _ => pure a) := by
  intro frame frame' hpaired
  obtain ⟨heq, hvalue, hstop⟩ := hstep hpaired.host
  have hstart : (Step.tryHost .host step : Step σ R K α).start frame =
      (Outcome.ofExcept ((step frame.host).1.mapError .host),
        { frame with host := (step frame.host).2 }) := rfl
  have hstart' : (Step.tryHost .host step' : Step σ' R K α).start frame' =
      (Outcome.ofExcept ((step' frame'.host).1.mapError .host),
        { frame' with host := (step' frame'.host).2 }) := rfl
  rw [Act.start_bind, Act.start_bind, hstart, hstart', ← heq]
  cases hresult : (step frame.host).1 with
  | error e =>
    exact ⟨rfl, nofun, fun _ _ =>
      ⟨hstop e hresult, hpaired.guard, hpaired.reusable, hpaired.room, hpaired.room'⟩⟩
  | ok a =>
    have hguard : RootGuard.mk (view a :: frame.guard.pinned) (frame.guard.views ++ [view a]) =
        ⟨view a :: frame'.guard.pinned, frame'.guard.views ++ [view a]⟩ := by rw [hpaired.guard]
    exact ⟨rfl, fun _ _ => ⟨hpin (view a) (hvalue a hresult), hguard, hpaired.reusable,
      hpaired.room, hpaired.room'⟩, nofun⟩

end Steps

/-! ## Invocations -/

/-- The views that are pending until they are pointed at the buffers of an invocation. -/
def ViewStrategy.pending (behind : K → R) : ViewStrategy → Option (StateViews K) → List R
  | .reuse, some handles => [behind handles.t, behind handles.y, behind handles.yp]
  | _, _ => []

namespace FrameRelation

variable (rel : List R → List R → σ → σ' → Prop)

/-- The relation until the views are obtained. -/
def waiting (behind : K → R) (strategy : ViewStrategy) : FrameRelation σ σ' R K :=
  fun kept views => rel (strategy.pending behind kept) views

/-- The relation while these views are pending. -/
def holding (pending : List R) : FrameRelation σ σ' R K := fun _ => rel pending

/-- The relation where an invocation may stop. -/
def left : FrameRelation σ σ' R K := fun _ views s s' => ∃ pending, rel pending views s s'

end FrameRelation

namespace Frame.Paired

variable {rel : List R → List R → σ → σ' → Prop} {len : Nat} {frame : Frame σ R K}
  {frame' : Frame σ' R K}

/-- An invocation may stop while its views are pending. -/
theorem left_of_waiting {behind : K → R} {strategy : ViewStrategy}
    (h : frame.Paired (FrameRelation.waiting rel behind strategy) len frame') :
    frame.Paired (FrameRelation.left rel) len frame' :=
  h.mono fun _ _ _ _ hrel => ⟨_, hrel⟩

/-- It may stop whatever is pending. -/
theorem left_of_holding {pending : List R}
    (h : frame.Paired (FrameRelation.holding rel pending) len frame') :
    frame.Paired (FrameRelation.left rel) len frame' :=
  h.mono fun _ _ _ _ hrel => ⟨pending, hrel⟩

end Frame.Paired

open FrameRelation

/-- Actions that keep to the relation may stop anywhere. -/
theorem Act.Coupled.takes_left {rel : List R → List R → σ → σ' → Prop} {len : Nat}
    {pending : List R} {act : Step σ R K α} {act' : Step σ' R K α}
    (h : act.Coupled (Frame.Paired (holding rel pending) len) act') :
    act.Takes (Frame.Paired (holding rel pending) len)
      (fun _ => Frame.Paired (holding rel pending) len) (Frame.Paired (left rel) len) act' :=
  h.takes fun _ _ hpaired => hpaired.left_of_holding

namespace HostRuntime.Coupling

variable {host : HostRuntime σ R K} {host' : HostRuntime σ' R K}
  {alike : Buffer → Buffer → Prop} {behind : K → R} {rel : List R → List R → σ → σ' → Prop}
  {len : Nat} {buffers buffers' : StateViews Buffer} {strategy : ViewStrategy}

variable (h : host.Coupling host' alike behind rel)
include h

/-! ### The function -/

theorem coupled_resolveFunction (pending views : List R) (name : String) :
    (resolveFunction host name).Coupled (rel pending views) (resolveFunction host' name) := by
  refine .bind (.total (h.resolve pending views name)) fun found => ?_
  cases found with
  | none => exact .fail _
  | some value =>
    refine .bind (.total (h.isCallable pending views value)) fun callable => ?_
    cases callable with
    | true => exact .pure value
    | false => exact .bind (.total (h.typeName pending views value)) fun found => .fail _

theorem coupled_find (symbols : Symbols K) (names : BindingNames) (entry : Entry) :
    (symbols.find host names entry).Coupled (Frame.Paired (waiting rel behind strategy) len)
      (symbols.find host' names entry) := by
  have hattach : ∀ handle name,
      (do return (← Step.ofHost (host.attach handle), name) : Step σ R K (R × String)).Coupled
        (Frame.Paired (waiting rel behind strategy) len)
        (do return (← Step.ofHost (host'.attach handle), name)) :=
    fun handle name =>
      .bind (coupled_ofHost fun _ views => h.attach _ views handle) fun _ => .pure _
  have hresolve : ∀ bound name,
      (do return (← Step.onHost (resolveFunction host bound), name) :
        Step σ R K (R × String)).Coupled (Frame.Paired (waiting rel behind strategy) len)
        (do return (← Step.onHost (resolveFunction host' bound), name)) :=
    fun bound name =>
      .bind (coupled_onHost fun _ views => h.coupled_resolveFunction _ views bound) fun _ => .pure _
  unfold Symbols.find
  cases symbols with
  | bound bindings =>
    obtain ⟨residual, event⟩ := bindings
    cases entry with
    | residual => exact hattach _ _
    | event =>
      cases event with
      | none => exact .fail _
      | some handle => exact hattach _ _
  | perCall =>
    obtain ⟨residual, event⟩ := names
    cases entry with
    | residual => exact hresolve _ _
    | event =>
      cases event with
      | none => exact .fail _
      | some name => exact hresolve _ _

theorem coupled_obtainFunction (symbols : Symbols K) (names : BindingNames) (entry : Entry) :
    (symbols.obtain host names entry).Coupled (Frame.Paired (waiting rel behind strategy) len)
      (symbols.obtain host' names entry) :=
  .bind (h.coupled_find symbols names entry) fun found =>
    .bind (coupled_root (fun r hrel => h.pin r hrel) found.1) fun _ => .pure _

/-! ### The views -/

theorem takes_materialize (hbuffers : StateViews.Paired alike buffers buffers') :
    (StateViews.materialize host buffers : Step σ R K (StateViews R)).Takes
      (Frame.Paired (holding rel []) len) (fun _ => Frame.Paired (holding rel []) len)
      (Frame.Paired (left rel) len) (StateViews.materialize host' buffers') := by
  have hone : ∀ {b b' : Buffer}, alike b b' →
      (StateViews.materializeOne host b : Step σ R K R).Takes (Frame.Paired (holding rel []) len)
        (fun _ => Frame.Paired (holding rel []) len) (Frame.Paired (left rel) len)
        (StateViews.materializeOne host' b') := by
    intro b b' hb
    refine takes_adopting id (fun hrel => ?_) fun r hrel => h.pin r hrel
    obtain ⟨hsame, hvalue, hstop⟩ := h.materialize hb hrel
    exact ⟨hsame, hvalue, fun e he => ⟨[], hstop e he⟩⟩
  refine .bind (hone hbuffers.t) fun _ => .bind (hone hbuffers.y) fun _ =>
    .bind (hone hbuffers.yp) fun _ => ?_
  exact (Act.Coupled.pure _).takes_left

theorem coupled_persist (views : StateViews R) :
    (StateViews.persist host views).Coupled (Frame.Paired (holding rel []) len)
      (StateViews.persist host' views) := by
  have hone : ∀ view, (Step.ofHost (host.persist view) : Step σ R K K).Coupled
      (Frame.Paired (holding rel []) len) (Step.ofHost (host'.persist view)) :=
    fun view => coupled_ofHost fun _ adopted => h.persist _ adopted view
  refine .bind (hone views.t) fun t => .bind (hone views.y) fun y =>
    .bind (hone views.yp) fun yp => .total fun frame frame' hpaired => ?_
  exact ⟨rfl, hpaired.host, hpaired.guard, rfl, hpaired.room, hpaired.room'⟩

/-- The views are those behind the handles. -/
theorem takes_attach (handles : StateViews K) (pending : List R) :
    (StateViews.attach host handles : Step σ R K (StateViews R)).Takes
      (Frame.Paired (holding rel pending) len)
      (fun views frame frame' => views = ⟨behind handles.t, behind handles.y, behind handles.yp⟩ ∧
        Frame.Paired (holding rel pending) len frame frame')
      (Frame.Paired (left rel) len) (StateViews.attach host' handles) := by
  have hone : ∀ handle, (Step.ofHost (host.attach handle) : Step σ R K R).Takes
      (Frame.Paired (holding rel pending) len)
      (fun view frame frame' => view = behind handle ∧
        Frame.Paired (holding rel pending) len frame frame')
      (Frame.Paired (left rel) len) (Step.ofHost (host'.attach handle)) := by
    intro handle frame frame' hpaired
    obtain ⟨hsame, hafter⟩ :=
      coupled_ofHost (fun _ adopted => h.attach pending adopted handle) frame frame' hpaired
    refine ⟨hsame, fun view hview => ⟨?_, hafter⟩, fun _ _ => hafter.left_of_holding⟩
    have hattached : (Except.ok (host.attach handle frame.host).1 : Outcome BridgeError R) =
        .ok view := hview
    cases hattached
    exact h.behind handle frame.host
  refine .bind (hone handles.t) fun t => ?_
  rintro frame frame' ⟨rfl, hpaired⟩
  refine Act.Takes.bind (hone handles.y) (fun y => ?_) frame frame' hpaired
  rintro frame frame' ⟨rfl, hpaired⟩
  refine Act.Takes.bind (hone handles.yp) (fun yp => ?_) frame frame' hpaired
  rintro frame frame' ⟨rfl, hpaired⟩
  refine ⟨rfl, ?_, nofun⟩
  rintro views ⟨⟩
  exact ⟨rfl, hpaired⟩

theorem takes_repoint (hbuffers : StateViews.Paired alike buffers buffers')
    (views : StateViews R) :
    (StateViews.repoint host views buffers : Step σ R K Unit).Takes
      (Frame.Paired (holding rel [views.t, views.y, views.yp]) len)
      (fun _ => Frame.Paired (holding rel []) len) (Frame.Paired (left rel) len)
      (StateViews.repoint host' views buffers') := by
  have hone : ∀ {b b' : Buffer} (view : R) (pending : List R), alike b b' →
      (StateViews.repointOne host view b : Step σ R K Unit).Takes
        (Frame.Paired (holding rel (view :: pending)) len)
        (fun _ => Frame.Paired (holding rel pending) len) (Frame.Paired (left rel) len)
        (StateViews.repointOne host' view b') := by
    intro b b' view pending hb
    refine takes_adopting (fun _ => view) (fun hrel => ?_) fun r hrel => h.pin r hrel
    obtain ⟨hsame, hvalue, hstop⟩ := h.repoint hb hrel
    exact ⟨hsame, hvalue, fun e he => ⟨_, hstop e he⟩⟩
  exact .bind (hone views.t _ hbuffers.t) fun _ => .bind (hone views.y _ hbuffers.y) fun _ =>
    hone views.yp [] hbuffers.yp

theorem takes_reuse (hbuffers : StateViews.Paired alike buffers buffers') :
    (StateViews.reuse host buffers : Step σ R K (StateViews R)).Takes
      (Frame.Paired (waiting rel behind .reuse) len) (fun _ => Frame.Paired (holding rel []) len)
      (Frame.Paired (left rel) len) (StateViews.reuse host' buffers') := by
  unfold StateViews.reuse
  rw [h.supportsReuse]
  split
  · intro frame frame' hpaired
    exact ⟨rfl, nofun, fun _ _ => hpaired.left_of_waiting⟩
  · have hkept : (Act.total fun frame => (frame.reusable, frame) :
        Step σ R K (Option (StateViews K))).Takes (Frame.Paired (waiting rel behind .reuse) len)
        (fun kept => Frame.Paired (holding rel (ViewStrategy.reuse.pending behind kept)) len)
        (Frame.Paired (left rel) len) (Act.total fun frame => (frame.reusable, frame)) := by
      intro frame frame' hpaired
      refine ⟨congrArg Except.ok hpaired.reusable, ?_, nofun⟩
      rintro kept ⟨⟩
      exact ⟨hpaired.host, hpaired.guard, hpaired.reusable, hpaired.room, hpaired.room'⟩
    refine .bind hkept fun kept => ?_
    cases kept with
    | none =>
      refine .bind (h.takes_materialize hbuffers) fun views => ?_
      refine .bind (h.coupled_persist views).takes_left fun _ => ?_
      exact (Act.Coupled.pure _).takes_left
    | some handles =>
      refine .bind (h.takes_attach handles _) fun views => ?_
      rintro frame frame' ⟨rfl, hpaired⟩
      refine Act.Takes.bind (h.takes_repoint hbuffers _) (fun _ => ?_) frame frame' hpaired
      exact (Act.Coupled.pure _).takes_left

theorem takes_obtainViews (hbuffers : StateViews.Paired alike buffers buffers')
    (strategy : ViewStrategy) :
    (StateViews.obtain host strategy buffers : Step σ R K (StateViews R)).Takes
      (Frame.Paired (waiting rel behind strategy) len) (fun _ => Frame.Paired (holding rel []) len)
      (Frame.Paired (left rel) len) (StateViews.obtain host' strategy buffers') := by
  cases strategy with
  | fresh => exact h.takes_materialize hbuffers
  | reuse => exact h.takes_reuse hbuffers

/-! ### The call and the result -/

theorem coupled_invoke (function : R) (name : String) (views : StateViews R) :
    (invoke host function name views : Step σ R K R).Coupled (Frame.Paired (holding rel []) len)
      (invoke host' function name views) := by
  have hcall : ∀ (kept : Option (StateViews K)) adopted,
      (Act.mapError (HostError.ofCall name) (Act.ofStep (host.call function views))).Coupled
        (rel [] adopted)
        (Act.mapError (HostError.ofCall name) (Act.ofStep (host'.call function views))) :=
    fun _ adopted => .mapError (h.call adopted function views) _
  exact .bind (coupled_onHost hcall) fun result =>
    .bind (coupled_root (fun r hrel => h.pin r hrel) result) fun _ => .pure _

/-- What is copied depends on the result alone, if there is room for it. -/
theorem takes_deliver (result : R) :
    (deliver host result len : Step σ R K Unit).Takes (Frame.Paired (holding rel []) len)
      (fun _ => Frame.Filled (holding rel []) len) (Frame.Paired (left rel) len)
      (deliver host' result len) := by
  have hread : (Step.tryHost HostError.ofResult (host.read result) :
      Step σ R K (List Binary64)).Coupled (Frame.Paired (holding rel []) len)
      (Step.tryHost HostError.ofResult (host'.read result)) :=
    coupled_tryHost (fun _ views => h.read views result) HostError.ofResult
  refine .bind hread.takes_left fun values f f' hrel => ?_
  unfold Act.checked Act.start
  dsimp only
  rcases copyOut_paired values hrel.room hrel.room' with
    ⟨e, hcopy, hcopy'⟩ | ⟨res, res', hcopy, hcopy', hroom, hroom', htake⟩
  · rw [hcopy, hcopy']
    exact ⟨rfl, nofun, fun _ _ => hrel.left_of_holding⟩
  · rw [hcopy, hcopy']
    exact ⟨rfl, fun _ _ => ⟨⟨hrel.host, hrel.guard, hrel.reusable, hroom, hroom'⟩, htake⟩, nofun⟩

/-- **The part of an invocation that runs under the guard.** -/
theorem takes_body (bridge : Bridge K) (entry : Entry) {admission admission' : Admission}
    (houtLen : admission.outLen = admission'.outLen)
    (hbuffers : StateViews.Paired alike admission.buffers admission'.buffers) :
    (bridge.body host entry admission).Takes
      (Frame.Paired (waiting rel behind bridge.config.strategy) admission.outLen)
      (fun _ => Frame.Filled (holding rel []) admission.outLen)
      (Frame.Paired (left rel) admission.outLen) (bridge.body host' entry admission') := by
  unfold Bridge.body
  rw [← houtLen]
  refine .bind ((h.coupled_obtainFunction _ _ _).takes fun _ _ hrel => hrel.left_of_waiting)
    fun found => ?_
  refine .bind (h.takes_obtainViews hbuffers _) fun views => ?_
  refine .bind (h.coupled_invoke _ _ _).takes_left fun result => ?_
  exact h.takes_deliver result

/-! ### The end -/

/-- When the guard closes, no view is in use any more. -/
theorem close (guard : RootGuard R) {pending : List R} {s : σ} {s' : σ'}
    (hrel : rel pending guard.views s s') :
    rel pending [] (guard.close host s) (guard.close host' s') := by
  have hretired : ∀ views s s', rel pending views s s' → rel pending []
      (RootGuard.retireAll host views s) (RootGuard.retireAll host' views s') := by
    intro views
    induction views with
    | nil => exact fun s s' hrel => hrel
    | cons view views ih => exact fun s s' hrel => ih _ _ (h.retire hrel)
  have hunpinned : ∀ values s s', rel pending [] s s' → rel pending []
      (RootGuard.unpinAll host values s) (RootGuard.unpinAll host' values s') := by
    intro values
    induction values with
    | nil => exact fun s s' hrel => hrel
    | cons value values ih => exact fun s s' hrel => ih _ _ (h.unpin value hrel)
  exact hunpinned guard.pinned _ _ (hretired guard.views _ _ hrel)

end HostRuntime.Coupling

/-- Two invocations have ended alike and delivered the same. -/
structure Evaluation.Alike (rel : σ → σ' → Prop) (len : Nat) (result : Evaluation σ K)
    (result' : Evaluation σ' K) : Prop where
  /-- They have ended alike. -/
  outcome : result.outcome = result'.outcome
  /-- The values that were asked for are the same, if any are delivered. -/
  output : result.outcome = .ok () → result.res.toList.take len = result'.res.toList.take len
  /-- They leave the same bridge. -/
  bridge : result.bridge = result'.bridge
  /-- They leave related states. -/
  host : rel result.host result'.host

/-- **Two invocations with accepted arguments.** -/
theorem Bridge.evaluate_alike {host : HostRuntime σ R K} {host' : HostRuntime σ' R K}
    {alike : Buffer → Buffer → Prop} {behind : K → R} {rel : List R → List R → σ → σ' → Prop}
    (h : host.Coupling host' alike behind rel) {bridge : Bridge K} {entry : Entry}
    {call call' : Invocation} {admission admission' : Admission}
    (hcheck : bridge.config.check entry call = .ok admission)
    (hcheck' : bridge.config.check entry call' = .ok admission')
    (houtLen : admission.outLen = admission'.outLen)
    (hbuffers : StateViews.Paired alike admission.buffers admission'.buffers)
    {s : σ} {s' : σ'} (hrel : rel (bridge.config.strategy.pending behind bridge.reusable) [] s s') :
    Evaluation.Alike (fun s s' => ∃ pending, rel pending [] s s') admission.outLen
      (bridge.evaluate host entry call s) (bridge.evaluate host' entry call' s') := by
  obtain ⟨n, haccepted⟩ := BridgeConfig.accepted_of_check hcheck
  obtain ⟨n', haccepted'⟩ := BridgeConfig.accepted_of_check hcheck'
  have hpaired : Frame.Paired (waiting rel behind bridge.config.strategy) admission.outLen
      (⟨s, {}, bridge.reusable, call.res⟩ : Frame σ R K) ⟨s', {}, bridge.reusable, call'.res⟩ :=
    ⟨hrel, rfl, rfl, haccepted.res_len, houtLen ▸ haccepted'.res_len⟩
  have hended := h.takes_body bridge entry houtLen hbuffers _ _ hpaired
  unfold evaluate
  simp only [hcheck, hcheck']
  generalize (body host bridge entry admission).start _ = ended at hended ⊢
  generalize (body host' bridge entry admission').start _ = ended' at hended ⊢
  obtain ⟨⟨pending, hhost⟩, hguard, hreusable, -, -⟩ :=
    hended.related fun _ _ _ hfilled => hfilled.1.left_of_holding
  refine ⟨hended.same, fun hok => (hended.value () hok).2, ?_, pending, ?_⟩
  · rw [hreusable]
  · rw [← hguard]
    exact h.close _ hhost

end CallbackBridge
