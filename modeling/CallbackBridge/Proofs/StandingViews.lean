/-
# The views that functions are given

A bridge that reuses views makes three of them once.  From the first invocation that has made
all three, each function that is called is given these three, in their order, and no other
view is asked for.  An invocation that fails before the third view is made keeps none, and one
that fails later keeps all three.  A bridge with fresh views gives references that the heap has
never handed out before.

This does not depend on user code.  That the kept views are never collected does: it takes that
nobody else undoes pins (`ViewsStay`), neither user code nor the client, and it fails with either
of them (`not_forall_views_stay`).  All of it is put together in `views_stand`.
-/
import CallbackBridge.Proofs.HeapActors
import CallbackBridge.Proofs.PinBalance
import CallbackBridge.Proofs.Resolution
namespace CallbackBridge

open HostOperation

variable {F ω : Type} {I : Interface}

/-! ## Asking for new views -/

section Grammar

variable {R K : Type}

/-- The operation asks for a new view, whether it gets one or not. -/
def HostOperation.Materializes : HostOperation R K → Prop
  | materialize _ _ => True
  | _ => False

/-- What asks for a new view asks for a view. -/
theorem HostOperation.Materializes.asksForView {op : HostOperation R K} (h : op.Materializes) :
    op.AsksForView := by
  cases op with
  | materialize _ _ => trivial
  | _ => exact h.elim

/-- Moving views asks for no new one. -/
theorem Moves.not_materializes {moves : List (R × Buffer)} {ops : List (HostOperation R K)}
    {result : Except HostError Unit} (h : Moves moves ops result) :
    ∀ op ∈ ops, ¬ op.Materializes := by
  induction h with
  | nil => simp
  | failed => simp [Materializes]
  | moved _ ih => simpa [Materializes] using ih

/-- The closing of the guard asks for no view. -/
theorem closing_not_materializes (ops : List (HostOperation R K)) :
    ∀ op ∈ closing ops, ¬ op.Materializes := by
  simp [closing, Materializes, or_imp, forall_and]

/-- Calling and delivering asks for no view. -/
theorem Answering.not_materializes {f : R} {name : String} {views : StateViews R} {outLen : Nat}
    {res res' : Output} {ops : List (HostOperation R K)} {outcome : Outcome BridgeError Unit}
    (h : Answering f name views outLen res ops outcome res') : ∀ op ∈ ops, ¬ op.Materializes := by
  rcases h.disciplined with ⟨stop, rfl⟩ | ⟨value, result, rfl⟩ <;> simp [Materializes]

/-- With views that are kept no new one is asked for, and they go on being kept. -/
theorem Viewing.of_kept {supportsReuse : Bool} {buffers : StateViews Buffer}
    {handles : StateViews K} {kept : Option (StateViews K)} {ops : List (HostOperation R K)}
    {result : Except HostError (StateViews R)}
    (h : Viewing supportsReuse buffers .reuse (some handles) ops result kept) :
    kept = some handles ∧ ∀ op ∈ ops, ¬ op.Materializes := by
  cases h with
  | unmade _ hnew => cases hnew rfl
  | unsupported _ => exact ⟨rfl, by simp⟩
  | later _ hmoves =>
    refine ⟨rfl, List.forall_mem_append.mpr ⟨?_, hmoves.not_materializes⟩⟩
    simp [Materializes]

/-- The same of a whole opening. -/
theorem Opening.of_kept {supportsReuse : Bool} {bridge : Bridge K} {entry : Entry}
    {admission : Admission} {res res' : Output} {ops : List (HostOperation R K)}
    {outcome : Outcome BridgeError Unit} {handles : StateViews K} {kept : Option (StateViews K)}
    (h : Opening supportsReuse bridge entry admission res ops outcome kept res')
    (hstrategy : bridge.config.strategy = .reuse) (hkept : bridge.reusable = some handles) :
    kept = some handles ∧ ∀ op ∈ ops, ¬ op.Materializes := by
  have hlooks : ∀ {looking : List (HostOperation R K)} {found : Except BridgeError R},
      Lookup bridge.config.names entry bridge.symbols looking found →
      ∀ op ∈ looking, ¬ op.Materializes := fun hlookup op hop hnew =>
    (hlookup.looks op hop).excludes.2.2.2.1 hnew.asksForView
  cases h with
  | unfound hlookup => exact ⟨hkept, hlooks hlookup⟩
  | unseen hlookup hviewing =>
    rw [hstrategy, hkept] at hviewing
    obtain ⟨hsame, hviews⟩ := hviewing.of_kept
    exact ⟨hsame, List.forall_mem_append.mpr
      ⟨hlooks hlookup, List.forall_mem_cons.mpr ⟨id, hviews⟩⟩⟩
  | asked hlookup hviewing hanswering =>
    rw [hstrategy, hkept] at hviewing
    obtain ⟨hsame, hviews⟩ := hviewing.of_kept
    exact ⟨hsame, List.forall_mem_append.mpr ⟨hlooks hlookup, List.forall_mem_cons.mpr
      ⟨id, List.forall_mem_append.mpr ⟨hviews, hanswering.not_materializes⟩⟩⟩⟩

/-- **With views that are kept an invocation asks for no new one**, on any host and on every
way out, and they go on being kept. -/
theorem Bridge.evaluate_of_kept {σ : Type} (host : HostRuntime σ R K) (bridge : Bridge K)
    (entry : Entry) (call : Invocation) (s : σ) {handles : StateViews K}
    (hstrategy : bridge.config.strategy = .reuse) (hkept : bridge.reusable = some handles) :
    (bridge.evaluate host entry call s).bridge.reusable = some handles ∧
      ∀ op ∈ bridge.operations host entry call s, ¬ op.Materializes := by
  have hconducted := bridge.evaluate_traced host entry call s
  cases hcheck : bridge.config.check entry call with
  | error e =>
    rw [hconducted.rejected e hcheck, evaluate_of_rejected hcheck]
    exact ⟨hkept, by simp⟩
  | ok admission =>
    obtain ⟨opening, hopening, hops⟩ := hconducted.admitted admission hcheck
    obtain ⟨hsame, hviews⟩ := hopening.of_kept hstrategy hkept
    rw [hops]
    exact ⟨hsame, List.forall_mem_append.mpr ⟨hviews, closing_not_materializes opening⟩⟩

end Grammar

/-- What asks for no new view makes none. -/
theorem madeViews_eq_nil_of_not_materializes {ops : List (HostOperation ObjRef Rooted)}
    (h : ∀ op ∈ ops, ¬ op.Materializes) : madeViews ops = [] := by
  refine List.filterMap_eq_nil_iff.mpr fun op hop => ?_
  have hnot := h op hop
  cases op with
  | materialize buffer made => exact (hnot trivial).elim
  | _ => rfl

/-- Of one invocation the views are kept if there are three. -/
theorem reusableViews_singleton (ops : List (HostOperation ObjRef Rooted)) :
    reusableViews .reuse [ops] =
      if (madeViews ops).length = 3 then some (madeViews ops) else none := by
  unfold reusableViews
  by_cases hthree : (madeViews ops).length = 3 <;> simp [hthree]

/-! ## The views that are obtained -/

section Obtaining

variable {code : UserCode F I} {stack : List (Surroundings I ω)} {w w' : HeapWorld F ω}
  {ops : List (HostOperation ObjRef Rooted)} {supportsReuse : Bool}
  {buffers : StateViews Buffer} {strategy : ViewStrategy} {kept kept' : Option (StateViews Rooted)}
  {views : StateViews ObjRef}

/-- Views that are obtained are those that were made, unless there are views to be reused. -/
theorem Viewing.eq_madeViews
    (h : Viewing supportsReuse buffers strategy kept ops (.ok views) kept')
    (hnew : strategy = .fresh ∨ kept = none) : views.toList = madeViews ops := by
  have hmade : ∀ {making : List (HostOperation ObjRef Rooted)},
      Makes buffers.toList making (.ok views.toList) → views.toList = madeViews making := by
    intro making hmakes
    rcases hmakes.madeViews_cases with ⟨hok, -⟩ | ⟨⟨e, herror⟩, -⟩
    · exact Except.ok.inj hok
    · cases herror
  generalize hresult : Except.ok views = result at h
  cases h with
  | unmade _ _ => cases hresult
  | fresh hmakes =>
    cases hresult
    exact hmade hmakes
  | unsupported _ => cases hresult
  | first _ hmakes =>
    cases hresult
    rw [madeViews_append, hmade hmakes]
    exact (List.append_nil _).symm
  | later _ _ => rcases hnew with hfresh | hnone <;> contradiction

/-- Views that are reused are those that the handles root, in their order. -/
theorem Viewing.eq_keptRefs {handles : StateViews Rooted}
    (h : Viewing supportsReuse buffers .reuse (some handles) ops (.ok views) kept')
    (hrun : HeapRun code stack w ops w') : views.toList = keptRefs (some handles) := by
  generalize hresult : Except.ok views = result at h
  cases h with
  | unmade _ _ => cases hresult
  | unsupported _ => cases hresult
  | @later _ moved _ result _ _ =>
    cases result with
    | error e => cases hresult
    | ok _ =>
      cases hresult
      obtain ⟨m, htaking, -⟩ := carries_append.mp hrun
      exact (attach_eq htaking).2

/-- Fresh views have references of their own that were never handed out before. -/
theorem Viewing.new_of_fresh
    (h : Viewing supportsReuse buffers .fresh kept ops (.ok views) kept')
    (hs : w.heap.table.Sound) (hrun : HeapRun code stack w ops w')
    (room : w'.heap.table.Addressable) :
    views.toList.Nodup ∧ ∀ r ∈ views.toList, ¬ w.heap.table.Issued r := by
  have hnothing : w.heap.Holds [] := ⟨hs, by simp⟩
  generalize hresult : Except.ok views = result at h
  cases h with
  | unmade _ _ => cases hresult
  | fresh hmakes =>
    cases hresult
    exact (hmakes.shows hnothing hrun room rfl).2

end Obtaining

/-! ## Invocations of a session -/

/-- An invocation of the bridge of a session, on a host that is backed by the heap. -/
structure Entrance (code : UserCode F I) (session : Session (HeapWorld F ω) Rooted) where
  /-- The states of the host. -/
  State : Type
  /-- The host. -/
  host : HostRuntime State ObjRef Rooted
  /-- The world below the host. -/
  world : State → HeapWorld F ω
  /-- The host when the bridge is entered. -/
  state : State
  /-- What the solver passes. -/
  windows : Windows
  /-- The arguments in solver memory. -/
  call : Invocation
  /-- The entry point. -/
  entry : Entry
  /-- The levels of the machine. -/
  stack : List (Surroundings I ω)
  /-- The host is backed by the heap. -/
  backed : HeapBacked (Runner.ofStack code stack) host world
  /-- The bridge is entered in the world of the session. -/
  exposed : session.host.expose windows = (call, world state)

namespace Entrance

variable {code : UserCode F I} {session : Session (HeapWorld F ω) Rooted}

/-- The residual is asked for on the heap itself, by a machine with one level. -/
def plain (surroundings : Surroundings I ω) (windows : Windows) : Entrance code session where
  State := HeapWorld F ω
  host := HeapWorld.runtime (Runner.ofStack code [surroundings])
  world := id
  state := (session.host.expose windows).2
  windows := windows
  call := (session.host.expose windows).1
  entry := .residual
  stack := [surroundings]
  backed := heapBacked_runtime _
  exposed := rfl

/-- How the invocation ends. -/
def evaluation (e : Entrance code session) : Evaluation e.State Rooted :=
  session.bridge.evaluate e.host e.entry e.call e.state

/-- The moments of the invocation. -/
def moments (e : Entrance code session) : List (Moment e.State ObjRef Rooted) :=
  session.bridge.trace e.host e.entry e.call e.state

/-- What the bridge asks of the host. -/
def operations (e : Entrance code session) : List (HostOperation ObjRef Rooted) :=
  session.bridge.operations e.host e.entry e.call e.state

/-- The session after the invocation. -/
def after (e : Entrance code session) : Session (HeapWorld F ω) Rooted :=
  ⟨(e.world e.evaluation.host).withdraw e.call, e.evaluation.bridge⟩

/-- The worlds around the operations of the invocation, and those inside the body of the
function that is called. -/
inductive Passes (e : Entrance code session) : HeapWorld F ω → Prop where
  /-- Before one of the operations. -/
  | before {moment : Moment e.State ObjRef Rooted} (hmem : moment ∈ e.moments) :
      Passes e (e.world moment.before)
  /-- After one of the operations. -/
  | after {moment : Moment e.State ObjRef Rooted} (hmem : moment ∈ e.moments) :
      Passes e (e.world moment.after)
  /-- Inside the body of the function. -/
  | inside {moment : Moment e.State ObjRef Rooted} {f : ObjRef} {views : StateViews ObjRef}
      {outcome : Outcome HostError ObjRef} {function : NativeFunction F} {v : HeapWorld F ω}
      (hmem : moment ∈ e.moments) (hcall : moment.operation = .call f views outcome)
      (hf : (e.world moment.before).heap.function f = .ok function)
      (hvisits : Visits code e.stack (code function.code views)
        ((e.world moment.before).update Heap.openScope) v) : Passes e v

/-- The bridge is entered with the heap of the session. -/
theorem heap_eq (e : Entrance code session) : (e.world e.state).heap = session.host.heap := by
  rw [(HeapWorld.exposed_of_expose e.exposed).1]

/-- The moments lead through the invocation. -/
theorem chain (e : Entrance code session) : Chain e.host e.state e.moments e.evaluation.host :=
  (session.bridge.evaluate_traced e.host e.entry e.call e.state).chain

/-- Nothing comes back to life in the invocation. -/
theorem forward (e : Entrance code session) :
    (e.world e.state).Forward (e.world e.evaluation.host) :=
  (e.chain.carries e.backed).forward

/-- A session goes on by the invocation. -/
theorem continues {allowed : HeapCommand F I → Prop} {begun : Session (HeapWorld F ω) Rooted}
    {history : History} (e : Entrance code session)
    (h : Continues code allowed begun history session) :
    Continues code allowed begun (history.after e.call e.operations) e.after :=
  .enters h e.backed e.exposed

/-- **Where the function is called, the views have been obtained**, and these are all the views
that are made. -/
theorem exists_viewing (e : Entrance code session) {pre post : List (Moment e.State ObjRef Rooted)}
    {moment : Moment e.State ObjRef Rooted} {f : ObjRef} {views : StateViews ObjRef}
    {outcome : Outcome HostError ObjRef} (htrace : e.moments = pre ++ moment :: post)
    (hcall : moment.operation = .call f views outcome) :
    ∃ looking viewing buffers,
      Lookup session.bridge.config.names e.entry session.bridge.symbols looking (.ok f) ∧
      Viewing e.host.supportsReuse buffers session.bridge.config.strategy session.bridge.reusable
        viewing (.ok views) e.after.bridge.reusable ∧
      HeapRun code e.stack (e.world e.state) (looking ++ .pin f :: viewing)
        (e.world moment.before) ∧
      madeViews e.operations = madeViews viewing := by
  have hconducted := session.bridge.evaluate_traced e.host e.entry e.call e.state
  have hoperations : e.operations = pre.map Moment.operation ++
      .call f views outcome :: post.map Moment.operation := by
    show e.moments.map Moment.operation = _
    rw [htrace, List.map_append, List.map_cons, hcall]
  cases hcheck : session.bridge.config.check e.entry e.call with
  | error error =>
    have hnone : e.operations = [] := hconducted.rejected error hcheck
    rw [hnone] at hoperations
    simp at hoperations
  | ok admission =>
    obtain ⟨opening, hopening, hops⟩ := hconducted.admitted admission hcheck
    have hsame : e.operations = opening ++ closing opening := hops
    obtain ⟨looking, viewing, rest, hpre, hpost, hlookup, hviewing, hanswering⟩ :=
      hopening.exists_call (hsame.symm.trans hoperations)
    refine ⟨looking, viewing, admission.buffers, hlookup, hviewing, ?_, ?_⟩
    · have hchain := e.chain
      rw [htrace] at hchain
      obtain ⟨u, hbefore, rfl, -⟩ := hchain.split
      have hrun := hbefore.carries e.backed
      rw [hpre] at hrun
      exact hrun
    · have hlater : madeViews (.call f views outcome :: rest) = [] := hanswering.madeViews_eq
      have hmade : madeViews (.call f views outcome :: (rest ++ closing opening)) = [] := by
        rw [← List.cons_append, madeViews_append, hlater, madeViews_closing, List.append_nil]
      rw [hoperations, hpre, hpost, madeViews_append, madeViews_append, hlookup.madeViews_eq,
        hmade, List.append_nil]
      rfl

/-- A function that is called is called in one of the moments. -/
theorem exists_moment (e : Entrance code session) {op : HostOperation ObjRef Rooted}
    (hop : op ∈ e.operations) :
    ∃ pre moment post, e.moments = pre ++ moment :: post ∧ moment.operation = op := by
  obtain ⟨moment, hmem, hmoment⟩ := List.mem_map.mp hop
  obtain ⟨pre, post, htrace⟩ := List.append_of_mem hmem
  exact ⟨pre, moment, post, htrace, hmoment⟩

/-! ## The views of an invocation -/

/-- The invocation of a bridge that is to reuse views and keeps none yet. -/
structure KeepsFirst (e : Entrance code session) : Prop where
  /-- It keeps the views that it has made if these are all three, and none otherwise. -/
  kept : handledViews e.after.bridge.reusable =
    if (madeViews e.operations).length = 3 then some (madeViews e.operations) else none
  /-- The function is given the views that were made, and they are kept however it ends. -/
  passed : ∀ {f views outcome}, .call f views outcome ∈ e.operations →
    views.toList = madeViews e.operations ∧ keptRefs e.after.bridge.reusable = views.toList

/-- The invocation of a bridge that reuses the views of the handles. -/
structure Reuses (e : Entrance code session) (handles : StateViews Rooted) : Prop where
  /-- No new view is asked for. -/
  unmade : ∀ op ∈ e.operations, ¬ op.Materializes
  /-- The handles are kept. -/
  kept : e.after.bridge.reusable = some handles
  /-- The function is given the views of the handles, in their order. -/
  passed : ∀ {f views outcome}, .call f views outcome ∈ e.operations →
    views.toList = keptRefs (some handles)

/-- The invocation of a bridge with fresh views. -/
structure Renews (e : Entrance code session) : Prop where
  /-- The function is given the views that were made. -/
  passed : ∀ {f views outcome}, .call f views outcome ∈ e.operations →
    views.toList = madeViews e.operations
  /-- They are three different ones. -/
  distinct : ∀ {f views outcome}, .call f views outcome ∈ e.operations → views.toList.Nodup
  /-- The heap has never handed out their references before. -/
  unissued : ∀ {f views outcome}, .call f views outcome ∈ e.operations → ∀ r ∈ views.toList,
    ¬ session.host.heap.table.Issued r
  /-- However the heap has come about, no allocation in its log has given one of them. -/
  unseen : ∀ {f views outcome}, .call f views outcome ∈ e.operations → ∀ r ∈ views.toList,
    ∀ {config : HeapConfig} {log : List (HeapEvent F)},
      (Heap.ofConfig config).Runs log session.host.heap → ∀ made, .alloc made r ∉ log

/-- **The first views are kept as soon as there are all three**, whatever comes after. -/
theorem keepsFirst (e : Entrance code session) (hs : session.host.heap.table.Sound)
    (hstrategy : session.bridge.config.strategy = .reuse) (hnone : session.bridge.reusable = none)
    (room : e.after.host.heap.table.Addressable) : e.KeepsFirst := by
  have hsound : (e.world e.state).heap.table.Sound := e.heap_eq ▸ hs
  have hdistinct : (keptRefs session.bridge.reusable).Nodup := by
    rw [hnone]
    exact .nil
  have hkept : handledViews e.after.bridge.reusable =
      if (madeViews e.operations).length = 3 then some (madeViews e.operations) else none := by
    have hviews := (session.bridge.handledViews_evaluate e.backed e.entry e.call e.state hsound
      hdistinct room).1
    rw [hnone, hstrategy] at hviews
    exact hviews.trans (reusableViews_singleton e.operations)
  refine ⟨hkept, fun {f views outcome} hop => ?_⟩
  obtain ⟨pre, moment, post, htrace, hcall⟩ := e.exists_moment hop
  obtain ⟨looking, viewing, buffers, -, hviewing, -, hmade⟩ := e.exists_viewing htrace hcall
  have hpassed := (hviewing.eq_madeViews (Or.inr hnone)).trans hmade.symm
  refine ⟨hpassed, ?_⟩
  have hthree : views.toList.length = 3 := rfl
  rw [keptRefs_eq, hkept, ← hpassed, if_pos hthree]
  rfl

/-- **Kept views are given to each function that is called**, and no other view is asked
for. -/
theorem reuses (e : Entrance code session) {handles : StateViews Rooted}
    (hstrategy : session.bridge.config.strategy = .reuse)
    (hkept : session.bridge.reusable = some handles) : e.Reuses handles := by
  obtain ⟨hsame, hnone⟩ :=
    session.bridge.evaluate_of_kept e.host e.entry e.call e.state hstrategy hkept
  refine ⟨hnone, hsame, fun hop => ?_⟩
  obtain ⟨pre, moment, post, htrace, hcall⟩ := e.exists_moment hop
  obtain ⟨looking, viewing, buffers, -, hviewing, hrun, -⟩ := e.exists_viewing htrace hcall
  rw [hstrategy, hkept] at hviewing
  obtain ⟨m, -, m', -, hviews⟩ := carries_append.mp hrun
  exact hviewing.eq_keptRefs hviews

/-- **Fresh views have references that are new.** -/
theorem renews (e : Entrance code session) (hs : session.host.heap.table.Sound)
    (hstrategy : session.bridge.config.strategy = .fresh)
    (room : e.after.host.heap.table.Addressable) : e.Renews := by
  have hforward := e.forward
  have hviewing : ∀ {f views outcome}, .call f views outcome ∈ e.operations →
      views.toList = madeViews e.operations ∧ views.toList.Nodup ∧
        ∀ r ∈ views.toList, ¬ session.host.heap.table.Issued r := by
    intro f views outcome hop
    obtain ⟨pre, moment, post, htrace, hcall⟩ := e.exists_moment hop
    obtain ⟨looking, viewing, buffers, -, hviewing, hrun, hmade⟩ := e.exists_viewing htrace hcall
    have hlater : (e.world moment.before).Forward (e.world e.evaluation.host) := by
      have hchain := e.chain
      rw [htrace] at hchain
      obtain ⟨u, -, hrest⟩ := hchain.split
      obtain ⟨rfl, -, -⟩ := id hrest
      exact (hrest.carries e.backed).forward
    have room' := hlater.1.addressable room
    obtain ⟨m, hlooking, m', hpin, hviews⟩ := carries_append.mp hrun
    have hbefore := hlooking.forward.trans hpin.forward
    have room'' := hviews.forward.1.addressable room'
    have hsound : (e.world e.state).heap.table.Sound := e.heap_eq ▸ hs
    refine ⟨(hviewing.eq_madeViews (Or.inl hstrategy)).trans hmade.symm, ?_⟩
    rw [hstrategy] at hviewing
    obtain ⟨hnodup, hnew⟩ := hviewing.new_of_fresh (hbefore.1.sound room'' hsound) hviews room'
    refine ⟨hnodup, fun r hr hissued => hnew r hr ?_⟩
    exact hbefore.1.issued room'' hsound (e.heap_eq ▸ hissued)
  refine ⟨fun hop => (hviewing hop).1, fun hop => (hviewing hop).2.1,
    fun hop => (hviewing hop).2.2, fun hop r hr config log hruns made hmem => ?_⟩
  -- the table has handed out all that allocations have given
  have hheap : session.host.heap.table.Addressable := by
    rw [← e.heap_eq]
    exact hforward.1.addressable room
  have hrealizes := (Heap.Realizes.ofConfig config).replay hruns hheap
  exact (hviewing hop).2.2 r hr
    (hrealizes.issued r (IdealHeap.mem_handed_replay log |>.mpr (Or.inr ⟨made, hmem⟩)))

/-! ## Views that stay -/

/-- **What is kept after an invocation is held wherever the function is called.** -/
theorem holds_of_moment (e : Entrance code session)
    (hsecured : session.bridge.Secured session.host.heap)
    {moment : Moment e.State ObjRef Rooted} {f : ObjRef} {views : StateViews ObjRef}
    {outcome : Outcome HostError ObjRef} (hmem : moment ∈ e.moments)
    (hcall : moment.operation = .call f views outcome)
    (room : (e.world moment.before).heap.table.Addressable) :
    (e.world moment.before).heap.Holds (keptRefs e.after.bridge.reusable) := by
  have hbridge : session.bridge.Secured (e.world e.state).heap := e.heap_eq ▸ hsecured
  obtain ⟨pre, post, htrace⟩ := List.append_of_mem hmem
  obtain ⟨looking, viewing, buffers, hlookup, hviewing, hrun, -⟩ := e.exists_viewing htrace hcall
  obtain ⟨-, -, -, hholds⟩ := holds_of_viewing hbridge hlookup hviewing hrun room
  refine hholds.of_count_le fun r => ?_
  rw [List.count_append]
  exact Nat.le_add_right _ _

/-- What was kept before an invocation is kept after it. -/
theorem mem_kept_after (e : Entrance code session)
    (hsecured : session.bridge.Secured session.host.heap)
    (room : e.after.host.heap.table.Addressable) {r : ObjRef}
    (hr : r ∈ keptRefs session.bridge.reusable) : r ∈ keptRefs e.after.bridge.reusable := by
  have hsound : (e.world e.state).heap.table.Sound := e.heap_eq ▸ hsecured.holds.sound
  have hviews : handledViews e.after.bridge.reusable = _ :=
    (session.bridge.handledViews_evaluate e.backed e.entry e.call e.state hsound hsecured.distinct
      room).1
  rw [keptRefs_eq] at hr ⊢
  cases hkept : handledViews session.bridge.reusable with
  | none => simp [hkept] at hr
  | some views =>
    rw [hviews, hkept, Option.some_or]
    rwa [hkept] at hr

/-- **What is kept after an invocation is there all through it**, from where it was made. -/
theorem isLive_of_passes (e : Entrance code session)
    (hcode : ∀ f args, (code f args).All HeapCommand.KeepsPins)
    (hsecured : session.bridge.Secured session.host.heap) {v : HeapWorld F ω} (hpasses : e.Passes v)
    (room : v.heap.table.Addressable) (room' : e.after.host.heap.table.Addressable) {r : ObjRef}
    (hkept : r ∈ keptRefs e.after.bridge.reusable) (hissued : v.heap.table.Issued r) :
    v.heap.isLive r := by
  have hbridge : session.bridge.Secured (e.world e.state).heap := e.heap_eq ▸ hsecured
  have hended := (hbridge.evaluate_backed hcode e.backed room').holds.isLive
    (List.mem_append_left _ hkept)
  -- what is there in the end was there ever since it was handed out
  have hbetween : ∀ {pre post : List (Moment e.State ObjRef Rooted)} {s : e.State},
      Chain e.host e.state pre s → Chain e.host s post e.evaluation.host →
      (e.world s).heap.table.Issued r → (e.world s).heap.isLive r := by
    intro pre post s hbefore hafter hissued
    have hlater := (hafter.carries e.backed).forward
    have hsound := (hbefore.carries e.backed).forward.1.sound (hlater.1.addressable room')
      hbridge.holds.sound
    exact Heap.isLive_of_evolves hlater.1 room' hsound hissued hended
  cases hpasses with
  | before hmem =>
    obtain ⟨pre, post, htrace⟩ := List.append_of_mem hmem
    have hchain := e.chain
    rw [htrace] at hchain
    obtain ⟨s, hbefore, hafter⟩ := hchain.split
    obtain ⟨rfl, -, -⟩ := id hafter
    exact hbetween hbefore hafter hissued
  | @after moment hmem =>
    obtain ⟨pre, post, htrace⟩ := List.append_of_mem hmem
    have hchain := e.chain
    rw [htrace, ← List.singleton_append, ← List.append_assoc] at hchain
    obtain ⟨s, hbefore, hafter⟩ := hchain.split
    obtain ⟨m, -, -, -, rfl⟩ := hbefore.split
    exact hbetween hbefore hafter hissued
  | inside hmem hcall hf hvisits =>
    have hbody := hvisits.keepsHeld hcode (hcode _ _)
    have hholds := e.holds_of_moment hsecured hmem hcall (hbody.evolves.addressable room)
    exact (hbody.holds room (hholds.of_table_eq rfl)).isLive hkept

/-- What was handed out before an invocation was handed out at each point of it. -/
theorem issued_of_passes (e : Entrance code session) (hs : session.host.heap.table.Sound)
    {v : HeapWorld F ω} (hpasses : e.Passes v) (room : v.heap.table.Addressable) {r : ObjRef}
    (hissued : session.host.heap.table.Issued r) : v.heap.table.Issued r := by
  have hto : (e.world e.state).Forward v := by
    have hmoment : ∀ {moment}, moment ∈ e.moments →
        (e.world e.state).Forward (e.world moment.before) ∧
          (e.world moment.before).Forward (e.world moment.after) := by
      intro moment hmem
      obtain ⟨pre, post, htrace⟩ := List.append_of_mem hmem
      have hchain := e.chain
      rw [htrace] at hchain
      obtain ⟨s, hbefore, rfl, hperforms, -⟩ := hchain.split
      exact ⟨(hbefore.carries e.backed).forward, (e.backed _ _ _ hperforms).forward⟩
    cases hpasses with
    | before hmem => exact (hmoment hmem).1
    | after hmem => exact (hmoment hmem).1.trans (hmoment hmem).2
    | inside hmem hcall hf hvisits =>
      have hbody := (runClosed_forward (I := I)).visits (P := HeapWorld.Forward)
        (fun f args => (code f args).all_true) .refl .trans id hvisits (code _ _).all_true
      exact (hmoment hmem).1.trans hbody
  rw [← e.heap_eq] at hs hissued
  exact hto.1.issued room hs hissued

end Entrance

/-- The kept views of a session are there: now, while programs of the client run, and at every
point of the next invocation, which may be the one that makes them. -/
structure ViewsStay (code : UserCode F I) (allowed : HeapCommand F I → Prop)
    (session : Session (HeapWorld F ω) Rooted) : Prop where
  /-- They are there now. -/
  now : ∀ r ∈ keptRefs session.bridge.reusable, session.host.heap.isLive r
  /-- They are there at every point of a program of the client. -/
  client : ∀ {α : Type} {surroundings : Surroundings I ω} {stack : List (Surroundings I ω)}
    {program : HeapProgram F I α} {v}, program.All allowed →
    Visits code (surroundings :: stack) program session.host v → v.heap.table.Addressable →
    ∀ r ∈ keptRefs session.bridge.reusable, v.heap.isLive r
  /-- They are there at every point of an invocation. -/
  during : ∀ (e : Entrance code session) {v}, e.Passes v → v.heap.table.Addressable →
    e.after.host.heap.table.Addressable → ∀ r ∈ keptRefs session.bridge.reusable, v.heap.isLive r
  /-- Those that the invocation keeps are there at every point after they were made. -/
  made : ∀ (e : Entrance code session) {v}, e.Passes v → v.heap.table.Addressable →
    e.after.host.heap.table.Addressable → ∀ r ∈ keptRefs e.after.bridge.reusable,
    v.heap.table.Issued r → v.heap.isLive r

/-- What is said of the views of a bridge in a session that has been reached. -/
structure ViewsStand (code : UserCode F I) (allowed : HeapCommand F I → Prop)
    (session : Session (HeapWorld F ω) Rooted) : Prop where
  /-- Under reuse, an invocation that finds no views keeps those that it makes if these are all
  three. -/
  first : session.bridge.config.strategy = .reuse → session.bridge.reusable = none →
    ∀ e : Entrance code session, e.after.host.heap.table.Addressable → e.KeepsFirst
  /-- From then on no view is made, and functions are given the kept ones, in every session that
  follows. -/
  later : session.bridge.config.strategy = .reuse →
    ∀ handles, session.bridge.reusable = some handles →
    ∀ {history later}, Continues code allowed session history later →
      history.made = [] ∧ later.bridge.reusable = some handles ∧
        ∀ e : Entrance code later, e.Reuses handles
  /-- As long as nobody else undoes pins, the kept views are there all the time. -/
  stay : (∀ f args, (code f args).All HeapCommand.KeepsPins) →
    (∀ command, allowed command → command.KeepsPins) → session.host.heap.table.Addressable →
    ViewsStay code allowed session
  /-- All that the heap has handed out is in a log. -/
  logged : ∃ config log, (Heap.ofConfig config).Runs log session.host.heap
  /-- Fresh views are new. -/
  fresh : session.bridge.config.strategy = .fresh → ∀ e : Entrance code session,
    e.after.host.heap.table.Addressable → e.Renews

/-- The heap of a session that has been reached is sound. -/
theorem Reaches.sound {code : UserCode F I} {allowed : HeapCommand F I → Prop} {history : History}
    {session : Session (HeapWorld F ω) Rooted} (h : Reaches code allowed history session)
    (room : session.host.heap.table.Addressable) : session.host.heap.table.Sound := by
  obtain ⟨hbuilt, hbegins, hcontinues⟩ := h
  have hevolves := hbegins.begun.evolves.trans hcontinues.evolves
  exact hevolves.sound room (hbuilt.sound (hevolves.addressable room))

/-- In a session that goes on with kept views, nothing is made and the same are kept. -/
theorem Continues.standing {code : UserCode F I} {allowed : HeapCommand F I → Prop}
    {history : History} {session later : Session (HeapWorld F ω) Rooted}
    {handles : StateViews Rooted} (hstrategy : session.bridge.config.strategy = .reuse)
    (hkept : session.bridge.reusable = some handles)
    (h : Continues code allowed session history later) :
    history.made = [] ∧ later.bridge.reusable = some handles := by
  induction h with
  | start => exact ⟨rfl, hkept⟩
  | client _ _ ih => exact ih
  | elapses _ _ ih => exact ih
  | @enters _ history later host world s windows call entry stack hcontinues hhost hexpose ih =>
    obtain ⟨hsame, hnone⟩ := later.bridge.evaluate_of_kept host entry call s
      (hcontinues.config_symbols.1 ▸ hstrategy) ih.2
    refine ⟨?_, hsame⟩
    show history.made ++ madeViews _ = []
    rw [ih.1, madeViews_eq_nil_of_not_materializes hnone]
    rfl

/-- **The views of a bridge.** In every session, whatever invocations it has had, on hosts that
are backed by the heap and may fail at any operation: under reuse, the first invocation that
makes all three views keeps them however it ends, and none before it keeps any; in all that
follows no view is made, and each function that is called is given these three in their order.
They are never collected, as long as nobody else undoes pins.  With fresh views each function
is given three references that the heap has never handed out before.  References are 32-bit
words, so this holds as long as the heap has no more places than there are numbers. -/
theorem views_stand {code : UserCode F I} {allowed : HeapCommand F I → Prop} {history : History}
    {session : Session (HeapWorld F ω) Rooted} (hreaches : Reaches code allowed history session) :
    ViewsStand code allowed session where
  first hstrategy hnone e room := by
    have room' := e.heap_eq ▸ e.forward.1.addressable room
    exact e.keepsFirst (hreaches.sound room') hstrategy hnone room
  later hstrategy handles hkept history later hcontinues := by
    obtain ⟨hmade, hsame⟩ := hcontinues.standing hstrategy hkept
    exact ⟨hmade, hsame, fun e => e.reuses (hcontinues.config_symbols.1 ▸ hstrategy) hsame⟩
  stay hcode hallowed room := by
    have hsecured := hreaches.secured_of_keepsPins hcode hallowed room
    have hissued : ∀ r ∈ keptRefs session.bridge.reusable, session.host.heap.table.Issued r :=
      fun r hr => Heap.issued_of_isLive (hsecured.holds.isLive (List.mem_append_left _ hr))
    refine ⟨fun r hr => hsecured.holds.isLive (List.mem_append_left _ hr), ?_, ?_, ?_⟩
    · intro α surroundings stack program v hprogram hvisits room' r hr
      have hkeeps := hvisits.keepsHeld hcode (hprogram.mono hallowed)
      exact (hkeeps.holds room' hsecured.holds).isLive (List.mem_append_left _ hr)
    · intro e v hpasses room' hend r hr
      exact e.isLive_of_passes hcode hsecured hpasses room' hend (e.mem_kept_after hsecured hend hr)
        (e.issued_of_passes hsecured.holds.sound hpasses room' (hissued r hr))
    · intro e v hpasses room' hend r hr hmade
      exact e.isLive_of_passes hcode hsecured hpasses room' hend hr hmade
  logged := hreaches.exists_runs
  fresh hstrategy e room := by
    have room' := e.heap_eq ▸ e.forward.1.addressable room
    exact e.renews (hreaches.sound room') hstrategy room

/-! ## A heap that takes places again -/

namespace Renewed

open HeapWorld

/-- The heap with the function of the small session, which collects before each allocation. -/
def world : HeapWorld Unit Unit :=
  perform Echo.surroundings Echo.run Echo.setUp ⟨Heap.ofConfig .stress, {}, ()⟩

/-- A session with fresh views. -/
def session : Session (HeapWorld Unit Unit) Rooted :=
  ⟨world, Bridge.start { Echo.config with strategy := .fresh } .perCall⟩

/-- An invocation of a session, with the arguments of the small session. -/
def enter (session : Session (HeapWorld Unit Unit) Rooted) : Entrance Echo.code session :=
  .plain Echo.surroundings Echo.windows

/-- The views that the function is given. -/
def passed {session : Session (HeapWorld Unit Unit) Rooted} (e : Entrance Echo.code session) :
    List (List ObjRef) :=
  e.operations.filterMap fun
    | .call _ views _ => some views.toList
    | _ => none

/-- The session after its first invocation. -/
def served : Session (HeapWorld Unit Unit) Rooted := (enter session).after

/-- The session begins on a heap that a program has built. -/
theorem begins : Begins Echo.run world session :=
  .resolved (.perCall (Bridge.resolvePerCall_of_validate (by decide)))

/-- The session can be reached. -/
theorem reaches : Reaches Echo.code HeapCommand.KeepsPins
    (History.after {} (enter session).call (enter session).operations) served := by
  have hbuilt : Built Echo.code world := .program
  exact .begins hbuilt begins ((enter session).continues .start)

end Renewed

/-- The second invocation of the small session passes the three views that the first one has
kept.  With fresh views and a collection before each allocation the second invocation passes
references to the places of the first one, and yet these references are new. -/
theorem views_stand_renewed :
    Renewed.passed (Renewed.enter Echo.served) = [[⟨1, 0⟩, ⟨2, 0⟩, ⟨3, 0⟩]] ∧
      (Renewed.enter Echo.served).Reuses ⟨⟨⟨1, 0⟩⟩, ⟨⟨2, 0⟩⟩, ⟨⟨3, 0⟩⟩⟩ ∧
      ViewsStay Echo.code HeapCommand.KeepsPins Echo.served ∧
      Renewed.passed (Renewed.enter Renewed.session) = [[⟨1, 0⟩, ⟨2, 0⟩, ⟨3, 0⟩]] ∧
      Renewed.passed (Renewed.enter Renewed.served) = [[⟨4, 1⟩, ⟨3, 1⟩, ⟨2, 1⟩]] ∧
      (Renewed.enter Renewed.served).Renews := by
  have hstands : ViewsStand Echo.code HeapCommand.KeepsPins Echo.served :=
    views_stand (Echo.reaches _)
  have hkept : Echo.served.bridge.reusable = some ⟨⟨⟨1, 0⟩⟩, ⟨⟨2, 0⟩⟩, ⟨⟨3, 0⟩⟩⟩ := by
    decide +kernel
  obtain ⟨-, -, hreuses⟩ := hstands.later (by decide +kernel) _ hkept .start
  refine ⟨by decide +kernel, hreuses _, ?_, by decide +kernel, by decide +kernel, ?_⟩
  · refine hstands.stay (Echo.all_code (fun _ => trivial) fun _ => trivial) (fun _ => id) ?_
    decide +kernel
  · refine (views_stand Renewed.reaches).fresh (by decide +kernel) (Renewed.enter Renewed.served) ?_
    decide +kernel

/-! ## Views whose pins are undone

The heap counts pins and does not know who has made them.  So a kept view is lost when somebody
else undoes them: the function that is given it, or the client between two invocations. -/

namespace Unpinned

/-- The handles of the three views that the first invocation keeps. -/
def handles : StateViews Rooted := ⟨⟨⟨1, 0⟩⟩, ⟨⟨2, 0⟩⟩, ⟨⟨3, 0⟩⟩⟩

/-- A function that undoes the two pins of its first argument, that of the guard and that of the
handle, and collects. -/
def code : UserCode Unit Echo.interface := fun _ args => do
  discard (HeapCommand.unpin args.t).ask
  discard (HeapCommand.unpin args.t).ask
  discard HeapCommand.collect.ask
  pure args.y

/-- The heap with this function. -/
def world : HeapWorld Unit Unit :=
  HeapWorld.perform Echo.surroundings (Runner.ofStack code [Echo.surroundings]) Echo.setUp
    ⟨Heap.ofConfig .manual, {}, ()⟩

/-- The session before the first invocation. -/
def session : Session (HeapWorld Unit Unit) Rooted := ⟨world, Bridge.start Echo.config .perCall⟩

/-- An invocation of a session, with the arguments of the small session. -/
def enter (session : Session (HeapWorld Unit Unit) Rooted) : Entrance code session :=
  .plain Echo.surroundings Echo.windows

/-- The session after the first invocation. -/
def served : Session (HeapWorld Unit Unit) Rooted := (enter session).after

/-- The session can be reached by a client that undoes no pins. -/
theorem reaches : Reaches code HeapCommand.KeepsPins
    (History.after {} (enter session).call (enter session).operations) served := by
  have hbuilt : Built code world := .program
  have hbegins : Begins (Runner.ofStack code [Echo.surroundings]) world session :=
    .resolved (.perCall (Bridge.resolvePerCall_of_validate (by decide)))
  exact .begins hbuilt hbegins ((enter session).continues .start)

/-- A client that undoes the pin of the handle and collects. -/
def program : HeapProgram Unit Echo.interface Unit := do
  discard (HeapCommand.unpin ⟨1, 0⟩).ask
  discard HeapCommand.collect.ask

/-- The small session after the program of that client. -/
def stripped : Session (HeapWorld Unit Unit) Rooted :=
  ⟨HeapWorld.perform Echo.surroundings Echo.run program Echo.served.host, Echo.served.bridge⟩

/-- It can be reached, with the code of the small session. -/
theorem reaches_stripped : Reaches Echo.code (fun _ => True) Echo.history stripped :=
  .begins Echo.built (.resolved Echo.resolves) (.client (Echo.continues _) program.all_true)

/-- Kept views do not all stay once the first is not there. -/
theorem not_viewsStay {code : UserCode Unit Echo.interface}
    {allowed : HeapCommand Unit Echo.interface → Prop}
    {session : Session (HeapWorld Unit Unit) Rooted}
    (hkept : session.bridge.reusable = some handles)
    (hgone : session.host.heap.isLive ⟨1, 0⟩ = false) : ¬ ViewsStay code allowed session := by
  intro hstay
  have hmem : ⟨1, 0⟩ ∈ keptRefs session.bridge.reusable := by
    rw [hkept]
    exact List.mem_cons_self
  have hlive := hstay.now ⟨1, 0⟩ hmem
  rw [hgone] at hlive
  cases hlive

end Unpinned

/-- So it is not true that kept views are never collected, neither if only the client undoes no
pins, nor if only the code of functions undoes none.  In either session the next invocation ends
with a stale reference. -/
theorem not_forall_views_stay :
    (¬ ∀ (code : UserCode Unit Echo.interface) (allowed : HeapCommand Unit Echo.interface → Prop)
      (history : History) (session : Session (HeapWorld Unit Unit) Rooted),
      Reaches code allowed history session → (∀ command, allowed command → command.KeepsPins) →
      session.host.heap.table.Addressable → ViewsStay code allowed session) ∧
    (¬ ∀ (code : UserCode Unit Echo.interface) (allowed : HeapCommand Unit Echo.interface → Prop)
      (history : History) (session : Session (HeapWorld Unit Unit) Rooted),
      Reaches code allowed history session →
      (∀ f args, (code f args).All HeapCommand.KeepsPins) →
      session.host.heap.table.Addressable → ViewsStay code allowed session) ∧
    (Unpinned.enter Unpinned.served).evaluation.outcome =
      .error (.error (.host (.staleReference "#1.0"))) ∧
    (Renewed.enter Unpinned.stripped).evaluation.outcome =
      .error (.error (.host (.staleReference "#1.0"))) := by
  refine ⟨fun hclaim => ?_, fun hclaim => ?_, by decide +kernel, by decide +kernel⟩
  · have room : Unpinned.served.host.heap.table.Addressable := by decide +kernel
    have hstay := hclaim _ _ _ _ Unpinned.reaches (fun _ => id) room
    exact Unpinned.not_viewsStay (by decide +kernel) (by decide +kernel) hstay
  · have room : Unpinned.stripped.host.heap.table.Addressable := by decide +kernel
    have hstay := hclaim _ _ _ _ Unpinned.reaches_stripped
      (Echo.all_code (fun _ => trivial) fun _ => trivial) room
    exact Unpinned.not_viewsStay (by decide +kernel) (by decide +kernel) hstay

end CallbackBridge
