/-
# Whose value is not callable

The bridge reports a value that is bound and cannot be called as a type mismatch.  All that it
knows of a call that has failed is the error, though, and a function whose body ends with the
error of a call of its own fails with the same one.  So the report says of the function that it
is no function where it is something else that the function has tried to call
(`mismatches_reported`).

* `Heap.Uncallable` says that a reference leads to something else than a function.
* `HeapWorld.call_eq_notCallable_iff` tells the two ways apart in which a call can fail like that.
* `Bridge.mismatch_iff_of_call` follows the error to the end of the invocation.
-/
import CallbackBridge.Proofs.Resolution
namespace CallbackBridge

open HostOperation

variable {F ω : Type} {I : Interface}

/-! ## What cannot be called -/

/-- An object keeps its kind. -/
theorem Object.Remains.kind_eq {a b : Object F} (h : a.Remains b) : b.kind = a.kind := by
  cases a with
  | view view =>
    obtain ⟨view', rfl⟩ := h
    rfl
  | _ =>
    cases h
    rfl

namespace Heap

variable {h h' : Heap F} {r : ObjRef} {found : String}

/-- The reference leads to an object of the given kind, which is not a function. -/
def Uncallable (h : Heap F) (r : ObjRef) (found : String) : Prop :=
  ∃ e, h.entry? r = some e ∧ (∀ f, e.object ≠ .function f) ∧ e.object.kind = found

theorem uncallable_iff_kind? :
    h.Uncallable r found ↔ h.kind? r = some found ∧ found ≠ "function" := by
  unfold Uncallable kind?
  constructor
  · rintro ⟨e, he, hother, rfl⟩
    rw [he]
    exact ⟨rfl, fun hfunction => (Object.kind_eq_function_iff.mp hfunction).elim hother⟩
  · rintro ⟨hkind, hne⟩
    obtain ⟨e, he, rfl⟩ := Option.map_eq_some_iff.mp hkind
    exact ⟨e, he, fun f hf => hne (Object.kind_eq_function_iff.mpr ⟨f, hf⟩), rfl⟩

/-- What cannot be called is there. -/
theorem Uncallable.isLive (hno : h.Uncallable r found) : h.isLive r := by
  obtain ⟨e, he, -⟩ := hno
  exact isLive_of_eq_some he

/-- **Taking a reference for a function** fails like that exactly where it leads to something
else. -/
theorem function_eq_notCallable_iff :
    h.function r = .error (.notCallable found) ↔ h.Uncallable r found := by
  unfold Heap.function Uncallable
  rcases HeapWorld.entry_cases h r with ⟨⟨object, pins⟩, he, hentry⟩ | ⟨hnone, hstale⟩
  · rw [hentry, he]
    cases object <;> simp [bind, Except.bind, eq_comm]
  · rw [hstale, hnone]
    constructor
    · rintro ⟨⟩
    · rintro ⟨e, ⟨⟩, -⟩

/-- What is still there cannot be called if it could not be called before. -/
theorem uncallable_iff_of_evolves (hev : h.table.Evolves HeapEntry.fixedSorts h'.table)
    (room : h'.table.Addressable) (hs : h.table.Sound) (hissued : h.table.Issued r)
    (hlive : h.isLive r → h'.isLive r) : h'.Uncallable r found ↔ h.Uncallable r found := by
  have hkind : h'.isLive r → h'.kind? r = h.kind? r := by
    intro hthere
    obtain ⟨e', he'⟩ := Option.isSome_iff_exists.mp hthere
    obtain ⟨e, he, hremains⟩ := hev.inherited room hs hissued he'
    change h.entry? r = some e at he
    unfold kind?
    rw [he, he']
    exact congrArg some (Object.Remains.kind_eq hremains)
  constructor
  · intro hlater
    have hsame := hkind hlater.isLive
    rw [uncallable_iff_kind?] at hlater ⊢
    rwa [← hsame]
  · intro hbefore
    have hsame := hkind (hlive hbefore.isLive)
    rw [uncallable_iff_kind?] at hbefore ⊢
    rwa [hsame]

end Heap

/-- **A call says that something is not callable** if it is called on something else than a
function, or if the body ends with that error. -/
theorem HeapWorld.call_eq_notCallable_iff {run : Runner F ω} {f : ObjRef}
    {args : StateViews ObjRef} {w : HeapWorld F ω} {found : String} :
    ((call run f args).start w).1 = .error (.error (.notCallable found)) ↔
      w.heap.Uncallable f found ∨
        ∃ function, w.heap.function f = .ok function ∧
          (∀ arg ∈ args.toList, w.heap.isLive arg) ∧
          ((run function.code args).start (w.update Heap.openScope)).1 =
            .error (.error (.notCallable found)) := by
  rw [← Heap.function_eq_notCallable_iff]
  rcases call_cases run f args w with
    ⟨e, hno, hcall⟩ | ⟨arg, harg, hgone, hcall⟩ | ⟨function, hf, hargs⟩
  · rw [hcall, hno]
    simp
  · -- an argument that is gone is reported as that
    have hsettled : ∀ e, w.heap.function f = .error e →
        (call run f args).start w = (.error (.error e), w) := fun e => start_call_of_error run args
    constructor
    · intro hsame
      rw [hcall] at hsame
      cases hsame
    · rintro (hno | ⟨function, -, hargs, -⟩)
      · rw [hsettled _ hno]
      · rw [hargs arg harg] at hgone
        cases hgone
  · rw [start_call_entered run hf hargs, hf]
    have hsettle : ∀ (outcome : Outcome HostError ObjRef) (h : Heap F),
        settle outcome h = .error (.error (.notCallable found)) ↔
          outcome = .error (.error (.notCallable found)) := by
      intro outcome h
      unfold settle
      split
      · split <;> simp
      · rfl
    simp only [hsettle, reduceCtorEq, false_or]
    constructor
    · intro hbody
      exact ⟨function, rfl, hargs, hbody⟩
    · rintro ⟨_, ⟨⟩, -, hbody⟩
      exact hbody

/-! ## What an entry point resolves -/

/-- What an entry point resolves: what its handle roots, or what its name is bound to. -/
def Symbols.resolved? (symbols : Symbols Rooted) (names : BindingNames) (entry : Entry)
    (h : Heap F) : Option ObjRef :=
  match symbols with
  | .bound bindings => (bindings.handle? entry).map Rooted.ref
  | .perCall => (names.name? entry).bind h.lookup

section Resolving

variable {symbols : Symbols Rooted} {names : BindingNames} {entry : Entry} {h : Heap F}
  {f r : ObjRef} {e : BridgeError} {what found : String}

/-- What is found is what is resolved. -/
theorem Symbols.resolved?_of_target (htarget : symbols.target names entry h = .ok f) :
    symbols.resolved? names entry h = some f := by
  unfold target at htarget
  unfold resolved?
  cases symbols with
  | bound bindings =>
    simp only at htarget ⊢
    split at htarget
    · cases htarget
    · next handle hhandle =>
      cases htarget
      rw [hhandle]
      rfl
  | perCall =>
    simp only at htarget ⊢
    split at htarget
    · cases htarget
    · next name hname =>
      rw [hname]
      exact (Heap.entry?_of_callable htarget).1

/-- **Where nothing is found that can be called**, a mismatch is reported exactly of what the name
resolves to. -/
theorem Symbols.error_eq_mismatch_iff (htarget : symbols.target names entry h = .error e) :
    e = .typeMismatch what "callable" found ↔ what = names.reported entry ∧
      ∃ r, symbols.resolved? names entry h = some r ∧ h.Uncallable r found := by
  cases symbols with
  | bound bindings =>
    simp only [target] at htarget
    split at htarget
    · next hnone =>
      cases htarget
      simp [resolved?, hnone]
    · cases htarget
  | perCall =>
    have hreported : ∀ {name}, names.name? entry = some name → names.reported entry = name := by
      intro name hname
      cases entry with
      | residual => exact Option.some_inj.mp hname
      | event => simp [BindingNames.reported, BindingNames.eventName,
          show names.event = some name from hname]
    -- the name leads to nothing, or to something that is not a function
    cases Symbols.target_perCall_iff.mp htarget with
    | unnamed hname => simp [resolved?, hname]
    | unbound hname hunbound => simp [resolved?, hname, Heap.lookup, hunbound]
    | gone hname hbound hgone => simp [resolved?, hname, Heap.lookup, hbound, Heap.isLive, hgone]
    | @mistyped name r object pins hname hbound hentry hother =>
      have hlookup : h.lookup name = some r := by simp [Heap.lookup, hbound, Heap.isLive, hentry]
      simp only [resolved?, hname, Option.bind_some, hlookup, Option.some_inj, exists_eq_left',
        hreported hname]
      constructor
      · rintro ⟨⟩
        exact ⟨rfl, _, hentry, hother, rfl⟩
      · rintro ⟨rfl, e, he, -, rfl⟩
        cases hentry.symm.trans he
        rfl

/-- With a handle there is always something to be found. -/
theorem Symbols.eq_perCall_of_error (htarget : symbols.target names entry h = .error e)
    (hresolved : symbols.resolved? names entry h = some r) : symbols = .perCall := by
  cases symbols with
  | bound bindings =>
    obtain ⟨handle, hhandle, -⟩ := Option.map_eq_some_iff.mp hresolved
    simp [target, hhandle] at htarget
  | perCall => rfl

/-- What is resolved was handed out, if the handles were. -/
theorem Symbols.issued_of_resolved? (hresolved : symbols.resolved? names entry h = some r)
    (hissued : ∀ q ∈ symbols.owed, h.table.Issued q) : h.table.Issued r := by
  unfold resolved? at hresolved
  cases symbols with
  | bound bindings =>
    obtain ⟨handle, hhandle, rfl⟩ := Option.map_eq_some_iff.mp hresolved
    exact hissued _ (mem_owed hhandle)
  | perCall =>
    obtain ⟨name, -, hlookup⟩ := Option.bind_eq_some_iff.mp hresolved
    obtain ⟨e, he⟩ := Option.isSome_iff_exists.mp (Option.filter_eq_some_iff.mp hlookup).2
    exact Table.issued_of_get? he

end Resolving

/-! ## Obtaining the views -/

section Views

variable {code : UserCode F I} {stack : List (Surroundings I ω)} {w w' : HeapWorld F ω}
  {ops : List (HostOperation ObjRef Rooted)} {base : List ObjRef}

/-- Whatever is held before views are obtained is held afterwards. -/
theorem Viewing.holds_base {supportsReuse : Bool} {buffers : StateViews Buffer}
    {strategy : ViewStrategy} {kept kept' : Option (StateViews Rooted)}
    {result : Except HostError (StateViews ObjRef)}
    (h : Viewing supportsReuse buffers strategy kept ops result kept')
    (hholds : w.heap.Holds base) (hrun : HeapRun code stack w ops w')
    (room : w'.heap.table.Addressable) : w'.heap.Holds base := by
  have hdrop : ∀ {h : Heap F} {pins rest : List ObjRef}, h.Holds (pins ++ rest) → h.Holds rest :=
    fun hall => hall.of_count_le fun r => by simp
  cases h with
  | unmade hmakes => exact hdrop (hmakes.holds hholds hrun room)
  | fresh hmakes => exact hdrop (hmakes.holds hholds hrun room)
  | unsupported _ => exact hrun ▸ hholds
  | first hsupports hmakes =>
    exact hdrop (hdrop ((Viewing.first hsupports hmakes).holds hholds hrun room))
  | later _ hmoves =>
    obtain ⟨m, htaking, hmoving⟩ := carries_append.mp hrun
    obtain ⟨rfl, -⟩ := attach_eq htaking
    exact hdrop (hmoves.holds hholds hmoving)

/-- What is a view after a pin was one before. -/
theorem Heap.ViewAt.of_pin {h : Heap F} {q r : ObjRef} (hview : (h.pin q).ViewAt r) :
    h.ViewAt r := by
  obtain ⟨view, pins, hentry⟩ := hview
  rw [Heap.entry?_pin] at hentry
  by_cases hsame : r = q
  · subst hsame
    rw [if_pos rfl] at hentry
    obtain ⟨⟨object, before⟩, he, heq⟩ := Option.map_eq_some_iff.mp hentry
    cases heq
    exact ⟨view, before, he⟩
  · rw [if_neg hsame] at hentry
    exact ⟨view, pins, hentry⟩

/-- What is a view after one was moved was one before. -/
theorem Heap.ViewAt.of_repoint {h h' : Heap F} {q r : ObjRef} {buffer : Buffer}
    (hrepoint : h.repoint q buffer = .ok h') (hview : h'.ViewAt r) : h.ViewAt r := by
  obtain ⟨hq, rfl⟩ := Heap.repoint_eq_ok hrepoint
  by_cases hsame : r = q
  · rw [hsame]
    exact hq
  · obtain ⟨view, pins, hentry⟩ := hview
    rw [Heap.entry?_setObject, if_neg hsame] at hentry
    exact ⟨view, pins, hentry⟩

/-- Only views are moved. -/
theorem Moves.viewAt {moves : List (ObjRef × Buffer)} {result : Except HostError Unit}
    (h : Moves moves ops result) (hresult : result = .ok ()) (hrun : HeapRun code stack w ops w') :
    ∀ move ∈ moves, w.heap.ViewAt move.1 := by
  induction h generalizing w with
  | nil => simp
  | failed => cases hresult
  | @moved view buffer rest ops result hrest ih =>
    obtain ⟨w₁, hmoved, w₂, hpin, hrun⟩ := hrun
    obtain ⟨heap, hrepoint, rfl⟩ := hmoved.repoint
    rw [hpin.pin] at hrun
    exact List.forall_mem_cons.mpr ⟨(Heap.repoint_eq_ok hrepoint).1,
      fun move hmove => (ih hresult hrun move hmove).of_pin.of_repoint hrepoint⟩

/-- Views that are kept and were obtained again are views. -/
theorem Viewing.viewAt {supportsReuse : Bool} {buffers : StateViews Buffer}
    {strategy : ViewStrategy} {kept kept' : Option (StateViews Rooted)}
    {views : StateViews ObjRef}
    (h : Viewing supportsReuse buffers strategy kept ops (.ok views) kept')
    (hrun : HeapRun code stack w ops w') (hreuse : strategy = .reuse) :
    ∀ r ∈ keptRefs kept, w.heap.ViewAt r := by
  generalize hresult : Except.ok views = result at h
  cases h with
  | unmade _ => cases hresult
  | fresh _ => cases hreuse
  | unsupported _ => cases hresult
  | first _ _ => simp [keptRefs]
  | @later _ moved handles result _ hmoves =>
    cases result with
    | error e => cases hresult
    | ok _ =>
      obtain ⟨m, htaking, hmoving⟩ := carries_append.mp hrun
      obtain ⟨rfl, hrefs⟩ := attach_eq htaking
      rw [← hrefs]
      simpa [StateViews.toList] using hmoves.viewAt rfl hmoving

end Views

/-! ## From the call to the end -/

/-- **What is reported as not callable** is what the call says is not callable. -/
theorem Answering.mismatch_iff {R : Type} {f : R} {name what found : String}
    {views : StateViews R} {outLen : Nat} {res res' : Output} {result : Outcome HostError R}
    {rest : List (HostOperation R Rooted)} {outcome : Outcome BridgeError Unit}
    (h : Answering f name views outLen res (.call f views result :: rest) outcome res') :
    outcome = .error (.error (.typeMismatch what "callable" found)) ↔
      what = name ∧ result = .error (.error (.notCallable found)) := by
  cases h with
  | stopped stop =>
    rcases stop with e | message
    · cases e <;> simp [Outcome.mapError, HostError.ofCall, eq_comm]
    · simp [Outcome.mapError]
  | unread e => cases e <;> simp [HostError.ofResult]
  | refused hcopy =>
    unfold copyOut at hcopy
    split at hcopy
    · cases hcopy
      simp
    · split at hcopy <;> cases hcopy
      simp
  | copied _ => simp

namespace Bridge

/-- In an invocation that calls a function, the end of the call tells. -/
theorem mismatch_iff_of_call {σ R : Type} {host : HostRuntime σ R Rooted} {bridge : Bridge Rooted}
    {entry : Entry} {call : Invocation} {s : σ} {f : R} {views : StateViews R}
    {result : Outcome HostError R} {what found : String} {moment : Moment σ R Rooted}
    (hmem : moment ∈ bridge.trace host entry call s)
    (hcall : moment.operation = .call f views result) :
    (bridge.evaluate host entry call s).outcome =
        .error (.error (.typeMismatch what "callable" found)) ↔
      what = bridge.config.names.reported entry ∧
        result = .error (.error (.notCallable found)) := by
  have hconducted := bridge.evaluate_traced host entry call s
  have hop : .call f views result ∈ bridge.operations host entry call s := by
    rw [← hcall]
    exact List.mem_map_of_mem hmem
  cases hcheck : bridge.config.check entry call with
  | error e =>
    rw [hconducted.rejected e hcheck] at hop
    cases hop
  | ok admission =>
    obtain ⟨opening, hopening, hops⟩ := hconducted.admitted admission hcheck
    obtain ⟨pre, post, hsplit⟩ := List.append_of_mem hop
    obtain ⟨-, -, rest, -, -, -, -, hanswering⟩ :=
      hopening.exists_call (hops.symm.trans hsplit)
    exact hanswering.mismatch_iff

/-! ## On the heap -/

variable {code : UserCode F I} {stack : List (Surroundings I ω)} {bridge : Bridge Rooted}
  {entry : Entry} {call : Invocation} {s : HeapWorld F ω} {admission : Admission} {f : ObjRef}

/-- The bridge calls the function, which is there and so are its arguments, and the body ends with
the error. -/
def BodyFails (code : UserCode F I) (stack : List (Surroundings I ω)) (bridge : Bridge Rooted)
    (entry : Entry) (call : Invocation) (s : HeapWorld F ω) (f : ObjRef) (e : HostError) : Prop :=
  ∃ moment ∈ bridge.trace (HeapWorld.runtime (Runner.ofStack code stack)) entry call s,
    ∃ views result function, moment.operation = .call f views result ∧
      moment.before.heap.function f = .ok function ∧
      (∀ view ∈ views.toList, moment.before.heap.isLive view) ∧
      (bodyEnd code stack function views moment.before).1 = .error (.error e)

/-- Views do not keep the bridge from its function: either a name is looked up before any view is
obtained, or the views that are kept and have to be moved first are views. -/
def Unobstructed (bridge : Bridge Rooted) (h : Heap F) : Prop :=
  bridge.symbols = .perCall ∨
    (bridge.config.strategy = .reuse → ∀ r ∈ keptRefs bridge.reusable, h.ViewAt r)

/-- Once views are obtained, the views that were kept are known to be views, and the function that
was pinned is what it was. -/
theorem unobstructed_of_viewing {viewing : List (HostOperation ObjRef Rooted)}
    {buffers : StateViews Buffer} {kept : Option (StateViews Rooted)} {views : StateViews ObjRef}
    {u : HeapWorld F ω}
    (hviewing : Viewing true buffers bridge.config.strategy bridge.reusable viewing (.ok views) kept)
    (hrun : HeapRun code stack (s.update fun h => h.pin f) viewing u)
    (hs : s.heap.table.Sound) (hissued : s.heap.table.Issued f) (room : u.heap.table.Addressable) :
    bridge.Unobstructed s.heap ∧
      ∀ found, u.heap.Uncallable f found ↔ s.heap.Uncallable f found := by
  refine ⟨Or.inr fun hreuse r hr => (hviewing.viewAt hrun hreuse r hr).of_pin, fun found => ?_⟩
  have hev : s.heap.table.Evolves HeapEntry.fixedSorts u.heap.table :=
    (s.heap.evolves_pin HeapEntry.fixedSorts_pins f).trans hrun.forward.1
  refine Heap.uncallable_iff_of_evolves hev room hs hissued fun hlive => ?_
  -- no collection that comes with a view takes the function away
  have hnothing : s.heap.Holds [] := ⟨hs, by simp⟩
  exact (hviewing.holds_base (hnothing.pin hlive) hrun room).isLive List.mem_cons_self

/-- If views cannot be obtained, what was found can be called or views are in the way. -/
theorem not_unobstructed_of_viewing {viewing : List (HostOperation ObjRef Rooted)}
    {buffers : StateViews Buffer} {kept : Option (StateViews Rooted)} {e : HostError}
    {u : HeapWorld F ω} {found : String}
    (hviewing : Viewing true buffers bridge.config.strategy bridge.reusable viewing
      (.error e : Except HostError (StateViews ObjRef)) kept)
    (hrun : Carries (fun op => op.Performs (HeapWorld.runtime (Runner.ofStack code stack)))
      (s.update fun h => h.pin f) viewing u)
    (htarget : bridge.symbols.target bridge.config.names entry s.heap = .ok f)
    (hno : s.heap.Uncallable f found) : ¬ bridge.Unobstructed s.heap := by
  rintro (hpercall | hready)
  · -- what was looked up is a function
    rw [hpercall] at htarget
    obtain ⟨function, hfunction⟩ := (Symbols.target_perCall_iff.mp htarget).exists_function
    rw [Heap.function_eq_notCallable_iff.mpr hno] at hfunction
    cases hfunction
  · obtain ⟨views, hviews⟩ := hviewing.exists_ok
      (fun hreuse r hr => (hready hreuse r hr).pin f) hrun
    cases hviews

/-- A function that is found is called, or there is something wrong with the views. -/
theorem called_or_obstructed (hcheck : bridge.config.check entry call = .ok admission)
    (hs : s.heap.table.Sound) (hissued : ∀ r ∈ bridge.symbols.owed, s.heap.table.Issued r)
    (room : (bridge.evaluate (HeapWorld.runtime (Runner.ofStack code stack)) entry call
      s).host.heap.table.Addressable)
    (htarget : bridge.symbols.target bridge.config.names entry s.heap = .ok f) :
    (∃ moment ∈ bridge.trace (HeapWorld.runtime (Runner.ofStack code stack)) entry call s,
      ∃ views result, moment.operation = .call f views result ∧
        ((HeapWorld.call (Runner.ofStack code stack) f views).start moment.before).1 = result ∧
        bridge.Unobstructed s.heap ∧
        ∀ found, moment.before.heap.Uncallable f found ↔ s.heap.Uncallable f found) ∨
    (∃ e, (bridge.evaluate (HeapWorld.runtime (Runner.ofStack code stack)) entry call s).outcome =
        .error (.error (.host e))) ∧
      ∀ found, s.heap.Uncallable f found → ¬ bridge.Unobstructed s.heap := by
  have hconducted := bridge.evaluate_traced (HeapWorld.runtime (Runner.ofStack code stack)) entry
    call s
  have hchain := hconducted.chain
  have hbacked := heapBacked_runtime (Runner.ofStack code stack : Runner F ω)
  obtain ⟨opening, hopening, hops⟩ := hconducted.admitted admission hcheck
  have hrun : Carries (fun op => op.Performs (HeapWorld.runtime (Runner.ofStack code stack))) s
      (bridge.operations _ entry call s) _ := hchain.performs
  rw [hops] at hrun
  obtain ⟨u, hopened, -⟩ := carries_append.mp hrun
  generalize (bridge.evaluate _ entry call s).outcome = outcome at hopening ⊢
  generalize (bridge.evaluate _ entry call s).bridge.reusable = kept at hopening
  generalize (bridge.evaluate _ entry call s).res = res' at hopening
  cases hopening with
  | unfound hlookup =>
    have hfails := hlookup.target_of_error hopened
    rw [htarget] at hfails
    cases hfails
  | @unseen looking viewing f' e _ hlookup hviewing =>
    obtain ⟨hfound, hviews⟩ := hlookup.carries_pinned hbacked hopened
    cases htarget.symm.trans hfound
    exact Or.inr ⟨⟨e, rfl⟩, fun found => not_unobstructed_of_viewing hviewing hviews htarget⟩
  | @asked looking viewing asking f' views _ _ _ hlookup hviewing hanswering =>
    obtain ⟨result, rest, rfl, -⟩ := hanswering.exists_call
    have hsplit : (bridge.trace (HeapWorld.runtime (Runner.ofStack code stack)) entry call
        s).map Moment.operation = (looking ++ .pin f' :: viewing) ++ .call f' views result ::
          (rest ++ closing (looking ++ .pin f' :: (viewing ++ .call f' views result :: rest))) := by
      rw [show (bridge.trace _ entry call s).map Moment.operation = _ from hops]
      simp
    obtain ⟨pre, moment, post, htrace, hpre, hcall, -, hbefore, hperforms, hafter⟩ :=
      hchain.split_at hsplit
    have hbefore := hbefore.carries hbacked
    rw [hpre] at hbefore
    obtain ⟨hfound, hviews⟩ := hlookup.carries_pinned (fun _ _ _ hstep => hstep) hbefore
    cases htarget.symm.trans hfound
    have room' : moment.before.heap.table.Addressable :=
      (hbacked _ _ _ hperforms).forward.1.addressable
        ((hafter.carries hbacked).forward.1.addressable room)
    refine Or.inl ⟨moment, ?_, views, result, hcall, congrArg Prod.fst hperforms, ?_⟩
    · rw [htrace]
      exact List.mem_append_right _ List.mem_cons_self
    · exact unobstructed_of_viewing hviewing hviews hs
        (Symbols.issued_of_resolved? (Symbols.resolved?_of_target htarget) hissued) room'

/-- An invocation in which the body of the function ends like that reports a mismatch. -/
theorem BodyFails.mismatch {found : String}
    (h : bridge.BodyFails code stack entry call s f (.notCallable found)) :
    (bridge.evaluate (HeapWorld.runtime (Runner.ofStack code stack)) entry call s).outcome =
      .error (.error (.typeMismatch (bridge.config.names.reported entry) "callable" found)) := by
  obtain ⟨moment, hmem, views, result, function, hcall, hf, hargs, hbody⟩ := h
  have hperforms := (bridge.evaluate_traced _ entry call s).chain.performs_of_mem hmem
  rw [hcall] at hperforms
  have hresult : ((HeapWorld.call (Runner.ofStack code stack) f views).start moment.before).1 =
      result := congrArg Prod.fst hperforms
  refine (mismatch_iff_of_call hmem hcall).mpr ⟨rfl, ?_⟩
  rw [← hresult, HeapWorld.call_eq_notCallable_iff]
  exact Or.inr ⟨function, hf, hargs, hbody⟩

end Bridge

/-! ## The report -/

section Report

variable {code : UserCode F I} {stack : List (Surroundings I ω)} {bridge : Bridge Rooted}
  {entry : Entry} {call : Invocation} {s : HeapWorld F ω} {admission : Admission}

/-- **Which mismatches are reported.**  An invocation whose arguments are accepted reports that what
it has resolved is not callable if that is there and is something else than a function; and also
if it is a function whose body ends with the error of something that it could not call.  Nothing
in the report tells the one from the other: it names the function, with the kind of whatever
could not be called.

The heap is in any state, the user code is any code with any calls inside it, and the bridge is any
bridge whose handles were handed out by the heap.  References are 32-bit words, so this holds
as long as the heap has no more places than there are numbers. -/
theorem mismatches_reported (hcheck : bridge.config.check entry call = .ok admission)
    (hs : s.heap.table.Sound) (hissued : ∀ r ∈ bridge.symbols.owed, s.heap.table.Issued r)
    (room : (bridge.evaluate (HeapWorld.runtime (Runner.ofStack code stack)) entry call
      s).host.heap.table.Addressable) (what found : String) :
    (bridge.evaluate (HeapWorld.runtime (Runner.ofStack code stack)) entry call s).outcome =
        .error (.error (.typeMismatch what "callable" found)) ↔
      what = bridge.config.names.reported entry ∧
        ∃ r, bridge.symbols.resolved? bridge.config.names entry s.heap = some r ∧
          (s.heap.Uncallable r found ∧ bridge.Unobstructed s.heap ∨
            bridge.BodyFails code stack entry call s r (.notCallable found)) := by
  cases htarget : bridge.symbols.target bridge.config.names entry s.heap with
  | error e =>
    obtain ⟨houtcome, -, hlooks⟩ := evaluate_of_unfound code stack hcheck htarget
    have hcalm : ∀ r e, ¬ bridge.BodyFails code stack entry call s r e := by
      rintro r e ⟨moment, hmem, views, result, -, hcall, -⟩
      have hlook := hlooks _ (List.mem_map_of_mem hmem)
      rw [hcall] at hlook
      exact hlook
    have hsame : ∀ e', (Except.error (.error e) : Outcome BridgeError Unit) =
        .error (.error e') ↔ e = e' := by simp
    rw [houtcome, hsame, Symbols.error_eq_mismatch_iff htarget]
    refine and_congr_right fun _ => exists_congr fun r => and_congr_right fun hresolved => ?_
    have hclear : bridge.Unobstructed s.heap :=
      Or.inl (Symbols.eq_perCall_of_error htarget hresolved)
    simp [hclear, hcalm]
  | ok f =>
    have hresolved := Symbols.resolved?_of_target htarget
    constructor
    · intro houtcome
      rcases Bridge.called_or_obstructed hcheck hs hissued room htarget with
        ⟨moment, hmem, views, result, hcall, hresult, hclear, huncallable⟩ | ⟨⟨e, hother⟩, -⟩
      · obtain ⟨hwhat, hfails⟩ := (Bridge.mismatch_iff_of_call hmem hcall).mp houtcome
        refine ⟨hwhat, f, hresolved, ?_⟩
        -- the call has failed at once, or its body has
        rcases HeapWorld.call_eq_notCallable_iff.mp (hresult.trans hfails) with
          hno | ⟨function, hf, hargs, hbody⟩
        · exact Or.inl ⟨(huncallable found).mp hno, hclear⟩
        · exact Or.inr ⟨moment, hmem, views, result, function, hcall, hf, hargs, hbody⟩
      · rw [hother] at houtcome
        cases houtcome
    · rintro ⟨rfl, r, hr, ⟨hno, hclear⟩ | hbody⟩
      · cases hresolved.symm.trans hr
        rcases Bridge.called_or_obstructed hcheck hs hissued room htarget with
          ⟨moment, hmem, views, result, hcall, hresult, -, huncallable⟩ | ⟨-, hobstructed⟩
        · refine (Bridge.mismatch_iff_of_call hmem hcall).mpr ⟨rfl, ?_⟩
          rw [← hresult, HeapWorld.call_eq_notCallable_iff]
          exact Or.inl ((huncallable found).mpr hno)
        · exact (hobstructed found hno hclear).elim
      · exact hbody.mismatch

end Report

/-! ## A function that hands an error on

The function calls a text and ends with the error of that call. -/

namespace Relaying

/-- Allocates a text, calls it and fails as the call does. -/
def code : UserCode Unit Echo.interface := fun _ args => do
  let value ← (HeapCommand.text "not a function").ask
  match ← (HeapCommand.call value args).ask with
  | .ok result => pure result
  | .error e => Program.fail e

/-- Defines the function. -/
def setUp : HeapProgram Unit Echo.interface Unit := do
  let f ← (HeapCommand.function ⟨"f", ()⟩).ask
  discard (HeapCommand.define "f" f).ask

/-- The heap with the function. -/
def world : HeapWorld Unit Unit :=
  HeapWorld.perform Echo.surroundings (Runner.ofStack code [Echo.surroundings]) setUp
    ⟨Heap.ofConfig .manual, {}, ()⟩

/-- The bridge looks the name up in each invocation. -/
def bridge : Bridge Rooted := Bridge.start { names := ⟨"f", none⟩ } .perCall

/-- The arguments, and the heap when the invocation begins. -/
def invocation : Invocation × HeapWorld Unit Unit := world.expose Echo.windows

/-- The heap was built by a program. -/
theorem sound : invocation.2.heap.table.Sound := by
  have hbuilt : Built code world := .program
  refine hbuilt.sound ?_
  decide +kernel

/-- The arguments are accepted. -/
theorem accepted : bridge.config.check .residual invocation.1 =
    .ok ⟨2, invocation.1.leading 2⟩ := by
  decide +kernel

/-- There is room for more objects. -/
theorem room : (bridge.evaluate (HeapWorld.runtime (Runner.ofStack code [Echo.surroundings]))
    .residual invocation.1 invocation.2).host.heap.table.Addressable := by decide +kernel

/-- A per-call bridge has no handles. -/
theorem issued : ∀ r ∈ bridge.symbols.owed, invocation.2.heap.table.Issued r := by
  rintro r ⟨⟩

/-- The name leads to the function. -/
theorem function_eq : invocation.2.heap.function ⟨0, 0⟩ = .ok ⟨"f", ()⟩ := rfl

/-- The name is resolved. -/
theorem resolved : bridge.symbols.resolved? bridge.config.names .residual invocation.2.heap =
    some ⟨0, 0⟩ := rfl

/-- What the name leads to can be called. -/
theorem not_uncallable {r : ObjRef} {found : String}
    (hr : bridge.symbols.resolved? bridge.config.names .residual invocation.2.heap = some r) :
    ¬ invocation.2.heap.Uncallable r found := by
  cases resolved.symm.trans hr
  intro hno
  have hfails := Heap.function_eq_notCallable_iff.mpr hno
  rw [function_eq] at hfails
  cases hfails

/-- The report says that the function is not callable. -/
theorem outcome : (bridge.evaluate (HeapWorld.runtime (Runner.ofStack code [Echo.surroundings]))
    .residual invocation.1 invocation.2).outcome =
      .error (.error (.typeMismatch "f" "callable" "text")) := by
  decide +kernel

end Relaying

/-- The function is there, and what is reported as not callable is what it has called. -/
theorem mismatches_reported_relaying :
    Relaying.invocation.2.heap.function ⟨0, 0⟩ = .ok ⟨"f", ()⟩ ∧
    (Relaying.bridge.evaluate
      (HeapWorld.runtime (Runner.ofStack Relaying.code [Echo.surroundings])) .residual
      Relaying.invocation.1 Relaying.invocation.2).outcome =
        .error (.error (.typeMismatch "f" "callable" "text")) ∧
    Relaying.bridge.BodyFails Relaying.code [Echo.surroundings] .residual Relaying.invocation.1
      Relaying.invocation.2 ⟨0, 0⟩ (.notCallable "text") := by
  obtain ⟨-, r, hr, ⟨hno, -⟩ | hbody⟩ := (mismatches_reported Relaying.accepted Relaying.sound
    Relaying.issued Relaying.room "f" "text").mp Relaying.outcome
  · exact (Relaying.not_uncallable hr hno).elim
  · cases Relaying.resolved.symm.trans hr
    exact ⟨Relaying.function_eq, Relaying.outcome, hbody⟩

/-- So it is not only values that are no functions that are reported as not callable. -/
theorem not_forall_mismatches_uncallable :
    ¬ ∀ (code : UserCode Unit Echo.interface) (stack : List (Surroundings Echo.interface Unit))
      (bridge : Bridge Rooted) (entry : Entry) (call : Invocation) (s : HeapWorld Unit Unit)
      (admission : Admission), bridge.config.check entry call = .ok admission →
      s.heap.table.Sound → (∀ r ∈ bridge.symbols.owed, s.heap.table.Issued r) →
      (bridge.evaluate (HeapWorld.runtime (Runner.ofStack code stack)) entry call
        s).host.heap.table.Addressable →
      ((∃ found, (bridge.evaluate (HeapWorld.runtime (Runner.ofStack code stack)) entry call
          s).outcome = .error (.error
            (.typeMismatch (bridge.config.names.reported entry) "callable" found))) ↔
        ∃ r found, bridge.symbols.resolved? bridge.config.names entry s.heap = some r ∧
          s.heap.Uncallable r found) := by
  intro hclaim
  obtain ⟨r, found, hr, hno⟩ := (hclaim Relaying.code [Echo.surroundings] Relaying.bridge .residual
    Relaying.invocation.1 Relaying.invocation.2 _ Relaying.accepted Relaying.sound Relaying.issued
    Relaying.room).mp ⟨_, Relaying.outcome⟩
  exact Relaying.not_uncallable hr hno

end CallbackBridge
