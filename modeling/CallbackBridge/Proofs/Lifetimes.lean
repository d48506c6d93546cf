/-
# What the bridge keeps alive

The handles of a bridge are pins.  `Bridge.Secured` says that these pins are there and that
the handles of views lead to views, each to one of its own.  A session begins secured, and
every step keeps it so, as long as user code leaves pins and views alone: an invocation
pins whatever it obtains before anything else can be collected, and undoes exactly these
pins when it ends.

What holds when the user function is called follows: the function is there, and so are the
views, which show the arguments (`AtCall`).
-/
import CallbackBridge.Proofs.Pins
import CallbackBridge.Proofs.Rooting
import CallbackBridge.Proofs.Sessions
namespace CallbackBridge

open HostOperation

variable {F ω : Type} {I : Interface}

/-! ## Three parts, one by one -/

theorem StateViews.mem_toList {α : Type} {views : StateViews α} {a : α} :
    a ∈ views.toList ↔ a = views.t ∨ a = views.y ∨ a = views.yp := by
  simp [toList]

theorem StateViews.forall₂_toList {α β : Type} {R : α → β → Prop} {a : StateViews α}
    {b : StateViews β} :
    List.Forall₂ R a.toList b.toList ↔ R a.t b.t ∧ R a.y b.y ∧ R a.yp b.yp := by
  simp [toList]

/-! ## What the handles of a bridge root -/

/-- What the handles of views root. -/
def keptRefs : Option (StateViews Rooted) → List ObjRef
  | none => []
  | some handles => handles.toList.map Rooted.ref

/-- What the handles of functions root. -/
def Symbols.owed : Symbols Rooted → List ObjRef
  | .bound bindings => bindings.residual.ref :: (bindings.event.map Rooted.ref).toList
  | .perCall => []

/-- What the handles of a bridge root. -/
def Bridge.owed (bridge : Bridge Rooted) : List ObjRef :=
  keptRefs bridge.reusable ++ bridge.symbols.owed

/-- The reference leads to a view. -/
def Heap.ViewAt (h : Heap F) (r : ObjRef) : Prop :=
  ∃ view pins, h.entry? r = some ⟨.view view, pins⟩

/-- A view that stays is a view. -/
theorem Heap.ViewAt.evolves {h h' : Heap F} {r : ObjRef} (hview : h.ViewAt r)
    (hev : h.table.Evolves HeapEntry.fixedSorts h'.table) (room : h'.table.Addressable)
    (hs : h.table.Sound) (hlive : h'.isLive r) : h'.ViewAt r := by
  obtain ⟨view, pins, hentry⟩ := hview
  obtain ⟨⟨object, pins'⟩, hentry', view', hview'⟩ := hev.exists_change room hs hentry hlive
  cases (hview' : object = _)
  exact ⟨view', pins', hentry'⟩

/-- A pin leaves a view. -/
theorem Heap.ViewAt.pin {h : Heap F} {r : ObjRef} (hview : h.ViewAt r) (q : ObjRef) :
    (h.pin q).ViewAt r := by
  obtain ⟨view, pins, hentry⟩ := hview
  unfold ViewAt
  rw [Heap.entry?_pin]
  by_cases hsame : r = q
  · subst hsame
    exact ⟨view, pins + 1, by rw [if_pos rfl, hentry]; rfl⟩
  · exact ⟨view, pins, by rw [if_neg hsame, hentry]⟩

/-- A view that is there can be pointed elsewhere, and all views stay views. -/
theorem Heap.ViewAt.repoint {h : Heap F} {q : ObjRef} (hq : h.ViewAt q) (buffer : Buffer) :
    ∃ h', h.repoint q buffer = .ok h' ∧ ∀ r, h.ViewAt r → h'.ViewAt r := by
  obtain ⟨seen, pins, hentry⟩ := hq
  refine ⟨h.setObject q (.view (.ofBuffer buffer)), ?_, fun r hr => ?_⟩
  · simp only [Heap.repoint, Heap.entry, hentry]
    rfl
  · unfold ViewAt
    rw [Heap.entry?_setObject]
    by_cases hsame : r = q
    · exact ⟨_, pins, by rw [if_pos hsame, hentry]; rfl⟩
    · rw [if_neg hsame]
      exact hr

/-- The handles of the bridge are pins, and the handles of views lead to views, each to one
of its own. -/
structure Bridge.Secured (bridge : Bridge Rooted) (h : Heap F) : Prop where
  /-- Each handle is a pin. -/
  holds : h.Holds bridge.owed
  /-- No two handles lead to the same view. -/
  distinct : (keptRefs bridge.reusable).Nodup
  /-- The handles of views lead to views. -/
  views : ∀ r ∈ keptRefs bridge.reusable, h.ViewAt r

/-! ## Finding the function -/

/-- The function that is found for an entry point. -/
def Symbols.target (symbols : Symbols Rooted) (names : BindingNames) (entry : Entry)
    (h : Heap F) : Except BridgeError ObjRef :=
  match symbols with
  | .bound bindings =>
    match bindings.handle? entry with
    | none => .error (.unresolvedBinding (names.reported entry))
    | some handle => .ok handle.ref
  | .perCall =>
    match names.name? entry with
    | none => .error (.unresolvedBinding (names.reported entry))
    | some name => h.callable name

/-- What a handle for an entry point roots is owed. -/
theorem Symbols.mem_owed {bindings : Bindings Rooted} {entry : Entry} {handle : Rooted}
    (h : bindings.handle? entry = some handle) : handle.ref ∈ (Symbols.bound bindings).owed := by
  cases entry with
  | residual =>
    cases h
    exact List.mem_cons_self
  | event => simp [Symbols.owed, show bindings.event = some handle from h]

/-- The function that is found is there. -/
theorem Symbols.isLive_of_target {symbols : Symbols Rooted} {names : BindingNames} {entry : Entry}
    {h : Heap F} {f : ObjRef} {owed : List ObjRef}
    (hf : symbols.target names entry h = .ok f) (hholds : h.Holds owed)
    (howed : ∀ r ∈ symbols.owed, r ∈ owed) : h.isLive f := by
  unfold target at hf
  cases symbols with
  | bound bindings =>
    simp only at hf
    split at hf
    · cases hf
    · next handle hhandle =>
      cases hf
      exact hholds.isLive (howed _ (mem_owed hhandle))
  | perCall =>
    simp only at hf
    split at hf
    · cases hf
    · obtain ⟨-, function, pins, hentry⟩ := Heap.entry?_of_callable hf
      exact Heap.isLive_of_eq_some hentry

section Invocation

variable {code : UserCode F I} {stack : List (Surroundings I ω)} {w w' u : HeapWorld F ω}
  {ops : List (HostOperation ObjRef Rooted)} {base : List ObjRef}

/-- Looking for the function does nothing, and finds it where it should be. -/
theorem Lookup.target_eq {names : BindingNames} {entry : Entry} {symbols : Symbols Rooted}
    {result : Except BridgeError ObjRef} (h : Lookup names entry symbols ops result)
    (hrun : HeapRun code stack w ops w') :
    w' = w ∧ ∀ f, result = .ok f → symbols.target names entry w.heap = .ok f := by
  cases h with
  | attached hhandle =>
    obtain ⟨m, hattach, rfl⟩ := hrun
    obtain ⟨rfl, rfl⟩ := hattach.attach
    refine ⟨rfl, ?_⟩
    rintro f ⟨⟩
    simp only [Symbols.target, hhandle]
  | unbound _ => exact ⟨hrun.symm, by rintro f ⟨⟩⟩
  | unnamed _ => exact ⟨hrun.symm, by rintro f ⟨⟩⟩
  | missing _ =>
    obtain ⟨m, hresolve, rfl⟩ := hrun
    exact ⟨hresolve.resolve.1, by rintro f ⟨⟩⟩
  | mistyped _ =>
    obtain ⟨m₁, hresolve, m₂, hcallable, m₃, htype, rfl⟩ := hrun
    exact ⟨htype.typeName.trans (hcallable.isCallable.1.trans hresolve.resolve.1),
      by rintro f ⟨⟩⟩
  | callable hname =>
    obtain ⟨m₁, hresolve, m₂, hcallable, rfl⟩ := hrun
    obtain ⟨rfl, hfound⟩ := hresolve.resolve
    obtain ⟨rfl, hkind⟩ := hcallable.isCallable
    refine ⟨rfl, ?_⟩
    rintro f ⟨⟩
    simp only [Symbols.target, hname, Heap.callable, hfound _ rfl, hkind rfl, if_true]

/-- Then the function that was found is pinned, in the heap as it was. -/
theorem Lookup.carries_pinned
    {step : HostOperation ObjRef Rooted → HeapWorld F ω → HeapWorld F ω → Prop}
    (hstep : ∀ op w w', step op w w' → HeapStep (Runner.ofStack code stack) op w w')
    {names : BindingNames} {entry : Entry} {symbols : Symbols Rooted} {f : ObjRef}
    {looking rest : List (HostOperation ObjRef Rooted)}
    (h : Lookup names entry symbols looking (.ok f))
    (hrun : Carries step w (looking ++ .pin f :: rest) u) :
    symbols.target names entry w.heap = .ok f ∧ Carries step (w.update fun h => h.pin f) rest u := by
  obtain ⟨m, hlooking, m₁, hpin, hrest⟩ := carries_append.mp hrun
  obtain ⟨rfl, htarget⟩ := h.target_eq (hlooking.mono fun _ _ => hstep _)
  rw [(hstep _ _ _ hpin).pin] at hrest
  exact ⟨htarget f rfl, hrest⟩

/-! ## Obtaining the views -/

/-- Handles are taken without a change. -/
theorem attach_eq {run : Runner F ω} {handles : StateViews Rooted} {views : StateViews ObjRef}
    (hrun : Carries (HeapStep run) w [.attach handles.t views.t, .attach handles.y views.y,
      .attach handles.yp views.yp] w') :
    w' = w ∧ views.toList = keptRefs (some handles) := by
  obtain ⟨m₁, hfirst, m₂, hsecond, m₃, hthird, rfl⟩ := hrun
  obtain ⟨rfl, ht⟩ := hfirst.attach
  obtain ⟨rfl, hy⟩ := hsecond.attach
  obtain ⟨rfl, hyp⟩ := hthird.attach
  exact ⟨rfl, by simp [StateViews.toList, keptRefs, ht, hy, hyp]⟩

/-- Handles that are made are pins, one for each view. -/
theorem persist_eq {handles : StateViews Rooted} {views : StateViews ObjRef}
    (hrun : HeapRun code stack w [.persist views.t handles.t, .persist views.y handles.y,
      .persist views.yp handles.yp] w') :
    w' = w.update (fun h => ((h.pin views.t).pin views.y).pin views.yp) ∧
      keptRefs (some handles) = views.toList := by
  obtain ⟨m₁, hfirst, m₂, hsecond, m₃, hthird, rfl⟩ := hrun
  obtain ⟨ht, rfl⟩ := hfirst.persist
  obtain ⟨hy, rfl⟩ := hsecond.persist
  obtain ⟨hyp, rfl⟩ := hthird.persist
  exact ⟨rfl, by simp [StateViews.toList, keptRefs, ht, hy, hyp]⟩

/-- Obtaining views holds them, and their handles if they are kept. -/
theorem Viewing.holds {supportsReuse : Bool} {buffers : StateViews Buffer}
    {strategy : ViewStrategy} {kept kept' : Option (StateViews Rooted)}
    {result : Except HostError (StateViews ObjRef)}
    (h : Viewing supportsReuse buffers strategy kept ops result kept')
    (hholds : w.heap.Holds (keptRefs kept ++ base)) (hrun : HeapRun code stack w ops w')
    (room : w'.heap.table.Addressable) :
    w'.heap.Holds (keptRefs kept' ++ (pinnedValues ops ++ base)) := by
  have hswap : ∀ {h : Heap F} {pins : List ObjRef}, h.Holds (pins ++ (keptRefs kept ++ base)) →
      h.Holds (keptRefs kept ++ (pins ++ base)) := by
    intro h pins hpins
    refine hpins.of_count_le fun r => ?_
    simp only [List.count_append]
    omega
  cases h with
  | unmade hmakes => exact hswap (hmakes.holds hholds hrun room)
  | fresh hmakes => exact hswap (hmakes.holds hholds hrun room)
  | unsupported _ => exact hrun ▸ hholds
  | @first making views handles _ hmakes =>
    obtain ⟨m, hmaking, hkeeping⟩ := carries_append.mp hrun
    have hroom := hkeeping.forward.1.addressable room
    obtain ⟨rfl, hhandles⟩ := persist_eq hkeeping
    have hmade := hmakes.holds hholds hmaking hroom
    rw [hmakes.pinnedValues_eq] at hmade
    -- each of the three views is pinned once more
    have ht := hmade.pin (hmade.isLive (r := views.t) (by simp [StateViews.toList]))
    have hy := ht.pin (ht.isLive (r := views.y) (by simp [StateViews.toList]))
    have hyp := hy.pin (hy.isLive (r := views.yp) (by simp [StateViews.toList]))
    refine hyp.of_count_le fun r => ?_
    rw [hhandles, pinnedValues_append, hmakes.pinnedValues_eq]
    simp only [keptRefs, StateViews.toList, List.count_append, List.count_cons, List.count_nil,
      pinnedValues_cons, pinnedValues_nil, pinned?, Option.toList]
    omega
  | later _ hmoves =>
    obtain ⟨m, htaking, hmoving⟩ := carries_append.mp hrun
    obtain ⟨rfl, -⟩ := attach_eq htaking
    simpa [pinned?] using hswap (hmoves.holds hholds hmoving)

/-- Views that were obtained show their buffers, and each handle that is kept leads to one
of its own. -/
theorem Viewing.shows {supportsReuse : Bool} {buffers : StateViews Buffer}
    {strategy : ViewStrategy} {kept kept' : Option (StateViews Rooted)}
    {views : StateViews ObjRef}
    (h : Viewing supportsReuse buffers strategy kept ops (.ok views) kept')
    (hholds : w.heap.Holds base) (hdistinct : (keptRefs kept).Nodup)
    (hrun : HeapRun code stack w ops w') (room : w'.heap.table.Addressable) :
    List.Forall₂ w'.heap.Shows views.toList buffers.toList ∧ (keptRefs kept').Nodup ∧
      (keptRefs kept' = keptRefs kept ∨ keptRefs kept' = views.toList) := by
  generalize hresult : Except.ok views = result at h
  cases h with
  | unmade _ => cases hresult
  | fresh hmakes =>
    cases hresult
    exact ⟨(hmakes.shows hholds hrun room rfl).1, hdistinct, Or.inl rfl⟩
  | unsupported _ => cases hresult
  | first _ hmakes =>
    cases hresult
    obtain ⟨m, hmaking, hkeeping⟩ := carries_append.mp hrun
    have hroom := hkeeping.forward.1.addressable room
    obtain ⟨rfl, hhandles⟩ := persist_eq hkeeping
    obtain ⟨hshows, hnodup, -⟩ := hmakes.shows hholds hmaking hroom rfl
    rw [hhandles]
    exact ⟨hshows.imp fun _ _ hshow => ((hshow.pin _).pin _).pin _, hnodup, Or.inr rfl⟩
  | @later _ moved handles result _ hmoves =>
    cases result with
    | error e => cases hresult
    | ok _ =>
      cases hresult
      obtain ⟨m, htaking, hmoving⟩ := carries_append.mp hrun
      obtain ⟨rfl, hviews⟩ := attach_eq htaking
      have hnodup : ([(moved.t, buffers.t), (moved.y, buffers.y),
          (moved.yp, buffers.yp)].map Prod.fst).Nodup := by
        rw [← hviews] at hdistinct
        exact hdistinct
      obtain ⟨hshows, -⟩ := hmoves.shows hmoving rfl hnodup
      simp only [List.forall_mem_cons] at hshows
      obtain ⟨ht, hy, hyp, -⟩ := hshows
      exact ⟨.cons ht (.cons hy (.cons hyp .nil)), hdistinct, Or.inl rfl⟩

/-! ## Up to the call -/

/-- The function is found and pinned, and then views are obtained, or not. -/
theorem holds_of_viewing {bridge : Bridge Rooted} {entry : Entry} {f : ObjRef}
    {looking viewing : List (HostOperation ObjRef Rooted)} {supportsReuse : Bool}
    {buffers : StateViews Buffer} {kept : Option (StateViews Rooted)}
    {result : Except HostError (StateViews ObjRef)} (hsecured : bridge.Secured w.heap)
    (hlookup : Lookup bridge.config.names entry bridge.symbols looking (.ok f))
    (hviewing : Viewing supportsReuse buffers bridge.config.strategy bridge.reusable viewing
      result kept)
    (hrun : HeapRun code stack w (looking ++ .pin f :: viewing) u)
    (room : u.heap.table.Addressable) :
    HeapRun code stack (w.update fun h => h.pin f) viewing u ∧
      bridge.symbols.target bridge.config.names entry w.heap = .ok f ∧
      (w.heap.pin f).Holds (keptRefs bridge.reusable ++ f :: bridge.symbols.owed) ∧
      u.heap.Holds (keptRefs kept ++ (pinnedValues viewing ++ f :: bridge.symbols.owed)) := by
  -- looking changes nothing, so what was found is still there when it is pinned
  obtain ⟨htarget, hviews⟩ := hlookup.carries_pinned (fun _ _ _ hstep => hstep) hrun
  have hlive := Symbols.isLive_of_target htarget hsecured.holds fun r hr =>
    List.mem_append_right _ hr
  have hholds : (w.heap.pin f).Holds (keptRefs bridge.reusable ++ f :: bridge.symbols.owed) :=
    (hsecured.holds.pin hlive).perm List.perm_middle.symm
  exact ⟨hviews, htarget, hholds, hviewing.holds hholds hviews room⟩

/-- What is true when the user function is called. -/
structure AtCall (bridge : Bridge Rooted) (entry : Entry) (buffers : StateViews Buffer)
    (kept : Option (StateViews Rooted)) (f : ObjRef) (views : StateViews ObjRef)
    (w u : HeapWorld F ω) : Prop where
  /-- The function is the one that is to be found. -/
  target : bridge.symbols.target bridge.config.names entry w.heap = .ok f
  /-- Function and views are pinned, beside what the handles root. -/
  holds : u.heap.Holds (keptRefs kept ++ (views.toList ++ f :: bridge.symbols.owed))
  /-- The views show the arguments. -/
  shows : List.Forall₂ u.heap.Shows views.toList buffers.toList
  /-- No two handles lead to the same view. -/
  distinct : (keptRefs kept).Nodup
  /-- The handles of views lead to views. -/
  views_kept : ∀ r ∈ keptRefs kept, u.heap.ViewAt r

/-- **When the function is called, it is pinned, and so are the views, which show the
arguments.** -/
theorem atCall_of_viewing {bridge : Bridge Rooted} {entry : Entry} {f : ObjRef}
    {looking viewing : List (HostOperation ObjRef Rooted)} {supportsReuse : Bool}
    {buffers : StateViews Buffer} {kept : Option (StateViews Rooted)}
    {views : StateViews ObjRef} (hsecured : bridge.Secured w.heap)
    (hlookup : Lookup bridge.config.names entry bridge.symbols looking (.ok f))
    (hviewing : Viewing supportsReuse buffers bridge.config.strategy bridge.reusable viewing
      (.ok views) kept)
    (hrun : HeapRun code stack w (looking ++ .pin f :: viewing) u)
    (room : u.heap.table.Addressable) : AtCall bridge entry buffers kept f views w u := by
  have hforward := hrun.forward
  obtain ⟨hrun, htarget, hbefore, hholds⟩ :=
    holds_of_viewing hsecured hlookup hviewing hrun room
  obtain ⟨hshows, hdistinct, hkept⟩ := hviewing.shows hbefore hsecured.distinct hrun room
  rw [hviewing.pinnedValues_eq] at hholds
  refine ⟨htarget, hholds, hshows, hdistinct, fun r hr => ?_⟩
  -- handles are the old ones, or those of the views that were made just now
  rcases hkept with hkept | hkept
  · exact (hsecured.views r (hkept ▸ hr)).evolves hforward.1 room hsecured.holds.sound
      (hholds.isLive (List.mem_append_left _ hr))
  · obtain ⟨⟨_, ht⟩, ⟨_, hy⟩, ⟨_, hyp⟩⟩ := StateViews.forall₂_toList.mp hshows
    rw [hkept, StateViews.mem_toList] at hr
    rcases hr with rfl | rfl | rfl
    · exact ⟨_, _, ht⟩
    · exact ⟨_, _, hy⟩
    · exact ⟨_, _, hyp⟩

/-! ## On the heap itself -/

section Plain

variable {run : Runner F ω}

/-- The heap never fails to make views. -/
theorem Makes.exists_ok {buffers : List Buffer} {result : Except HostError (List ObjRef)}
    (h : Makes buffers ops result)
    (hrun : Carries (fun op => op.Performs (HeapWorld.runtime run)) w ops w') :
    ∃ views, result = .ok views := by
  induction h generalizing w with
  | nil => exact ⟨[], rfl⟩
  | failed =>
    obtain ⟨m, hfailed, -⟩ := hrun
    cases hfailed
  | made hrest ih =>
    obtain ⟨w₁, -, w₂, -, hrun⟩ := hrun
    obtain ⟨views, rfl⟩ := ih hrun
    exact ⟨_, rfl⟩

/-- The heap never fails to move views that are there. -/
theorem Moves.eq_ok {moves : List (ObjRef × Buffer)} {result : Except HostError Unit}
    (h : Moves moves ops result) (hviews : ∀ move ∈ moves, w.heap.ViewAt move.1)
    (hrun : Carries (fun op => op.Performs (HeapWorld.runtime run)) w ops w') :
    result = .ok () := by
  induction h generalizing w with
  | nil => rfl
  | @failed view buffer rest e =>
    rw [List.forall_mem_cons] at hviews
    obtain ⟨m, hfailed, -⟩ := hrun
    obtain ⟨heap, hrepoint, -⟩ := hviews.1.repoint buffer
    change HeapWorld.repoint view buffer w = (.error e, m) at hfailed
    simp [HeapWorld.repoint, hrepoint] at hfailed
  | @moved view buffer rest ops result hrest ih =>
    rw [List.forall_mem_cons] at hviews
    obtain ⟨w₁, hmoved, w₂, rfl, hrun⟩ := hrun
    obtain ⟨heap, hrepoint, hstay⟩ := hviews.1.repoint buffer
    change HeapWorld.repoint view buffer w = (.ok (), w₁) at hmoved
    simp only [HeapWorld.repoint, hrepoint] at hmoved
    cases hmoved
    exact ih (fun move hmem => (hstay _ (hviews.2 move hmem)).pin _) hrun

/-- The heap never fails to obtain views. -/
theorem Viewing.exists_ok {buffers : StateViews Buffer} {strategy : ViewStrategy}
    {kept kept' : Option (StateViews Rooted)} {result : Except HostError (StateViews ObjRef)}
    (h : Viewing true buffers strategy kept ops result kept')
    (hviews : strategy = .reuse → ∀ r ∈ keptRefs kept, w.heap.ViewAt r)
    (hrun : Carries (fun op => op.Performs (HeapWorld.runtime run)) w ops w') :
    ∃ views, result = .ok views := by
  cases h with
  | unmade hmakes =>
    obtain ⟨views, hviews⟩ := hmakes.exists_ok hrun
    cases hviews
  | fresh _ => exact ⟨_, rfl⟩
  | unsupported hsupports => cases hsupports
  | first _ _ => exact ⟨_, rfl⟩
  | @later _ views handles result _ hmoves =>
    obtain ⟨m, htaking, hmoving⟩ := carries_append.mp hrun
    obtain ⟨rfl, hrefs⟩ := attach_eq (htaking.mono fun _ _ _ _ hop => Or.inl hop)
    have hthere := hviews rfl
    rw [← hrefs] at hthere
    obtain rfl := hmoves.eq_ok (by simpa [StateViews.toList] using hthere) hmoving
    exact ⟨_, rfl⟩

/-- A function that the heap does not find is not to be found. -/
theorem Lookup.target_of_error {names : BindingNames} {entry : Entry} {symbols : Symbols Rooted}
    {e : BridgeError} (h : Lookup names entry symbols ops (.error e))
    (hrun : Carries (fun op => op.Performs (HeapWorld.runtime run)) w ops w') :
    symbols.target names entry w.heap = .error e := by
  unfold Symbols.target
  cases h with
  | unbound hhandle => simp only [hhandle]
  | unnamed hname => simp only [hname]
  | missing hname =>
    obtain ⟨m, hresolve, -⟩ := hrun
    have hfound : w.heap.lookup _ = none := (Prod.mk.inj hresolve).1
    simp only [hname, Heap.callable, hfound]
  | @mistyped name found value hname =>
    obtain ⟨m₁, hresolve, m₂, hcallable, m₃, htype, -⟩ := hrun
    obtain ⟨hfound, rfl⟩ := Prod.mk.inj hresolve
    obtain ⟨hkind, rfl⟩ := Prod.mk.inj hcallable
    obtain ⟨htitle, -⟩ := Prod.mk.inj htype
    have hother : w.heap.kind? value ≠ some "function" := by simpa using hkind
    simp only [hname, Heap.callable, hfound, if_neg hother, htitle]

/-- On the heap, once the function is found the views are obtained. -/
theorem exists_views {bridge : Bridge Rooted} {entry : Entry} {f : ObjRef}
    {looking viewing : List (HostOperation ObjRef Rooted)} {buffers : StateViews Buffer}
    {kept : Option (StateViews Rooted)} {result : Except HostError (StateViews ObjRef)}
    (hsecured : bridge.Secured w.heap)
    (hlookup : Lookup bridge.config.names entry bridge.symbols looking (.ok f))
    (hviewing : Viewing true buffers bridge.config.strategy bridge.reusable viewing result kept)
    (hrun : Carries (fun op => op.Performs (HeapWorld.runtime (Runner.ofStack code stack))) w
      (looking ++ .pin f :: viewing) u) : ∃ views, result = .ok views := by
  obtain ⟨-, hviews⟩ := hlookup.carries_pinned (heapBacked_runtime _) hrun
  exact hviewing.exists_ok (fun _ r hr => (hsecured.views r hr).pin f) hviews

end Plain

/-! ## Up to the end -/

/-- The step is one of the heap, and a call leaves pins, views and the names alone. -/
def TameStep (names : List String) (code : UserCode F I) (stack : List (Surroundings I ω))
    (op : HostOperation ObjRef Rooted) (w w' : HeapWorld F ω) : Prop :=
  HeapStep (Runner.ofStack code stack) op w w' ∧ (op.Calls → w.SparesAll names w')

/-- Each of the operations is a tame step. -/
abbrev TameRun (names : List String) (code : UserCode F I) (stack : List (Surroundings I ω))
    (w : HeapWorld F ω) (ops : List (HostOperation ObjRef Rooted)) (w' : HeapWorld F ω) : Prop :=
  Carries (TameStep names code stack) w ops w'

/-- The step is one of the heap, and a call keeps what is held. -/
def HeldStep (code : UserCode F I) (stack : List (Surroundings I ω))
    (op : HostOperation ObjRef Rooted) (w w' : HeapWorld F ω) : Prop :=
  HeapStep (Runner.ofStack code stack) op w w' ∧ (op.Calls → w.heap.KeepsHeld w'.heap)

/-- Each of the operations is a step whose calls keep what is held. -/
abbrev HeldRun (code : UserCode F I) (stack : List (Surroundings I ω)) (w : HeapWorld F ω)
    (ops : List (HostOperation ObjRef Rooted)) (w' : HeapWorld F ω) : Prop :=
  Carries (HeldStep code stack) w ops w'

theorem Carries.heapRun (h : HeldRun code stack w ops w') : HeapRun code stack w ops w' :=
  h.mono fun _ _ _ _ hstep => hstep.1

/-- Tame steps keep what is held. -/
theorem Carries.held {names : List String} (h : TameRun names code stack w ops w') :
    HeldRun code stack w ops w' :=
  h.mono fun _ _ _ _ hstep =>
    ⟨hstep.1, fun hcalls => .of_spares (hstep.2 hcalls).1 hstep.1.forward.1⟩

/-- What is held when the function is called is held when its result was read, and so is the
result. -/
theorem Answering.holds {f : ObjRef} {name : String}
    {views : StateViews ObjRef} {outLen : Nat} {res res' : Output}
    {outcome : Outcome BridgeError Unit}
    (h : Answering f name views outLen res ops outcome res') (hholds : w.heap.Holds base)
    (hrun : HeldRun code stack w ops w') (room : w'.heap.table.Addressable) :
    w'.heap.Holds (pinnedValues ops ++ base) := by
  rcases h.disciplined with ⟨stop, rfl⟩ | ⟨value, result, rfl⟩
  · obtain ⟨m, hcall, rfl⟩ := hrun
    exact (hcall.2 trivial).holds room hholds
  · -- between the call and the pin of its result nothing can happen
    obtain ⟨m₁, hcall, m₂, hpin, m₃, hread, rfl⟩ := hrun
    rw [hread.1.read] at room ⊢
    have room₁ := hpin.1.forward.1.addressable room
    rw [hpin.1.pin]
    exact ((hcall.2 trivial).holds room₁ hholds).pin hcall.1.isLive_result

/-- Retiring views changes no pins. -/
theorem holds_of_retires {views : List ObjRef} (hrun : HeapRun code stack w (views.map .retire) w')
    (hholds : w.heap.Holds base) : w'.heap.Holds base := by
  induction views generalizing w with
  | nil => exact hrun ▸ hholds
  | cons view rest ih =>
    obtain ⟨m, hretire, hrun⟩ := hrun
    refine ih hrun ?_
    rw [hretire.retire]
    exact hholds.retire view

/-- Undoing pins leaves the others. -/
theorem holds_of_unpins {values : List ObjRef} (hrun : HeapRun code stack w (values.map .unpin) w')
    (hholds : w.heap.Holds (values ++ base)) : w'.heap.Holds base := by
  induction values generalizing w with
  | nil => exact hrun ▸ hholds
  | cons value rest ih =>
    obtain ⟨m, hunpin, hrun⟩ := hrun
    refine ih hrun ?_
    rw [hunpin.unpin]
    exact hholds.unpin

/-- The closing of the guard undoes exactly the pins that the operations made. -/
theorem holds_of_closing (hrun : HeapRun code stack w (closing ops) w')
    (hholds : w.heap.Holds (pinnedValues ops ++ base)) : w'.heap.Holds base := by
  obtain ⟨m, hretires, hunpins⟩ := carries_append.mp hrun
  refine holds_of_unpins hunpins (holds_of_retires hretires (hholds.perm ?_))
  exact (List.reverse_perm _).symm.append_right _

/-- The bridge is secured after the closing if it is but for the pins of the invocation. -/
theorem secured_of_closing {bridge : Bridge Rooted}
    (hholds : u.heap.Holds (pinnedValues ops ++ bridge.owed))
    (hdistinct : (keptRefs bridge.reusable).Nodup)
    (hviews : ∀ r ∈ keptRefs bridge.reusable, u.heap.ViewAt r)
    (hrun : HeapRun code stack u (closing ops) w') (room : w'.heap.table.Addressable) :
    bridge.Secured w'.heap where
  holds := holds_of_closing hrun hholds
  distinct := hdistinct
  views r hr := (hviews r hr).evolves hrun.forward.1 room hholds.sound
    ((holds_of_closing hrun hholds).isLive (List.mem_append_left _ hr))

/-- Views that are not obtained are not kept. -/
theorem Viewing.kept_of_error {supportsReuse : Bool} {buffers : StateViews Buffer}
    {strategy : ViewStrategy} {kept kept' : Option (StateViews Rooted)} {e : HostError}
    (h : Viewing supportsReuse buffers strategy kept ops (.error e : Except _ (StateViews ObjRef))
      kept') : kept' = kept := by
  generalize hresult : (Except.error e : Except HostError (StateViews ObjRef)) = result at h
  cases h with
  | first _ _ => cases hresult
  | _ => rfl

/-- **An invocation leaves the bridge secured.** -/
theorem Opening.secured {supportsReuse : Bool} {bridge after : Bridge Rooted}
    {entry : Entry} {admission : Admission} {res res' : Output} {outcome : Outcome BridgeError Unit}
    (h : Opening supportsReuse bridge entry admission res ops outcome after.reusable res')
    (hsymbols : after.symbols = bridge.symbols) (hsecured : bridge.Secured w.heap)
    (hrun : HeldRun code stack w (ops ++ closing ops) w')
    (room : w'.heap.table.Addressable) : after.Secured w'.heap := by
  obtain ⟨u, hopening, hclosing⟩ := carries_append.mp hrun
  have hclosing := hclosing.heapRun
  have room' := hclosing.forward.1.addressable room
  -- on each way out, what is pinned is what the closing undoes, beside what is owed
  generalize hkept : after.reusable = kept at h
  cases h with
  | unfound hlookup =>
    obtain ⟨rfl, -⟩ := hlookup.target_eq hopening.heapRun
    have hpinned : pinnedValues ops = [] :=
      pinnedValues_eq_nil fun op hop => (hlookup.idle op hop).2
    refine secured_of_closing ?_ (hkept ▸ hsecured.distinct) (hkept ▸ hsecured.views) hclosing room
    rw [hpinned]
    simpa only [Bridge.owed, hkept, hsymbols, List.nil_append] using hsecured.holds
  | @unseen looking viewing f e _ hlookup hviewing =>
    obtain ⟨-, -, -, hholds⟩ :=
      holds_of_viewing hsecured hlookup hviewing hopening.heapRun room'
    have hpinned : pinnedValues (looking ++ .pin f :: viewing) = f :: pinnedValues viewing := by
      rw [pinnedValues_append, pinnedValues_eq_nil fun op hop => (hlookup.idle op hop).2]
      rfl
    refine secured_of_closing ?_ ?_ ?_ hclosing room
    · rw [hpinned]
      refine hholds.of_count_le fun r => ?_
      simp only [Bridge.owed, hkept, hsymbols, List.count_append, List.count_cons]
      omega
    · rw [hkept, hviewing.kept_of_error]
      exact hsecured.distinct
    · intro r hr
      rw [hkept] at hr
      refine (hsecured.views r (hviewing.kept_of_error ▸ hr)).evolves hopening.heapRun.forward.1
        room' hsecured.holds.sound (hholds.isLive (List.mem_append_left _ hr))
  | @asked looking viewing asking f views _ _ _ hlookup hviewing hanswering =>
    have hsplit : looking ++ .pin f :: (viewing ++ asking) =
        (looking ++ .pin f :: viewing) ++ asking := by simp
    obtain ⟨m, hbefore, hafter⟩ := carries_append.mp (hsplit ▸ hopening)
    have room'' := hafter.heapRun.forward.1.addressable room'
    have hcall := atCall_of_viewing hsecured hlookup hviewing hbefore.heapRun room''
    have hholds := hanswering.holds hcall.holds hafter room'
    have hpinned : pinnedValues (looking ++ .pin f :: (viewing ++ asking)) =
        f :: (views.toList ++ pinnedValues asking) := by
      rw [pinnedValues_append, pinnedValues_eq_nil fun op hop => (hlookup.idle op hop).2]
      simp [pinned?, hviewing.pinnedValues_eq]
    refine secured_of_closing ?_ (hkept ▸ hcall.distinct) ?_ hclosing room
    · rw [hpinned]
      refine hholds.of_count_le fun r => ?_
      simp only [Bridge.owed, hkept, hsymbols, List.count_append, List.count_cons]
      omega
    · intro r hr
      rw [hkept] at hr
      exact (hcall.views_kept r hr).evolves hafter.heapRun.forward.1 room' hcall.holds.sound
        (hholds.isLive (List.mem_append_right _ (List.mem_append_left _ hr)))

end Invocation

end CallbackBridge
