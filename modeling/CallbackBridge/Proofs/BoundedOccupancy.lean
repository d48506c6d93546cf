/-
# The heap does not grow with the number of invocations

What an invocation needs for itself is given back: three views at most, and the result of a
function of slices.  So a session whose functions are functions of slices does not fill the heap:
there are never more objects than when it began, three more, and one for each allocation from one
collection to the next (`liveObjects_bounded`).

* `HeapStep.occupied_call` says that a call of such a function allocates once at most, and
  `Opening.occupied` follows an invocation by the grammar of its operations: where an object is
  allocated, the views that are owed are three at most.
* `Continues.occupied` is the invariant of a session: beside what was there when it began only the
  views that are kept are owed.
* `not_forall_liveObjects_bounded` says what the bound needs of others: a name that is bound in
  advance, or a pin of the client, keeps a view that no invocation owes.
-/
import CallbackBridge.Proofs.Occupancy
import CallbackBridge.Proofs.StandingViews
import CallbackBridge.Proofs.Wiring
namespace CallbackBridge

open HostOperation

variable {F ω : Type} {I : Interface}

/-! ## Calls of functions of slices -/

/-- An allocation in the only call in progress is as one outside, once the call has ended. -/
theorem Heap.alloc_inScope {h : Heap F} (hscopes : h.scopes = []) (object : Object F) :
    Heap.closeScope (h.openScope.alloc object).2 = (h.alloc object).2 := by
  have hprepare : h.openScope.prepare = h.prepare.openScope := by
    by_cases hdue : 0 < h.config.collectEvery ∧
        (h.stats.allocations + 1) % h.config.collectEvery = 0
    · rw [show h.prepare = _ from if_pos hdue]
      exact if_pos hdue
    · rw [show h.prepare = _ from if_neg hdue]
      exact if_neg hdue
  have hnone : h.prepare.scopes = [] := (Heap.scopes_prepare h).trans hscopes
  unfold Heap.alloc
  rw [hprepare]
  generalize h.prepare = m at hnone
  obtain ⟨table, globals, scopes, config, stats⟩ := m
  cases (hnone : scopes = [])
  rfl

/-- A program goes on from where it was if its first part changes nothing, or it ends there. -/
theorem Program.execute_bind_of_unchanged {σ ε α β : Type} {Command : Type}
    {Reply : Command → Type} {handle : (command : Command) → Act σ ε (Reply command)} {s : σ}
    {P : σ → Prop} {p : Program Command Reply ε α} {next : α → Program Command Reply ε β}
    (hp : ∃ result, (p.execute handle).start s = (result, s)) (hstop : P s)
    (hnext : ∀ a, P (((next a).execute handle).start s).2) :
    P (((p >>= next).execute handle).start s).2 := by
  obtain ⟨result, hresult⟩ := hp
  rw [Program.start_execute_bind, hresult]
  cases result with
  | error stop => exact hstop
  | ok a => exact hnext a

/-- The world is as before, but for one array that may have been allocated. -/
def HeapWorld.AllocatesOnce (w v : HeapWorld F ω) : Prop :=
  v = w ∨ ∃ out, v = w.update fun h => (h.alloc (.array out)).2

/-- A function of slices allocates its result, or nothing if it gives none, on any machine. -/
theorem allocatesOnce_ofSlices {code : UserCode F I} {function : F} {args : StateViews ObjRef}
    {g : SliceFunction} (hcode : code function args = UserCode.ofSlices g args)
    (stack : List (Surroundings I ω)) (w : HeapWorld F ω) :
    w.AllocatesOnce ((Runner.ofStack code stack function args).start w).2 := by
  cases stack with
  | nil => exact Or.inl rfl
  | cons surroundings stack =>
    have hread : ∀ r, ∃ result, ((UserCode.ofSlices.readOrFail r : HeapProgram F I _).execute
        (HeapWorld.answer surroundings (Runner.ofStack code stack))).start w = (result, w) := by
      intro r
      unfold UserCode.ofSlices.readOrFail
      have hask : ((HeapCommand.read r : HeapCommand F I).ask.execute
          (HeapWorld.answer surroundings (Runner.ofStack code stack))).start w =
            (.ok (w.heap.read w.memory r), w) := rfl
      rw [Program.start_execute_bind, hask]
      cases w.heap.read w.memory r with
      | error e => exact ⟨_, rfl⟩
      | ok values => exact ⟨_, rfl⟩
    unfold Runner.ofStack Runner.level
    rw [hcode]
    unfold UserCode.ofSlices
    -- each argument that cannot be read is the end
    have hstop : w.AllocatesOnce w := Or.inl rfl
    refine Program.execute_bind_of_unchanged (P := w.AllocatesOnce) (hread _) hstop fun t => ?_
    refine Program.execute_bind_of_unchanged (P := w.AllocatesOnce) (hread _) hstop fun y => ?_
    refine Program.execute_bind_of_unchanged (P := w.AllocatesOnce) (hread _) hstop fun yp => ?_
    cases g t y yp with
    | ok out => exact Or.inr ⟨out, rfl⟩
    | error stop => cases stop <;> exact Or.inl rfl

/-! ## The function that is found -/

/-- Nothing becomes a function that was none. -/
theorem Object.Remains.eq_function {object : Object F} {function : NativeFunction F}
    (h : object.Remains (.function function)) : object = .function function := by
  cases object with
  | view view =>
    obtain ⟨_, hview⟩ := h
    cases hview
  | _ => exact Eq.symm h

/-- What a name leads to that can be called is what it led to at first. -/
theorem Heap.Occupied.callable {base h : Heap F} {owed : List ObjRef} {name : String} {f : ObjRef}
    (hocc : h.Occupied base owed) (room : h.table.Addressable) (hf : h.callable name = .ok f) :
    base.callable name = .ok f := by
  obtain ⟨hlookup, function, pins, hentry⟩ := Heap.entry?_of_callable hf
  obtain ⟨hname, -⟩ := Option.filter_eq_some_iff.mp hlookup
  have hissued := hocc.named f (NameMap.mem_values_of_find? hname)
  obtain ⟨⟨object, pins'⟩, hold, hremains⟩ := hocc.evolves.inherited room hocc.sound hissued hentry
  cases Object.Remains.eq_function hremains
  have hold : base.entry? f = some ⟨.function function, pins'⟩ := hold
  have hlookup' : base.lookup name = some f := by
    rw [Heap.lookup, hocc.bound name f hname, Option.filter_some,
      if_pos (Heap.isLive_of_eq_some hold)]
  have hkind : base.kind? f = some "function" := by
    rw [Heap.kind?, hold]
    rfl
  simp only [Heap.callable, hlookup', hkind, if_true]

/-- What is found for an entry point was found at first. -/
theorem Heap.Occupied.target {base h : Heap F} {owed : List ObjRef} {symbols : Symbols Rooted}
    {names : BindingNames} {entry : Entry} {f : ObjRef} (hocc : h.Occupied base owed)
    (room : h.table.Addressable) (hf : symbols.target names entry h = .ok f) :
    symbols.target names entry base = .ok f := by
  cases symbols with
  | bound bindings => exact hf
  | perCall =>
    unfold Symbols.target at hf ⊢
    simp only at hf ⊢
    cases hname : names.name? entry with
    | none =>
      rw [hname] at hf
      cases hf
    | some name =>
      rw [hname] at hf
      exact hocc.callable room hf

/-! ## Operations of a host -/

section Steps

variable {base : Heap F} {owed few rest : List ObjRef} {code : UserCode F I}
  {stack : List (Surroundings I ω)} {w w' : HeapWorld F ω}
  {ops : List (HostOperation ObjRef Rooted)}

/-- A function of slices needs room for its result. -/
theorem HeapStep.occupied_call {f : ObjRef} {views : StateViews ObjRef}
    {outcome : Outcome HostError ObjRef} {g : SliceFunction}
    (h : HeapStep (Runner.ofStack code stack) (.call f views outcome) w w')
    (happlies : base.Applies code g f) (hocc : w.heap.Occupied base owed)
    (hfew : few.length ≤ 3) (howed : ∀ r ∈ owed, base.table.Issued r ∨ r ∈ few)
    (room : w'.heap.table.Addressable) : w'.heap.Occupied base owed := by
  rcases h.call with hcall | ⟨-, rfl⟩
  · rcases HeapWorld.call_cases (Runner.ofStack code stack) f views w with
      ⟨e, -, heq⟩ | ⟨arg, -, -, heq⟩ | ⟨function, hf, hargs⟩
    · cases heq.symm.trans hcall
      exact hocc
    · cases heq.symm.trans hcall
      exact hocc
    · have hroom := h.forward.1.addressable room
      obtain ⟨pins, hentry⟩ := Heap.entry?_of_function hf
      have hthere := happlies.evolves hocc.evolves hroom hocc.sound
        (Heap.isLive_of_eq_some hentry)
      have hbody := allocatesOnce_ofSlices (hthere.code_eq hf views) stack
        (w.update Heap.openScope)
      rw [HeapWorld.start_call_entered _ hf hargs] at hcall
      obtain ⟨-, rfl⟩ := Prod.mk.inj hcall
      rcases hbody with hsame | ⟨out, hmade⟩
      · rw [hsame]
        exact hocc
      · rw [hmade] at room ⊢
        have hafter : (((w.update Heap.openScope).update fun h => (h.alloc (.array out)).2).update
            Heap.closeScope).heap = (w.heap.alloc (.array out)).2 :=
          Heap.alloc_inScope hocc.scopes (.array out)
        rw [hafter] at room ⊢
        exact hocc.alloc (.array out) room hfew howed
  · exact hocc

/-- Views that are made are owed, and there is room for them. -/
theorem Makes.occupied {buffers : List Buffer} {result : Except HostError (List ObjRef)}
    (h : Makes buffers ops result) (hocc : w.heap.Occupied base owed)
    (hfew : few.length + buffers.length ≤ 3)
    (howed : ∀ r ∈ owed, base.table.Issued r ∨ r ∈ few) (hrun : HeapRun code stack w ops w')
    (room : w'.heap.table.Addressable) :
    w'.heap.Occupied base (pinnedValues ops ++ owed) := by
  -- each view that is made is one of the few for those after it
  induction h generalizing w owed few with
  | nil => exact hrun ▸ hocc
  | failed =>
    obtain ⟨m, hfailed, rfl⟩ := hrun
    rw [hfailed.materialize_error]
    exact hocc
  | @made buffer rest view ops result hrest ih =>
    obtain ⟨w₁, hmade, w₂, hpin, hrun⟩ := hrun
    have room₂ := hrun.forward.1.addressable room
    have room₁ := hpin.forward.1.addressable room₂
    rw [List.length_cons] at hfew
    obtain ⟨-, rfl⟩ := hmade.materialize
    have hocc₁ := hocc.alloc (.view buffer) room₁ (by omega) howed
    rw [hpin.pin] at room₂ hrun
    have hocc₂ := hocc₁.pin view room₂
    have howed₂ : ∀ r ∈ view :: owed, base.table.Issued r ∨ r ∈ view :: few :=
      List.forall_mem_cons.mpr ⟨Or.inr List.mem_cons_self, fun r hr =>
        (howed r hr).imp_right (List.mem_cons_of_mem _)⟩
    have hfew₂ : (view :: few).length + rest.length ≤ 3 := by
      rw [List.length_cons]
      omega
    refine (ih hocc₂ hfew₂ howed₂ hrun).of_perm ?_
    rw [pinnedValues_cons, pinnedValues_cons]
    exact List.perm_middle

/-- Views that are moved are owed, each once more. -/
theorem Moves.occupied {moves : List (ObjRef × Buffer)} {result : Except HostError Unit}
    (h : Moves moves ops result) (hocc : w.heap.Occupied base owed)
    (hrun : HeapRun code stack w ops w') (room : w'.heap.table.Addressable) :
    w'.heap.Occupied base (pinnedValues ops ++ owed) := by
  induction h generalizing w owed with
  | nil => exact hrun ▸ hocc
  | failed =>
    obtain ⟨m, hfailed, rfl⟩ := hrun
    rw [hfailed.repoint_error]
    exact hocc
  | @moved view buffer rest ops result hrest ih =>
    obtain ⟨w₁, hmoved, w₂, hpin, hrun⟩ := hrun
    have room₂ := hrun.forward.1.addressable room
    have room₁ := hpin.forward.1.addressable room₂
    obtain ⟨heap, hrepoint, rfl⟩ := hmoved.repoint
    have hdoes : w.heap.Does (.repoint view buffer) heap := hrepoint
    rw [hpin.pin] at room₂ hrun
    have hocc₂ := Heap.Occupied.pin (hocc.does hdoes trivial room₁) _ room₂
    refine (ih hocc₂ hrun).of_perm ?_
    rw [pinnedValues_cons, pinnedValues_cons]
    exact List.perm_middle

/-- Views that are obtained are owed, and once more if handles to them are kept. -/
theorem Viewing.occupied {supportsReuse : Bool} {buffers : StateViews Buffer}
    {strategy : ViewStrategy} {kept kept' : Option (StateViews Rooted)}
    {result : Except HostError (StateViews ObjRef)}
    (h : Viewing supportsReuse buffers strategy kept ops result kept')
    (hfresh : strategy = .fresh → kept = none) (hrest : ∀ r ∈ rest, base.table.Issued r)
    (hocc : w.heap.Occupied base (keptRefs kept ++ rest)) (hrun : HeapRun code stack w ops w')
    (room : w'.heap.table.Addressable) :
    w'.heap.Occupied base (keptRefs kept' ++ (pinnedValues ops ++ rest)) := by
  have hknown : ∀ r ∈ keptRefs none ++ rest, base.table.Issued r ∨ r ∈ [] :=
    fun r hr => Or.inl (hrest r hr)
  have hthree : ([] : List ObjRef).length + buffers.toList.length ≤ 3 := Nat.le_refl 3
  cases h with
  | unmade hmakes hnew =>
    have hnone : kept = none := by
      cases strategy with
      | fresh => exact hfresh rfl
      | reuse => exact hnew rfl
    subst hnone
    exact hmakes.occupied hocc hthree hknown hrun room
  | fresh hmakes =>
    cases hfresh rfl
    exact hmakes.occupied hocc hthree hknown hrun room
  | unsupported _ => exact hrun ▸ hocc
  | @first making views handles _ hmakes =>
    obtain ⟨m, hmaking, hkeeping⟩ := carries_append.mp hrun
    have hroom := hkeeping.forward.1.addressable room
    have hmade := hmakes.occupied hocc hthree hknown hmaking hroom
    rw [hmakes.pinnedValues_eq] at hmade
    obtain ⟨rfl, hhandles⟩ := persist_eq hkeeping
    -- each of the three views is pinned once more
    have roomy := Table.addressable_of_modify room
    have hpinned := ((hmade.pin views.t (Table.addressable_of_modify roomy)).pin views.y roomy).pin
      views.yp room
    refine hpinned.of_count_le fun r => ?_
    rw [hhandles, pinnedValues_append, hmakes.pinnedValues_eq]
    simp only [keptRefs, StateViews.toList, List.count_append, List.count_cons, List.count_nil,
      pinnedValues_cons, pinnedValues_nil, pinned?, Option.toList]
    omega
  | later _ hmoves =>
    obtain ⟨m, htaking, hmoving⟩ := carries_append.mp hrun
    obtain ⟨rfl, -⟩ := attach_eq htaking
    exact (hmoves.occupied hocc hmoving room).of_perm (List.perm_append_comm_assoc _ _ _)

/-- Where views are obtained, all views that are kept are among them. -/
theorem Viewing.mem_of_kept {supportsReuse : Bool} {buffers : StateViews Buffer}
    {strategy : ViewStrategy} {kept kept' : Option (StateViews Rooted)} {views : StateViews ObjRef}
    (h : Viewing supportsReuse buffers strategy kept ops (.ok views) kept')
    (hfresh : strategy = .fresh → kept = none) (hrun : HeapRun code stack w ops w') :
    ∀ r ∈ keptRefs kept', r ∈ views.toList := by
  generalize hresult : Except.ok views = result at h
  cases h with
  | unmade _ _ => cases hresult
  | fresh _ =>
    cases hfresh rfl
    exact fun r hr => nomatch hr
  | unsupported _ => cases hresult
  | first _ _ =>
    cases hresult
    obtain ⟨m, -, hkeeping⟩ := carries_append.mp hrun
    exact fun r hr => (persist_eq hkeeping).2 ▸ hr
  | @later _ moved _ result _ _ =>
    cases result with
    | error e => cases hresult
    | ok _ =>
      cases hresult
      obtain ⟨m, htaking, -⟩ := carries_append.mp hrun
      exact fun r hr => (attach_eq htaking).2 ▸ hr

/-- Fresh views are not kept. -/
theorem Viewing.kept_of_fresh {supportsReuse : Bool} {buffers : StateViews Buffer}
    {kept kept' : Option (StateViews Rooted)} {result : Except HostError (StateViews ObjRef)}
    (h : Viewing supportsReuse buffers .fresh kept ops result kept') : kept' = kept := by
  cases h <;> rfl

/-- Calling a function of slices and delivering its result needs room for the result. -/
theorem Answering.occupied {f : ObjRef} {name : String} {views : StateViews ObjRef} {outLen : Nat}
    {res res' : Output} {outcome : Outcome BridgeError Unit} {g : SliceFunction}
    (h : Answering f name views outLen res ops outcome res') (happlies : base.Applies code g f)
    (hocc : w.heap.Occupied base owed)
    (howed : ∀ r ∈ owed, base.table.Issued r ∨ r ∈ views.toList)
    (hrun : HeapRun code stack w ops w') (room : w'.heap.table.Addressable) :
    w'.heap.Occupied base (pinnedValues ops ++ owed) := by
  have hthree : views.toList.length ≤ 3 := Nat.le_refl 3
  rcases h.disciplined with ⟨stop, rfl⟩ | ⟨value, result, rfl⟩
  · obtain ⟨m, hcall, rfl⟩ := hrun
    exact hcall.occupied_call happlies hocc hthree howed room
  · obtain ⟨m₁, hcall, m₂, hpin, m₃, hread, rfl⟩ := hrun
    rw [hread.read] at room ⊢
    have room₁ := hpin.forward.1.addressable room
    rw [hpin.pin] at room ⊢
    exact (hcall.occupied_call happlies hocc hthree howed room₁).pin value room

/-- Retiring views leaves what is owed. -/
theorem occupied_of_retires {views : List ObjRef}
    (hrun : HeapRun code stack w (views.map .retire) w') (hocc : w.heap.Occupied base owed)
    (room : w'.heap.table.Addressable) : w'.heap.Occupied base owed := by
  induction views generalizing w with
  | nil => exact hrun ▸ hocc
  | cons view rest ih =>
    obtain ⟨m, hretire, hrun⟩ := hrun
    have hroom := hrun.forward.1.addressable room
    refine ih hrun ?_
    rw [hretire.retire] at hroom ⊢
    exact hocc.does (show w.heap.Does (.retire view) (w.heap.retire view) from rfl) trivial hroom

/-- Pins that are undone are owed no more. -/
theorem occupied_of_unpins {values : List ObjRef}
    (hrun : HeapRun code stack w (values.map .unpin) w')
    (hocc : w.heap.Occupied base (values ++ owed)) (room : w'.heap.table.Addressable) :
    w'.heap.Occupied base owed := by
  induction values generalizing w with
  | nil => exact hrun ▸ hocc
  | cons value rest ih =>
    obtain ⟨m, hunpin, hrun⟩ := hrun
    have hroom := hrun.forward.1.addressable room
    refine ih hrun ?_
    rw [hunpin.unpin] at hroom ⊢
    exact Heap.Occupied.unpin hocc hroom

/-- **The closing of the guard leaves what was owed before the invocation.** -/
theorem occupied_of_closing (hrun : HeapRun code stack w (closing ops) w')
    (hocc : w.heap.Occupied base (pinnedValues ops ++ owed)) (room : w'.heap.table.Addressable) :
    w'.heap.Occupied base owed := by
  obtain ⟨m, hretires, hunpins⟩ := carries_append.mp hrun
  have hreversed := hocc.of_perm ((List.reverse_perm _).symm.append_right _)
  have hretired := occupied_of_retires hretires hreversed (hunpins.forward.1.addressable room)
  exact occupied_of_unpins hunpins hretired room

section Openings

variable {supportsReuse : Bool} {bridge : Bridge Rooted} {entry : Entry} {admission : Admission}
  {res res' : Output} {outcome : Outcome BridgeError Unit} {kept : Option (StateViews Rooted)}

/-- The function is found and pinned, and then views are obtained, or not. -/
theorem occupied_of_viewing {looking viewing : List (HostOperation ObjRef Rooted)} {f : ObjRef}
    {buffers : StateViews Buffer} {result : Except HostError (StateViews ObjRef)}
    (hfresh : bridge.config.strategy = .fresh → bridge.reusable = none)
    (hslices : ∀ f, bridge.symbols.target bridge.config.names entry base = .ok f →
      ∃ g, base.Applies code g f)
    (hocc : w.heap.Occupied base (keptRefs bridge.reusable))
    (hlookup : Lookup bridge.config.names entry bridge.symbols looking (.ok f))
    (hviewing : Viewing supportsReuse buffers bridge.config.strategy bridge.reusable viewing
      result kept)
    (hrun : HeapRun code stack w (looking ++ .pin f :: viewing) w')
    (room : w'.heap.table.Addressable) :
    HeapRun code stack (w.update fun h => h.pin f) viewing w' ∧
      (∃ g, base.Applies code g f) ∧ base.table.Issued f ∧
      w'.heap.Occupied base (keptRefs kept ++ (pinnedValues viewing ++ [f])) := by
  obtain ⟨htarget, hviews⟩ := hlookup.carries_pinned (fun _ _ _ hstep => hstep) hrun
  obtain ⟨g, happlies⟩ :=
    hslices f (hocc.target (hrun.forward.1.addressable room) htarget)
  have hissued := Heap.issued_of_isLive happlies.isLive
  have hpinned := (hocc.pin f (hviews.forward.1.addressable room)).of_perm
    (List.perm_append_singleton f _).symm
  exact ⟨hviews, ⟨g, happlies⟩, hissued,
    hviewing.occupied hfresh (by simpa using hissued) hpinned hviews room⟩

/-- **An invocation that calls a function of slices leaves the heap occupied as before**, but for
views that it keeps. -/
theorem Opening.occupied {ops : List (HostOperation ObjRef Rooted)}
    (h : Opening supportsReuse bridge entry admission res ops outcome kept res')
    (hfresh : bridge.config.strategy = .fresh → bridge.reusable = none)
    (hslices : ∀ f, bridge.symbols.target bridge.config.names entry base = .ok f →
      ∃ g, base.Applies code g f)
    (hocc : w.heap.Occupied base (keptRefs bridge.reusable))
    (hrun : HeapRun code stack w (ops ++ closing ops) w') (room : w'.heap.table.Addressable) :
    w'.heap.Occupied base (keptRefs kept) ∧
      (bridge.config.strategy = .fresh → kept = none) := by
  obtain ⟨u, hopening, hclosing⟩ := carries_append.mp hrun
  have room' := hclosing.forward.1.addressable room
  have hkept : ∀ {viewing : List (HostOperation ObjRef Rooted)}
      {result : Except HostError (StateViews ObjRef)},
      Viewing supportsReuse admission.buffers bridge.config.strategy bridge.reusable viewing result
        kept → bridge.config.strategy = .fresh → kept = none := by
    intro viewing result hviewing hstrategy
    rw [hstrategy] at hviewing
    exact hviewing.kept_of_fresh.trans (hfresh hstrategy)
  -- on each way out, what is owed beside the views that are kept is what the closing undoes
  cases h with
  | unfound hlookup =>
    obtain ⟨rfl, -⟩ := hlookup.target_eq hopening
    have hpinned : pinnedValues ops = [] :=
      pinnedValues_eq_nil fun op hop => (hlookup.idle op hop).2
    refine ⟨occupied_of_closing hclosing ?_ room, hfresh⟩
    rw [hpinned]
    exact hocc
  | @unseen looking viewing f e _ hlookup hviewing =>
    obtain ⟨-, -, -, hseen⟩ :=
      occupied_of_viewing hfresh hslices hocc hlookup hviewing hopening room'
    refine ⟨occupied_of_closing hclosing (hseen.of_count_le fun r => ?_) room, hkept hviewing⟩
    rw [pinnedValues_append, pinnedValues_eq_nil fun op hop => (hlookup.idle op hop).2]
    simp only [pinnedValues_cons, pinned?, Option.toList, List.count_append, List.count_cons,
      List.count_nil]
    omega
  | @asked looking viewing asking f views _ _ _ hlookup hviewing hanswering =>
    have hsplit : looking ++ .pin f :: (viewing ++ asking) =
        (looking ++ .pin f :: viewing) ++ asking := by simp
    obtain ⟨m, hbefore, hafter⟩ := carries_append.mp (hsplit ▸ hopening)
    have room'' := hafter.forward.1.addressable room'
    obtain ⟨hviews, ⟨g, happlies⟩, hissued, hseen⟩ :=
      occupied_of_viewing hfresh hslices hocc hlookup hviewing hbefore room''
    have howed : ∀ r ∈ keptRefs kept ++ (pinnedValues viewing ++ [f]),
        base.table.Issued r ∨ r ∈ views.toList := by
      intro r hr
      rw [hviewing.pinnedValues_eq, List.mem_append, List.mem_append, List.mem_singleton] at hr
      rcases hr with hr | hr | rfl
      · exact Or.inr (hviewing.mem_of_kept hfresh hviews r hr)
      · exact Or.inr hr
      · exact Or.inl hissued
    have hended := hanswering.occupied happlies hseen howed hafter room'
    refine ⟨occupied_of_closing hclosing (hended.of_count_le fun r => ?_) room, hkept hviewing⟩
    rw [pinnedValues_append, pinnedValues_eq_nil fun op hop => (hlookup.idle op hop).2]
    simp only [pinnedValues_cons, pinnedValues_append, pinned?, Option.toList, List.count_append,
      List.count_cons, List.count_nil]
    omega

end Openings

/-- **So does every invocation, on any host that is backed by the heap and however it ends.** -/
theorem Bridge.occupied_evaluate {σ : Type} {host : HostRuntime σ ObjRef Rooted}
    {world : σ → HeapWorld F ω} (hhost : HeapBacked (Runner.ofStack code stack) host world)
    (bridge : Bridge Rooted) (entry : Entry) (call : Invocation) (s : σ)
    (hfresh : bridge.config.strategy = .fresh → bridge.reusable = none)
    (hslices : ∀ f, bridge.symbols.target bridge.config.names entry base = .ok f →
      ∃ g, base.Applies code g f)
    (hocc : (world s).heap.Occupied base (keptRefs bridge.reusable))
    (room : (world (bridge.evaluate host entry call s).host).heap.table.Addressable) :
    (world (bridge.evaluate host entry call s).host).heap.Occupied base
        (keptRefs (bridge.evaluate host entry call s).bridge.reusable) ∧
      (bridge.config.strategy = .fresh →
        (bridge.evaluate host entry call s).bridge.reusable = none) := by
  have hconducted := bridge.evaluate_traced host entry call s
  have hrun := hconducted.chain.carries hhost
  cases hcheck : bridge.config.check entry call with
  | error e =>
    rw [evaluate_of_rejected hcheck]
    exact ⟨hocc, hfresh⟩
  | ok admission =>
    obtain ⟨opening, hopening, hops⟩ := hconducted.admitted admission hcheck
    rw [show (bridge.trace host entry call s).map Moment.operation = _ from hops] at hrun
    exact hopening.occupied hfresh hslices hocc hrun room

end Steps

/-! ## Programs of the client -/

/-- The command allocates nothing, keeps nothing from being collected, and runs no code. -/
def HeapCommand.SparesRoom : HeapCommand F I → Prop
  | array _ => False
  | text _ => False
  | function _ => False
  | materialize _ => False
  | define _ _ => False
  | pin _ => False
  | call _ _ => False
  | direct _ _ => False
  | _ => True

/-- All that such a command does leaves room. -/
theorem HeapCommand.SparesRoom.commandLog {command : HeapCommand F I} (h : command.SparesRoom)
    (below : Journal F ω) (w : HeapWorld F ω) :
    ∀ event ∈ HeapWorld.commandLog below w command, event.SparesRoom ∧ ∀ r, event ≠ .pin r := by
  intro event hevent
  unfold HeapWorld.commandLog at hevent
  cases command with
  | repoint r buffer =>
    simp only at hevent
    split at hevent
    · cases List.mem_singleton.mp hevent
      exact ⟨trivial, nofun⟩
    · cases hevent
  | undefine name =>
    cases List.mem_singleton.mp hevent
    exact ⟨trivial, nofun⟩
  | collect =>
    cases List.mem_singleton.mp hevent
    exact ⟨trivial, nofun⟩
  | unpin r =>
    cases List.mem_singleton.mp hevent
    exact ⟨trivial, nofun⟩
  | retire r =>
    cases List.mem_singleton.mp hevent
    exact ⟨trivial, nofun⟩
  | lookup name => cases hevent
  | read r => cases hevent
  | inspect r => cases hevent
  | outside command => cases hevent
  | _ => exact h.elim

/-- So does all that a program of such commands does. -/
theorem Program.All.sparesRoom_log {α : Type} {p : HeapProgram F I α}
    (hp : p.All HeapCommand.SparesRoom) (surroundings : Surroundings I ω) (run : Runner F ω)
    (below : Journal F ω) (w : HeapWorld F ω) :
    ∀ event ∈ p.log surroundings run below w, event.SparesRoom ∧ ∀ r, event ≠ .pin r := by
  induction p generalizing w with
  | done outcome =>
    intro event hevent
    cases hevent
  | ask command next ih =>
    unfold Program.log
    refine List.forall_mem_append.mpr ⟨hp.1.commandLog below w, ?_⟩
    cases hanswer : (HeapWorld.answer surroundings run command).start w with
    | mk outcome w' =>
      cases outcome with
      | error stop =>
        intro event hevent
        cases hevent
      | ok reply => exact ih reply (hp.2 reply) w'

/-! ## Sessions -/

section Sessions

variable {code : UserCode F I} {begun session : Session (HeapWorld F ω) Rooted}
  {history : History}

/-- Each function that the bridge of the session finds is a function of slices. -/
def Session.OfSlices (code : UserCode F I) (session : Session (HeapWorld F ω) Rooted) : Prop :=
  ∀ entry f, session.bridge.symbols.target session.bridge.config.names entry
    session.host.heap = .ok f → ∃ g, session.host.heap.Applies code g f

/-- **Whatever happens in a session whose functions are functions of slices, the heap is occupied
by what was there when it began and the views that are kept**, as long as nothing else allocates. -/
theorem Continues.occupied (h : Continues code HeapCommand.SparesRoom begun history session)
    (hslices : begun.OfSlices code)
    (hbegun : begun.host.heap.table.Addressable →
      begun.host.heap.Occupied begun.host.heap [] ∧ begun.bridge.reusable = none)
    (room : session.host.heap.table.Addressable) :
    session.host.heap.Occupied begun.host.heap (keptRefs session.bridge.reusable) ∧
      (session.bridge.config.strategy = .fresh → session.bridge.reusable = none) := by
  induction h with
  | start =>
    obtain ⟨hocc, hnone⟩ := hbegun room
    rw [hnone]
    exact ⟨hocc, fun _ => rfl⟩
  | @client _ _ session surroundings stack program _ hprogram ih =>
    have hruns := (HeapWorld.actsByLogs code stack session.host).client surroundings program
    obtain ⟨hocc, hfresh⟩ := ih (hruns.evolves.addressable room)
    exact ⟨hocc.runs hruns (hprogram.sparesRoom_log surroundings _ _ _) room, hfresh⟩
  | elapses _ _ ih => exact ih room
  | @enters _ _ session host world s windows call entry stack hcontinues hhost hexpose ih =>
    have hheap : (world s).heap = session.host.heap := by
      rw [(HeapWorld.exposed_of_expose hexpose).1]
    have room' := (session.bridge.forward_evaluate hhost entry call s).1.addressable room
    obtain ⟨hocc, hfresh⟩ := ih (hheap ▸ room')
    obtain ⟨hconfig, hsymbols⟩ := hcontinues.config_symbols
    obtain ⟨hended, hkept⟩ := session.bridge.occupied_evaluate hhost entry call s hfresh
      (fun f hf => hslices entry f (by rw [← hconfig, ← hsymbols]; exact hf)) (hheap ▸ hocc) room
    refine ⟨hended, ?_⟩
    rw [(session.bridge.config_symbols_evaluate host entry call s).1]
    exact hkept

/-- A heap that a program has built has no call in progress. -/
theorem Built.scopes {w : HeapWorld F ω} (h : Built code w) : w.heap.scopes = [] := by
  cases h with
  | @program α config memory outside surroundings stack program =>
    obtain ⟨new, hnew⟩ := (runClosed_sameScopes (I := I)).execute
      ((runClosed_sameScopes (I := I)).runner (fun f args => (code f args).all_true) stack)
      surroundings program.all_true ⟨Heap.ofConfig config, memory, outside⟩
    exact hnew

/-- Beginning a session on such a heap begins no call. -/
theorem Begun.scopes {w : HeapWorld F ω} (h : Begun w begun) :
    begun.host.heap.scopes = w.heap.scopes := by
  cases h with
  | @bound _ bindings _ =>
    obtain ⟨residual, event⟩ := bindings
    cases event <;> rfl
  | perCall => rfl

/-- A session that begins occupies nothing. -/
theorem Begins.occupied {w : HeapWorld F ω} {stack : List (Surroundings I ω)}
    (hbuilt : Built code w) (hbegins : Begins (Runner.ofStack code stack) w begun)
    (hissued : ∀ r ∈ begun.host.heap.globals.values, begun.host.heap.table.Issued r)
    (room : begun.host.heap.table.Addressable) :
    begun.host.heap.Occupied begun.host.heap [] := by
  have hreaches : Reaches code HeapCommand.SparesRoom {} begun := .begins hbuilt hbegins .start
  obtain ⟨config, log, hruns⟩ := hreaches.exists_runs
  have hcounted := hruns.taken_eq room Table.sound_empty rfl
  refine ⟨hreaches.sound room, hcounted, .refl _, rfl, hbegins.begun.scopes.trans hbuilt.scopes,
    fun _ _ => id, hissued, hcounted, fun r e he hnew => ?_, by omega⟩
  exact (hnew (Table.issued_of_get? he)).elim

/-- **The heap does not grow with the number of invocations.**  Take any heap that a program has
built and that collects before every so-many-th allocation, and any session that begins on it,
with fresh views or with views that are kept, whose functions are found at setup, in every
invocation, or are given, and are functions of slices.  Whatever invocations it has had then, with
any arguments, on hosts that are backed by the heap and may fail at any operation, and however
these invocations ended: as long as nothing else allocates or keeps objects from being collected,
there are at most three more objects than at first, and one for each allocation from one
collection to the next.

Names are to lead to what the heap has handed out, as a name that is bound in advance would keep
a view.  References are 32-bit words, so this holds as long as the heap has no more places than
there are numbers. -/
theorem liveObjects_bounded {w : HeapWorld F ω} {stack : List (Surroundings I ω)}
    (hbuilt : Built code w) (hbegins : Begins (Runner.ofStack code stack) w begun)
    (hslices : begun.OfSlices code)
    (hissued : ∀ r ∈ begun.host.heap.globals.values, begun.host.heap.table.Issued r)
    (hcollects : 0 < begun.host.heap.config.collectEvery)
    (hcontinues : Continues code HeapCommand.SparesRoom begun history session)
    (room : session.host.heap.table.Addressable) :
    session.host.heap.liveObjects ≤
      begun.host.heap.liveObjects + 3 + begun.host.heap.config.collectEvery := by
  have hnone : begun.bridge.reusable = none := by
    cases hbegins.begun <;> rfl
  obtain ⟨hocc, -⟩ := hcontinues.occupied hslices
    (fun room => ⟨hbegins.occupied hbuilt hissued room, hnone⟩) room
  have hbounded := hocc.bounded
  have hlate := Nat.mod_lt session.host.heap.stats.allocations hcollects
  omega

end Sessions

/-- A session with the bridge of this one is of functions of slices if it finds the function. -/
theorem Renewed.ofSlices_of_target {session : Session (HeapWorld Unit Unit) Rooted}
    (hbridge : session.bridge = Renewed.session.bridge)
    (hfound : session.bridge.symbols.target session.bridge.config.names .residual
      session.host.heap = .ok ⟨0, 0⟩)
    (hentry : session.host.heap.entry? ⟨0, 0⟩ = some ⟨.function ⟨"echo", ()⟩, 0⟩) :
    session.OfSlices Echo.code := by
  intro entry f hf
  cases entry with
  | residual =>
    cases hfound.symm.trans hf
    exact ⟨_, ⟨"echo", ()⟩, 0, hentry, fun _ => rfl⟩
  | event =>
    rw [hbridge] at hf
    cases hf

/-- The function that the small session with fresh views finds is a function of slices. -/
theorem Renewed.ofSlices : Renewed.session.OfSlices Echo.code :=
  Renewed.ofSlices_of_target rfl rfl rfl

/-- The only name leads to this function. -/
theorem Renewed.issued : ∀ r ∈ Renewed.session.host.heap.globals.values,
    Renewed.session.host.heap.table.Issued r := by
  have hnamed : Renewed.session.host.heap.globals.values = [⟨0, 0⟩] := by decide +kernel
  rw [hnamed, List.forall_mem_singleton]
  exact Heap.issued_of_isLive (by decide +kernel)

/-- With a collection before each allocation and fresh views, the small session has five objects
after each of its first two invocations: the function, three views and a result. -/
theorem liveObjects_bounded_renewed :
    Renewed.session.host.heap.liveObjects = 1 ∧ Renewed.served.host.heap.liveObjects = 5 ∧
      (Renewed.enter Renewed.served).after.host.heap.liveObjects = 5 ∧
      (Renewed.enter Renewed.served).after.host.heap.liveObjects ≤
        Renewed.session.host.heap.liveObjects + 3 +
          Renewed.session.host.heap.config.collectEvery := by
  have hbuilt : Built Echo.code Renewed.world := .program
  refine ⟨by decide +kernel, by decide +kernel, by decide +kernel, ?_⟩
  refine liveObjects_bounded hbuilt Renewed.begins Renewed.ofSlices Renewed.issued
    (by decide +kernel)
    ((Renewed.enter Renewed.served).continues ((Renewed.enter Renewed.session).continues .start)) ?_
  decide +kernel

/-! ## Views that others keep

A name can be bound to a reference that the heap has not handed out yet, to one of another heap,
say.  The view that is given this reference is then kept by the name, and the next invocation makes
one more.  A client that pins a view between two invocations allocates nothing, and yet it has the
same effect. -/

/-- The command allocates nothing and runs no code. -/
def HeapCommand.TakesNoPlace : HeapCommand F I → Prop
  | array _ => False
  | text _ => False
  | function _ => False
  | materialize _ => False
  | call _ _ => False
  | direct _ _ => False
  | _ => True

namespace Prebound

/-- Defines the function, and binds a name to the reference that will be the next. -/
def setUp : HeapProgram Unit Echo.interface Unit := do
  Echo.setUp
  discard (HeapCommand.define "x" ⟨1, 0⟩).ask

/-- The heap with the function and the name, which collects before each allocation. -/
def world : HeapWorld Unit Unit :=
  HeapWorld.perform Echo.surroundings Echo.run setUp ⟨Heap.ofConfig .stress, {}, ()⟩

/-- A session with fresh views. -/
def session : Session (HeapWorld Unit Unit) Rooted := ⟨world, Renewed.session.bridge⟩

/-- The session after its first invocation. -/
def served : Session (HeapWorld Unit Unit) Rooted := (Renewed.enter session).after

/-- The session begins on a heap that a program has built. -/
theorem begins : Begins Echo.run world session :=
  .resolved (.perCall (Bridge.resolvePerCall_of_validate (by decide)))

end Prebound

namespace Renewed

/-- The session with fresh views after its first invocation, when the client has pinned the first
view. -/
def pinned : Session (HeapWorld Unit Unit) Rooted :=
  ⟨HeapWorld.perform Echo.surroundings Echo.run (HeapCommand.pin ⟨1, 0⟩).ask served.host,
    served.bridge⟩

/-- The client has allocated nothing. -/
theorem continues_pinned : Continues Echo.code HeapCommand.TakesNoPlace session
    (History.after {} (enter session).call (enter session).operations) pinned :=
  .client ((enter session).continues .start) ⟨trivial, fun _ => trivial⟩

end Renewed

/-- So the heap is not bounded like this whatever its names lead to, nor if the client allocates
nothing but may pin: in either session there are six objects after two invocations, and one at
first. -/
theorem not_forall_liveObjects_bounded :
    (¬ ∀ (w : HeapWorld Unit Unit) (begun session : Session (HeapWorld Unit Unit) Rooted)
      (history : History), Built Echo.code w → Begins Echo.run w begun →
      begun.OfSlices Echo.code → 0 < begun.host.heap.config.collectEvery →
      Continues Echo.code HeapCommand.SparesRoom begun history session →
      session.host.heap.table.Addressable →
      session.host.heap.liveObjects ≤
        begun.host.heap.liveObjects + 3 + begun.host.heap.config.collectEvery) ∧
    ¬ ∀ (w : HeapWorld Unit Unit) (begun session : Session (HeapWorld Unit Unit) Rooted)
      (history : History), Built Echo.code w → Begins Echo.run w begun →
      begun.OfSlices Echo.code →
      (∀ r ∈ begun.host.heap.globals.values, begun.host.heap.table.Issued r) →
      0 < begun.host.heap.config.collectEvery →
      Continues Echo.code HeapCommand.TakesNoPlace begun history session →
      session.host.heap.table.Addressable →
      session.host.heap.liveObjects ≤
        begun.host.heap.liveObjects + 3 + begun.host.heap.config.collectEvery := by
  constructor
  · intro hclaim
    have hfirst : Prebound.session.host.heap.liveObjects = 1 := by decide +kernel
    have hevery : Prebound.session.host.heap.config.collectEvery = 1 := by decide +kernel
    have hlast : (Renewed.enter Prebound.served).after.host.heap.liveObjects = 6 := by
      decide +kernel
    have hcontinues : Continues Echo.code HeapCommand.SparesRoom Prebound.session _
        (Renewed.enter Prebound.served).after :=
      (Renewed.enter _).continues ((Renewed.enter Prebound.session).continues .start)
    have hbound := hclaim Prebound.world Prebound.session (Renewed.enter Prebound.served).after _
      .program Prebound.begins (Renewed.ofSlices_of_target rfl rfl rfl) (by omega) hcontinues
      (by decide +kernel)
    omega
  · intro hclaim
    have hfirst : Renewed.session.host.heap.liveObjects = 1 := by decide +kernel
    have hevery : Renewed.session.host.heap.config.collectEvery = 1 := by decide +kernel
    have hlast : (Renewed.enter Renewed.pinned).after.host.heap.liveObjects = 6 := by
      decide +kernel
    have hbound := hclaim Renewed.world Renewed.session (Renewed.enter Renewed.pinned).after _
      .program Renewed.begins Renewed.ofSlices Renewed.issued (by omega)
      ((Renewed.enter Renewed.pinned).continues Renewed.continues_pinned) (by decide +kernel)
    omega

end CallbackBridge
