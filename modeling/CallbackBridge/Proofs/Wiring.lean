/-
# Names that lead to functions of slices

A function of slices is the code that reads its three arguments, applies a pure function
and allocates the result.  `Symbols.Finds` says that an entry point finds such a function,
by its handle or by its name, or finds none.

Nothing that happens beside it changes that: an object that is there stays a function, what
a handle roots is pinned, and what a name is bound to stays there as long as the name is
(`Heap.Steady`).
-/
import CallbackBridge.Proofs.CallSites
namespace CallbackBridge

open HostOperation

variable {F ω : Type} {I : Interface}

/-! ## Functions of slices -/

/-- A pure function of three slices, which may give a list, fail or panic. -/
abbrev SliceFunction : Type :=
  List Binary64 → List Binary64 → List Binary64 → Outcome String (List Binary64)

/-- The reference leads to a function that applies the given one to its arguments. -/
def Heap.Applies (code : UserCode F I) (h : Heap F) (g : SliceFunction) (r : ObjRef) : Prop :=
  ∃ function pins, h.entry? r = some ⟨.function function, pins⟩ ∧
    ∀ args, code function.code args = UserCode.ofSlices g args

namespace Heap.Applies

variable {code : UserCode F I} {h h' : Heap F} {g : SliceFunction} {r : ObjRef}

theorem isLive (happlies : h.Applies code g r) : h.isLive r := by
  obtain ⟨function, pins, hentry, -⟩ := happlies
  exact Heap.isLive_of_eq_some hentry

/-- As long as it is there, it is the same function. -/
theorem evolves (happlies : h.Applies code g r)
    (hev : h.table.Evolves HeapEntry.fixedSorts h'.table) (room : h'.table.Addressable)
    (hs : h.table.Sound) (hlive : h'.isLive r) : h'.Applies code g r := by
  obtain ⟨function, pins, hentry, hcode⟩ := happlies
  obtain ⟨⟨object, pins'⟩, hentry', hsame⟩ := hev.exists_change room hs hentry hlive
  cases (hsame : object = _)
  exact ⟨function, pins', hentry', hcode⟩

/-- What is called applies the function. -/
theorem code_eq (happlies : h.Applies code g r) {function : NativeFunction F}
    (hf : h.function r = .ok function) (args : StateViews ObjRef) :
    code function.code args = UserCode.ofSlices g args := by
  obtain ⟨function', pins, hentry, hcode⟩ := happlies
  rw [Heap.function_eq_ok hentry] at hf
  cases hf
  exact hcode args

end Heap.Applies

/-- How a function of slices runs that can read its arguments. -/
theorem start_ofSlices (surroundings : Surroundings I ω) (run : Runner F ω) (g : SliceFunction)
    {args : StateViews ObjRef} {w : HeapWorld F ω} {t y yp : List Binary64}
    (ht : w.heap.read w.memory args.t = .ok t) (hy : w.heap.read w.memory args.y = .ok y)
    (hyp : w.heap.read w.memory args.yp = .ok yp) :
    ((UserCode.ofSlices g args).execute (HeapWorld.answer surroundings run)).start w =
      match g t y yp with
      | .ok out => (.ok (w.heap.alloc (.array out)).1,
          w.update fun h => (h.alloc (.array out)).2)
      | .error (.error reason) => (.error (.error (.userFailure reason)), w)
      | .error (.panic message) => (.error (.panic message), w) := by
  have hread : ∀ {r : ObjRef} {values : List Binary64}, w.heap.read w.memory r = .ok values →
      ((UserCode.ofSlices.readOrFail r : HeapProgram F I _).execute
        (HeapWorld.answer surroundings run)).start w = (.ok values, w) := by
    intro r values hr
    unfold UserCode.ofSlices.readOrFail
    have hask : ((HeapCommand.read r : HeapCommand F I).ask.execute
        (HeapWorld.answer surroundings run)).start w = (.ok (w.heap.read w.memory r), w) := rfl
    rw [Program.start_execute_bind, hask, hr]
    rfl
  unfold UserCode.ofSlices
  simp only [Program.start_execute_bind, hread ht, hread hy, hread hyp]
  cases g t y yp with
  | ok out => rfl
  | error stop => cases stop <;> rfl

/-- The array that a function of slices gives is there and can be read. -/
theorem Heap.read_alloc_array {h : Heap F} {values : List Binary64} (hs : h.table.Sound)
    (room : (h.alloc (.array values)).2.table.Addressable) (m : Memory) :
    (h.alloc (.array values)).2.isLive (h.alloc (.array values)).1 ∧
      (h.alloc (.array values)).2.read m (h.alloc (.array values)).1 = .ok values := by
  obtain ⟨hentry, -⟩ := Heap.entry?_alloc_self room hs
  refine ⟨Heap.isLive_of_eq_some hentry, ?_⟩
  simp only [Heap.read, Heap.entry, hentry]
  rfl

/-- A function of slices leaves pins, views and names alone, on any machine. -/
theorem sparesAll_ofSlices (names : List String) {code : UserCode F I} {function : F}
    {args : StateViews ObjRef} {g : SliceFunction}
    (hcode : code function args = UserCode.ofSlices g args) (stack : List (Surroundings I ω))
    (w : HeapWorld F ω) :
    w.SparesAll names ((Runner.ofStack code stack function args).start w).2 := by
  cases stack with
  | nil => exact .refl w
  | cons surroundings stack =>
    have hall : (code function args).All fun command =>
        (command.SparesRoots ∧ command.SparesNames names) ∧ ¬ command.Enters := by
      rw [hcode]
      exact UserCode.all_ofSlices (fun _ => ⟨⟨trivial, trivial⟩, id⟩)
        (fun _ => ⟨⟨trivial, trivial⟩, id⟩) g args
    exact (runClosed_sparesAll names).execute_plain _ surroundings hall w

/-! ## Names that stay -/

/-- The heap `h'` comes from `h` in a way that leaves the names alone: they are bound to what
they were bound to, and that is still there. -/
structure Heap.Steady (names : List String) (h h' : Heap F) : Prop where
  /-- Objects remain what they are. -/
  evolves : h.table.Evolves HeapEntry.fixedSorts h'.table
  /-- The names are bound to what they were bound to. -/
  bound : ∀ name ∈ names, h'.globals.find? name = h.globals.find? name
  /-- What they are bound to stays. -/
  stays : h'.table.Addressable → h.table.Sound → ∀ name ∈ names, ∀ r,
    h.globals.find? name = some r → h.isLive r → h'.isLive r

namespace Heap.Steady

variable {names : List String} {h h' h'' : Heap F}

/-- Changes in place take nothing away. -/
theorem of_isLive (hev : h.table.Evolves HeapEntry.fixedSorts h'.table)
    (hglobals : h'.globals = h.globals) (hlive : ∀ r, h.isLive r → h'.isLive r) :
    Steady names h h' where
  evolves := hev
  bound _ _ := by rw [hglobals]
  stays _ _ _ _ r _ := hlive r

theorem refl (h : Heap F) : Steady names h h := of_isLive (.refl _) rfl fun _ => id

theorem trans (h₁ : Steady names h h') (h₂ : Steady names h' h'') : Steady names h h'' where
  evolves := h₁.evolves.trans h₂.evolves
  bound name hname := (h₂.bound name hname).trans (h₁.bound name hname)
  stays room hs name hname r hr hlive := by
    have room' := h₂.evolves.addressable room
    exact h₂.stays room (h₁.evolves.sound room' hs) name hname r
      ((h₁.bound name hname).trans hr) (h₁.stays room' hs name hname r hr hlive)

/-- What user code leaves alone stays. -/
theorem of_spares (hspares : Spares names h h') : Steady names h h' where
  evolves := hspares.evolves.mono (fun hsame => hsame ▸ Object.Remains.refl _) fun _ => trivial
  bound := hspares.bound
  stays room hs name hname r hr hlive := by
    obtain ⟨e, he⟩ := Option.isSome_iff_exists.mp hlive
    exact isLive_of_eq_some (hspares.kept room hs he (Or.inr (Or.inr ⟨name, hname, hr⟩)))

end Heap.Steady

/-- A tame step leaves the names alone. -/
theorem TameStep.steady {names : List String} {code : UserCode F I}
    {stack : List (Surroundings I ω)} {op : HostOperation ObjRef Rooted} {w w' : HeapWorld F ω}
    (h : TameStep names code stack op w w') : w.heap.Steady names w'.heap := by
  obtain ⟨hstep, hcall⟩ := h
  have hforward := hstep.forward.1
  cases hstep.effect with
  | idle _ => exact .refl _
  | pins _ r => exact .of_isLive hforward rfl fun q hq => (Heap.isLive_of_modify rfl q).trans hq
  | unpins _ r => exact .of_isLive hforward rfl fun q hq => (Heap.isLive_of_modify rfl q).trans hq
  | makes => exact .of_spares (.alloc _ _)
  | moves hrepoint =>
    -- a view that is moved stays where it is
    obtain ⟨-, rfl⟩ := Heap.repoint_eq_ok hrepoint
    exact .of_isLive hforward rfl fun q hq => (Heap.isLive_of_modify rfl q).trans hq
  | @retires view =>
    refine .of_isLive hforward (w.heap.globals_retire view) fun q hq => ?_
    rcases w.heap.retire_cases view with ⟨seen, pins, -, htable⟩ | ⟨-, heq⟩
    · exact (Heap.isLive_of_modify htable q).trans hq
    · exact (congrArg (fun h : Heap F => h.isLive q) heq).trans hq
  | runs _ => exact .of_spares (hcall trivial).1

/-- Tame steps that follow each other leave the names alone. -/
theorem TameRun.steady {names : List String} {code : UserCode F I}
    {stack : List (Surroundings I ω)} {ops : List (HostOperation ObjRef Rooted)}
    {w w' : HeapWorld F ω} (h : TameRun names code stack w ops w') :
    w.heap.Steady names w'.heap :=
  h.relates (P := fun w w' => w.heap.Steady names w'.heap) (fun _ => .refl _) .trans
    fun _ _ _ _ hstep => hstep.steady

/-! ## What an entry point finds -/

/-- The names that lead to functions. -/
def BindingNames.reserved (names : BindingNames) : List String :=
  names.residual :: names.event.toList

theorem BindingNames.mem_reserved {names : BindingNames} {entry : Entry} {name : String}
    (h : names.name? entry = some name) : name ∈ names.reserved := by
  cases entry with
  | residual =>
    cases h
    exact List.mem_cons_self
  | event => simp [reserved, show names.event = some name from h]

/-- The name of the entry point is bound to the function of slices, or to nothing if there is
none. -/
def Heap.Binds (code : UserCode F I) (names : BindingNames) (h : Heap F) (entry : Entry) :
    Option SliceFunction → Prop
  | none => ∀ name, names.name? entry = some name → h.globals.find? name = none
  | some g => ∃ name r, names.name? entry = some name ∧ h.globals.find? name = some r ∧
      h.Applies code g r

/-- The entry point finds the function of slices, or nothing if there is none. -/
def Symbols.Finds (code : UserCode F I) (symbols : Symbols Rooted) (names : BindingNames)
    (h : Heap F) (entry : Entry) (slices : Option SliceFunction) : Prop :=
  match symbols, slices with
  | .bound bindings, none => bindings.handle? entry = none
  | .bound bindings, some g =>
    ∃ handle, bindings.handle? entry = some handle ∧ h.Applies code g handle.ref
  | .perCall, slices => h.Binds code names entry slices

section Finding

variable {code : UserCode F I} {names : BindingNames} {h h' : Heap F} {entry : Entry}
  {g : SliceFunction}

/-- A name that is bound to a function of slices leads to it. -/
theorem Heap.Applies.callable {name : String} {r : ObjRef} (happlies : h.Applies code g r)
    (hname : h.globals.find? name = some r) : h.callable name = .ok r := by
  have hlookup : h.lookup name = some r := by
    rw [Heap.lookup, hname, Option.filter_some, if_pos happlies.isLive]
  obtain ⟨function, pins, hentry, -⟩ := happlies
  have hkind : h.kind? r = some "function" := by
    rw [Heap.kind?, hentry]
    rfl
  simp only [Heap.callable, hlookup, hkind, if_true]

/-- A name that is not bound leads nowhere. -/
theorem Heap.callable_of_unbound {name : String} (hname : h.globals.find? name = none) :
    h.callable name = .error (.unresolvedBinding name) := by
  simp [Heap.callable, Heap.lookup, hname]

/-- The function of slices is found. -/
theorem Symbols.Finds.target {symbols : Symbols Rooted}
    (hfinds : symbols.Finds code names h entry (some g)) :
    ∃ r, symbols.target names entry h = .ok r ∧ h.Applies code g r := by
  cases symbols with
  | bound bindings =>
    obtain ⟨handle, hhandle, happlies⟩ := hfinds
    exact ⟨handle.ref, by simp only [Symbols.target, hhandle], happlies⟩
  | perCall =>
    obtain ⟨name, r, hname, hfind, happlies⟩ := hfinds
    exact ⟨r, by simp only [Symbols.target, hname, happlies.callable hfind], happlies⟩

/-- Where there is no function, that is the error. -/
theorem Symbols.Finds.target_none {symbols : Symbols Rooted}
    (hfinds : symbols.Finds code names h entry none) :
    symbols.target names entry h = .error (.unresolvedBinding (names.reported entry)) := by
  cases symbols with
  | bound bindings =>
    have hhandle : bindings.handle? entry = none := hfinds
    simp only [Symbols.target, hhandle]
  | perCall =>
    cases hname : names.name? entry with
    | none => simp only [Symbols.target, hname]
    | some name =>
      have hreported : names.reported entry = name := by
        cases entry with
        | residual => exact Option.some_inj.mp hname
        | event => simp [BindingNames.reported, BindingNames.eventName,
            show names.event = some name from hname]
      simp only [Symbols.target, hname, Heap.callable_of_unbound (hfinds name hname), hreported]

/-- What is found goes on being found where the names are left alone and what handles root
stays. -/
theorem Symbols.Finds.steady {symbols : Symbols Rooted} {slices : Option SliceFunction}
    {owed : List ObjRef} (hfinds : symbols.Finds code names h entry slices)
    (hsteady : h.Steady names.reserved h') (room : h'.table.Addressable) (hs : h.table.Sound)
    (hholds : h'.Holds owed) (howed : ∀ r ∈ symbols.owed, r ∈ owed) :
    symbols.Finds code names h' entry slices := by
  cases symbols with
  | bound bindings =>
    cases slices with
    | none => exact hfinds
    | some g =>
      obtain ⟨handle, hhandle, happlies⟩ := hfinds
      exact ⟨handle, hhandle, happlies.evolves hsteady.evolves room hs
        (hholds.isLive (howed _ (mem_owed hhandle)))⟩
  | perCall =>
    cases slices with
    | none =>
      intro name hname
      rw [hsteady.bound name (BindingNames.mem_reserved hname)]
      exact hfinds name hname
    | some g =>
      obtain ⟨name, r, hname, hfind, happlies⟩ := hfinds
      have hmem := BindingNames.mem_reserved hname
      refine ⟨name, r, hname, (hsteady.bound name hmem).trans hfind, ?_⟩
      exact happlies.evolves hsteady.evolves room hs
        (hsteady.stays room hs name hmem r hfind happlies.isLive)

end Finding

/-! ## Invocations that call functions of slices -/

section Invocation

variable {code : UserCode F I} {stack : List (Surroundings I ω)} {names : List String}

/-- Operations that call nothing are tame. -/
theorem Carries.tame {ops : List (HostOperation ObjRef Rooted)} {w w' : HeapWorld F ω}
    (hrun : HeapRun code stack w ops w') (hops : ∀ op ∈ ops, ¬ op.Calls) :
    TameRun names code stack w ops w' :=
  hrun.mono fun op hop _ _ hstep => ⟨hstep, fun hcalls => (hops op hop hcalls).elim⟩

/-- The operations of an invocation that calls a function of slices are tame. -/
theorem Opening.tame {supportsReuse : Bool} {bridge : Bridge Rooted} {entry : Entry}
    {admission : Admission} {res res' : Output} {ops : List (HostOperation ObjRef Rooted)}
    {outcome : Outcome BridgeError Unit} {kept : Option (StateViews Rooted)}
    {w w' : HeapWorld F ω} (h : Opening supportsReuse bridge entry admission res ops outcome kept
      res')
    (htarget : ∀ f, bridge.symbols.target bridge.config.names entry w.heap = .ok f →
      ∃ g, w.heap.Applies code g f)
    (hs : w.heap.table.Sound) (hrun : HeapRun code stack w (ops ++ closing ops) w')
    (room : w'.heap.table.Addressable) : TameRun names code stack w (ops ++ closing ops) w' := by
  obtain ⟨u, hopening, hclosing⟩ := carries_append.mp hrun
  refine carries_append.mpr ⟨u, ?_, hclosing.tame (closing_calls_nothing ops)⟩
  have room := hclosing.forward.1.addressable room
  cases h with
  | unfound hlookup => exact hopening.tame fun op hop => (hlookup.looks op hop).excludes.2.2.1
  | unseen hlookup hviewing => exact hopening.tame (hlookup.calls_nothing hviewing)
  | @asked looking viewing asking f views _ _ _ hlookup hviewing hanswering =>
    obtain ⟨result, rest, rfl, hrest⟩ := hanswering.exists_call
    have hsplit : looking ++ .pin f :: (viewing ++ .call f views result :: rest) =
        (looking ++ .pin f :: viewing) ++ .call f views result :: rest := by simp
    rw [hsplit] at hopening ⊢
    obtain ⟨v, hbefore, v', hcall, hafter⟩ := carries_append.mp hopening
    refine carries_append.mpr ⟨v, hbefore.tame (hlookup.calls_nothing hviewing), v',
      ⟨hcall, fun _ => ?_⟩, hafter.tame hrest⟩
    -- the function that is called was found at the beginning
    obtain ⟨m, hlooking, -⟩ := carries_append.mp hbefore
    obtain ⟨g, happlies⟩ := htarget f ((hlookup.target_eq hlooking).2 f rfl)
    have room' := hcall.forward.1.addressable (hafter.forward.1.addressable room)
    refine hcall.sparesAll fun function hf => ?_
    obtain ⟨pins, hentry⟩ := Heap.entry?_of_function hf
    have hsame := happlies.evolves hbefore.forward.1 room' hs (Heap.isLive_of_eq_some hentry)
    exact sparesAll_ofSlices names (hsame.code_eq hf views) stack

/-- So are those of an invocation on any host that is backed by the heap. -/
theorem Bridge.tame_operations {σ : Type} {host : HostRuntime σ ObjRef Rooted}
    {world : σ → HeapWorld F ω} {bridge : Bridge Rooted} {entry : Entry} {call : Invocation} {s : σ}
    (hhost : HeapBacked (Runner.ofStack code stack) host world)
    (htarget : ∀ f, bridge.symbols.target bridge.config.names entry (world s).heap = .ok f →
      ∃ g, (world s).heap.Applies code g f)
    (hs : (world s).heap.table.Sound)
    (room : (world (bridge.evaluate host entry call s).host).heap.table.Addressable) :
    TameRun names code stack (world s) (bridge.operations host entry call s)
      (world (bridge.evaluate host entry call s).host) := by
  have hconducted := bridge.evaluate_traced host entry call s
  have hrun : HeapRun code stack (world s) (bridge.operations host entry call s)
      (world (bridge.evaluate host entry call s).host) := hconducted.chain.carries hhost
  cases hcheck : bridge.config.check entry call with
  | error e =>
    refine hrun.tame ?_
    rw [hconducted.rejected e hcheck]
    simp
  | ok admission =>
    obtain ⟨opening, hopening, hops⟩ := hconducted.admitted admission hcheck
    rw [hops] at hrun ⊢
    exact hopening.tame htarget hs hrun room

end Invocation

end CallbackBridge
