/-
# Which function runs

A bridge that looks its names up at setup runs, in every invocation, what the names were
bound to then; a bridge that looks them up per call runs what the name is bound to when the
invocation begins.  Either way, user code may bind and unbind any names, allocate and collect
as it likes: the function that runs was pinned before anything else could happen, so it is
there until the invocation ends, and a new binding is noticed by later invocations only
(`functions_resolved`).

`Heap.Finds` says what a name leads to, in terms of bindings and objects; it is what the
search of the bridge finds (`Symbols.target_perCall_iff`, `Heap.target_of_bindings`).
-/
import CallbackBridge.Proofs.Accounts
import CallbackBridge.Proofs.Bodies
namespace CallbackBridge

open HostOperation

variable {F ω : Type} {I : Interface}

/-! ## What a name leads to -/

/-- What is to be found in the heap for an entry point. -/
inductive Heap.Finds (h : Heap F) (names : BindingNames) (entry : Entry) :
    Except BridgeError ObjRef → Prop where
  /-- There is no name to look up. -/
  | unnamed (hname : names.name? entry = none) :
      Finds h names entry (.error (.unresolvedBinding (names.reported entry)))
  /-- The name is not bound. -/
  | unbound {name : String} (hname : names.name? entry = some name)
      (hunbound : h.globals.find? name = none) :
      Finds h names entry (.error (.unresolvedBinding name))
  /-- What the name is bound to is gone. -/
  | gone {name : String} {r : ObjRef} (hname : names.name? entry = some name)
      (hbound : h.globals.find? name = some r) (hgone : h.entry? r = none) :
      Finds h names entry (.error (.unresolvedBinding name))
  /-- What the name is bound to is not a function. -/
  | mistyped {name : String} {r : ObjRef} {object : Object F} {pins : Nat}
      (hname : names.name? entry = some name) (hbound : h.globals.find? name = some r)
      (hentry : h.entry? r = some ⟨object, pins⟩) (hother : ∀ f, object ≠ .function f) :
      Finds h names entry (.error (.typeMismatch name "callable" object.kind))
  /-- The name is bound to a function. -/
  | function {name : String} {r : ObjRef} {f : NativeFunction F} {pins : Nat}
      (hname : names.name? entry = some name) (hbound : h.globals.find? name = some r)
      (hentry : h.entry? r = some ⟨.function f, pins⟩) : Finds h names entry (.ok r)

section Finding

variable {h : Heap F} {names : BindingNames} {entry : Entry} {f : ObjRef}
  {result : Except BridgeError ObjRef}

/-- Only functions have the kind of functions. -/
theorem Object.kind_eq_function_iff {object : Object F} :
    object.kind = "function" ↔ ∃ f, object = .function f := by
  cases object <;> simp [Object.kind]

/-- What is found that can be called is a function. -/
theorem Heap.Finds.exists_function (hfinds : h.Finds names entry (.ok f)) :
    ∃ function, h.function f = .ok function := by
  cases hfinds with
  | function hname hbound hentry => exact ⟨_, Heap.function_eq_ok hentry⟩

/-- A lookup that is made per call finds what is to be found. -/
theorem Symbols.target_of_finds (hfinds : h.Finds names entry result) :
    Symbols.perCall.target names entry h = result := by
  unfold target
  cases hfinds with
  | unnamed hname => simp only [hname]
  | @unbound name hname hunbound =>
    have hlookup : h.lookup name = none := by simp [Heap.lookup, hunbound]
    simp only [hname, Heap.callable, hlookup]
  | @gone name r hname hbound hgone =>
    have hlookup : h.lookup name = none := by simp [Heap.lookup, hbound, Heap.isLive, hgone]
    simp only [hname, Heap.callable, hlookup]
  | @mistyped name r object pins hname hbound hentry hother =>
    have hlookup : h.lookup name = some r := by simp [Heap.lookup, hbound, Heap.isLive, hentry]
    have hkind : h.kind? r = some object.kind := by simp [Heap.kind?, hentry]
    have hnot : ¬ object.kind = "function" := fun hfunction =>
      (Object.kind_eq_function_iff.mp hfunction).elim hother
    simp [hname, Heap.callable, hlookup, hkind, hnot]
  | @function name r f pins hname hbound hentry =>
    have hlookup : h.lookup name = some r := by simp [Heap.lookup, hbound, Heap.isLive, hentry]
    have hkind : h.kind? r = some "function" := by simp [Heap.kind?, hentry, Object.kind]
    simp [hname, Heap.callable, hlookup, hkind]

/-- There is always something to be found, be it an error. -/
theorem Heap.exists_finds (h : Heap F) (names : BindingNames) (entry : Entry) :
    ∃ result, h.Finds names entry result := by
  cases hname : names.name? entry with
  | none => exact ⟨_, .unnamed hname⟩
  | some name =>
    cases hbound : h.globals.find? name with
    | none => exact ⟨_, .unbound hname hbound⟩
    | some r =>
      cases hentry : h.entry? r with
      | none => exact ⟨_, .gone hname hbound hentry⟩
      | some e =>
        obtain ⟨object, pins⟩ := e
        by_cases hkind : ∃ f, object = .function f
        · obtain ⟨f, rfl⟩ := hkind
          exact ⟨_, .function hname hbound hentry⟩
        · exact ⟨_, .mistyped hname hbound hentry fun f hf => hkind ⟨f, hf⟩⟩

/-- **A lookup that is made per call finds exactly what is to be found.** -/
theorem Symbols.target_perCall_iff :
    Symbols.perCall.target names entry h = result ↔ h.Finds names entry result := by
  refine ⟨fun htarget => ?_, target_of_finds⟩
  obtain ⟨found, hfinds⟩ := h.exists_finds names entry
  rwa [← htarget, target_of_finds hfinds]

/-- A function is missing at setup only if its name leads to nothing. -/
theorem Heap.error_of_bindings {bindings : Bindings Rooted} {name : String} {e : BridgeError}
    (hbindings : h.bindings names = .ok bindings) (hname : names.name? entry = some name)
    (hcallable : h.callable name = .error e) : e = .unresolvedBinding (names.reported entry) := by
  unfold Heap.bindings at hbindings
  obtain ⟨r, hr, hbindings⟩ := bind_eq_ok hbindings
  cases entry with
  | residual =>
    cases hname
    rw [hcallable] at hr
    cases hr
  | event =>
    have hevent : names.event = some name := hname
    have hreported : names.reported .event = name := by
      simp [BindingNames.reported, BindingNames.eventName, hevent]
    rw [hreported]
    unfold Heap.callable at hcallable
    split at hcallable
    · cases hcallable
      rfl
    · next r' hlookup =>
      split at hcallable
      · cases hcallable
      · next hkind =>
        -- with a name that leads to something else there is no setup
        cases hcallable
        simp [hevent, Heap.callable, hlookup, hkind] at hbindings

/-- **A handle that was made at setup leads to what was found then**, whatever the heap is
like by now; without a handle there was nothing to be found. -/
theorem Heap.target_of_bindings {bindings : Bindings Rooted}
    (hbindings : h.bindings names = .ok bindings) (entry : Entry) (now : Heap F) :
    (Symbols.bound bindings).target names entry now =
      Symbols.perCall.target names entry h := by
  have hhandle : ∀ handle, bindings.handle? entry = some handle ↔
      ∃ name, names.name? entry = some name ∧ h.callable name = .ok handle.ref :=
    fun _ => Heap.handle?_eq_some_iff hbindings
  simp only [Symbols.target]
  cases hfound : bindings.handle? entry with
  | some handle =>
    obtain ⟨name, hname, hcallable⟩ := (hhandle handle).mp hfound
    simp only [hname, hcallable]
  | none =>
    cases hname : names.name? entry with
    | none => rfl
    | some name =>
      cases hcallable : h.callable name with
      | ok r =>
        have hsome := (hhandle ⟨r⟩).mpr ⟨name, hname, hcallable⟩
        rw [hfound] at hsome
        cases hsome
      | error e => simp only [hcallable, Heap.error_of_bindings hbindings hname hcallable]

end Finding

/-- The heap in which names count: the one at setup where handles were made then, and the
present one otherwise. -/
def Symbols.consulted (symbols : Symbols Rooted) (setup now : Heap F) : Heap F :=
  match symbols with
  | .bound _ => setup
  | .perCall => now

/-- However names are looked up, what is found is what is to be found in the heap in which
they count. -/
theorem Resolves.target_iff {run : Runner F ω} {w : HeapWorld F ω} {config : BridgeConfig}
    {begun : Session (HeapWorld F ω) Rooted} (h : Resolves run w config begun) {now : Heap F}
    {entry : Entry} {result : Except BridgeError ObjRef} :
    begun.bridge.symbols.target config.names entry now = result ↔
      (begun.bridge.symbols.consulted w.heap now).Finds config.names entry result := by
  rcases h.cases with ⟨bindings, hbindings, rfl⟩ | rfl
  · rw [← Symbols.target_perCall_iff]
    exact Eq.congr_left (Heap.target_of_bindings hbindings entry now)
  · exact Symbols.target_perCall_iff

/-! ## Functions that stay -/

section Staying

variable {h h' : Heap F} {f : ObjRef} {function : NativeFunction F}

/-- What is there was there before, since its reference was handed out. -/
theorem Heap.isLive_of_evolves {regime : Table.Regime (HeapEntry F)}
    (hev : h.table.Evolves regime h'.table) (room : h'.table.Addressable) (hs : h.table.Sound)
    (hissued : h.table.Issued f) (hlive : h'.isLive f) : h.isLive f := by
  obtain ⟨e, hentry⟩ := Option.isSome_iff_exists.mp hlive
  obtain ⟨old, hold, -⟩ := hev.inherited room hs hissued hentry
  exact Heap.isLive_of_eq_some hold

/-- A function that is still there is the same function. -/
theorem Heap.function_of_evolves (hev : h.table.Evolves HeapEntry.fixedSorts h'.table)
    (room : h'.table.Addressable) (hs : h.table.Sound) (hf : h.function f = .ok function)
    (hlive : h'.isLive f) : h'.function f = .ok function := by
  obtain ⟨pins, hentry⟩ := Heap.entry?_of_function hf
  obtain ⟨⟨object, pins'⟩, hentry', hremains⟩ := hev.exists_change room hs hentry hlive
  cases (hremains : object = _)
  exact Heap.function_eq_ok hentry'

end Staying

/-- The operation may set off a collection. -/
def HostOperation.MayCollect {R K : Type} : HostOperation R K → Prop
  | materialize _ _ => True
  | call _ _ _ => True
  | _ => False

/-- Without a collection nothing comes or goes. -/
theorem HeapStep.isLive_eq {run : Runner F ω} {w w' : HeapWorld F ω}
    {op : HostOperation ObjRef Rooted} (h : HeapStep run op w w') (hop : ¬ op.MayCollect)
    (r : ObjRef) : w'.heap.isLive r = w.heap.isLive r := by
  cases h.effect with
  | idle _ => rfl
  | pins _ q => exact w.heap.isLive_pin q r
  | unpins _ q => exact Heap.isLive_of_modify rfl r
  | makes => exact (hop trivial).elim
  | moves hrepoint =>
    obtain ⟨-, rfl⟩ := Heap.repoint_eq_ok hrepoint
    exact Heap.isLive_of_modify rfl r
  | @retires view =>
    show (w.heap.retire view).isLive r = w.heap.isLive r
    rcases w.heap.retire_cases view with ⟨seen, pins, -, htable⟩ | ⟨-, heq⟩
    · exact Heap.isLive_of_modify htable r
    · rw [heq]
  | runs _ => exact (hop trivial).elim

/-- Nothing that follows the call of the function sets off a collection. -/
theorem Opening.quiet_after_call {K : Type} {supportsReuse : Bool} {bridge : Bridge K}
    {entry : Entry} {admission : Admission} {res res' : Output}
    {opening pre post : List (HostOperation ObjRef K)} {outcome : Outcome BridgeError Unit}
    {kept : Option (StateViews K)} {f : ObjRef} {views : StateViews ObjRef}
    {result : Outcome HostError ObjRef}
    (h : Opening supportsReuse bridge entry admission res opening outcome kept res')
    (heq : opening ++ closing opening = pre ++ .call f views result :: post) :
    ∀ op ∈ post, ¬ op.MayCollect := by
  obtain ⟨looking, viewing, rest, -, rfl, -, -, hanswering⟩ := h.exists_call heq
  have hclosing : ∀ op ∈ closing opening, ¬ op.MayCollect := by
    simp [closing, MayCollect, or_imp, forall_and]
  refine List.forall_mem_append.mpr ⟨?_, hclosing⟩
  rcases hanswering.disciplined with ⟨stop, hops⟩ | ⟨value, read, hops⟩
  · simp [(List.cons.inj hops).2]
  · simp [(List.cons.inj hops).2, MayCollect]

/-! ## The worlds of an invocation -/

/-- The worlds around the given moments of an invocation, those inside the body of the
function that is called included. -/
inductive PassesThrough (code : UserCode F I) (stack : List (Surroundings I ω))
    (moments : List (Moment (HeapWorld F ω) ObjRef Rooted)) : HeapWorld F ω → Prop where
  /-- Before one of the operations. -/
  | before {moment : Moment (HeapWorld F ω) ObjRef Rooted} (hmem : moment ∈ moments) :
      PassesThrough code stack moments moment.before
  /-- After one of the operations. -/
  | after {moment : Moment (HeapWorld F ω) ObjRef Rooted} (hmem : moment ∈ moments) :
      PassesThrough code stack moments moment.after
  /-- Inside the body of a function. -/
  | inside {moment : Moment (HeapWorld F ω) ObjRef Rooted} {f : ObjRef}
      {views : StateViews ObjRef} {result : Outcome HostError ObjRef}
      {function : NativeFunction F} {v : HeapWorld F ω} (hmem : moment ∈ moments)
      (hcall : moment.operation = .call f views result)
      (hf : moment.before.heap.function f = .ok function)
      (hvisits : Visits code stack (code function.code views)
        (moment.before.update Heap.openScope) v) : PassesThrough code stack moments v

section Invocation

variable {code : UserCode F I} {stack : List (Surroundings I ω)} {u v final : HeapWorld F ω}
  {moments : List (Moment (HeapWorld F ω) ObjRef Rooted)} {f : ObjRef}
  {function : NativeFunction F}

/-- A function that is there in the end is there around every moment. -/
theorem Chain.function_eq
    (hchain : Chain (HeapWorld.runtime (Runner.ofStack code stack)) u moments final)
    (hs : u.heap.table.Sound) (hf : u.heap.function f = .ok function)
    (hlive : final.heap.isLive f) (room : final.heap.table.Addressable)
    {moment : Moment (HeapWorld F ω) ObjRef Rooted} (hmem : moment ∈ moments) :
    moment.before.heap.function f = .ok function ∧
      moment.after.heap.function f = .ok function := by
  have hbacked := heapBacked_runtime (Runner.ofStack code stack)
  obtain ⟨pre, post, rfl⟩ := List.append_of_mem hmem
  obtain ⟨m, hpre, rfl, hperforms, hpost⟩ := hchain.split
  -- whatever lies between is reached from the start and leads to the end
  have hbetween : ∀ {v : HeapWorld F ω}, u.Forward v → v.Forward final →
      v.heap.function f = .ok function := by
    intro v hto hfrom
    have room' := hfrom.1.addressable room
    have hs' := hto.1.sound room' hs
    obtain ⟨pins, hentry⟩ := Heap.entry?_of_function hf
    have hissued := hto.1.issued room' hs (Table.issued_of_get? hentry)
    exact Heap.function_of_evolves hto.1 room' hs hf
      (Heap.isLive_of_evolves hfrom.1 room hs' hissued hlive)
  have hto := (hpre.carries hbacked).forward
  have hstep := (hbacked _ _ _ hperforms).forward
  have hfrom := (hpost.carries hbacked).forward
  exact ⟨hbetween hto (hstep.trans hfrom), hbetween (hto.trans hstep) hfrom⟩

variable {bridge : Bridge Rooted} {entry : Entry} {windows : Windows} {call : Invocation}
  {m : Memory} {s : HeapWorld F ω}

/-- What is owed for the functions of the bridge, and the function that is called, are held
when the function is called. -/
theorem holds_of_call {pre post : List (Moment (HeapWorld F ω) ObjRef Rooted)}
    {moment : Moment (HeapWorld F ω) ObjRef Rooted} {views : StateViews ObjRef}
    {result : Outcome HostError ObjRef} (hsecured : bridge.Secured s.heap)
    (hexposed : Exposed windows m call s.memory)
    (htrace : bridge.trace (HeapWorld.runtime (Runner.ofStack code stack)) entry call s =
      pre ++ moment :: post)
    (hcall : moment.operation = .call f views result)
    (room : (bridge.evaluate (HeapWorld.runtime (Runner.ofStack code stack)) entry call
      s).host.heap.table.Addressable) :
    bridge.symbols.target bridge.config.names entry s.heap = .ok f ∧
      moment.before.heap.Holds (f :: bridge.symbols.owed) := by
  obtain ⟨-, -, n, outLen, hsite⟩ := callSite_of_trace hsecured hexposed htrace hcall room
  obtain ⟨kept, hready⟩ := hsite.atCall
  refine ⟨hready.target, hready.holds.of_count_le fun r => ?_⟩
  simp only [List.count_append]
  omega

/-- **A function that is held wherever a function is called, and is there in the end, is there
at every point of the invocation.** -/
theorem function_of_passesThrough (hcode : ∀ f args, (code f args).All HeapCommand.SparesRoots)
    (hchain : Chain (HeapWorld.runtime (Runner.ofStack code stack)) u moments final)
    (hs : u.heap.table.Sound) (hf : u.heap.function f = .ok function)
    (hlive : final.heap.isLive f) (room : final.heap.table.Addressable)
    (hheld : ∀ moment ∈ moments, ∀ g views result, moment.operation = .call g views result →
      ∃ owed, f ∈ owed ∧ moment.before.heap.Holds owed)
    (hpasses : PassesThrough code stack moments v) (room' : v.heap.table.Addressable) :
    v.heap.function f = .ok function := by
  have hspares : ∀ f args, (code f args).All fun command =>
      command.SparesRoots ∧ command.SparesNames [] := fun f args => (hcode f args).sparesNoNames
  cases hpasses with
  | before hmem => exact (hchain.function_eq hs hf hlive room hmem).1
  | after hmem => exact (hchain.function_eq hs hf hlive room hmem).2
  | inside hmem hcall hcallee hvisits =>
    obtain ⟨owed, hmemOwed, hholds⟩ := hheld _ hmem _ _ _ hcall
    have hbefore := (hchain.function_eq hs hf hlive room hmem).1
    have hbody := (hvisits.spares hspares (hspares _ _)).1
    exact hholds.function_spares hmemOwed hbefore ((Heap.Spares.openScope _).trans hbody) room'

/-! ## The invocation runs what was found -/

/-- The function runs as it was in the heap in which it was found: the call ends as its code
does, and it stays what it is to the end of the invocation. -/
structure RunsFunction (code : UserCode F I) (stack : List (Surroundings I ω)) (found : Heap F)
    (f : ObjRef) (views : StateViews ObjRef) (result : Outcome HostError ObjRef)
    (moment : Moment (HeapWorld F ω) ObjRef Rooted)
    (post : List (Moment (HeapWorld F ω) ObjRef Rooted)) (function : NativeFunction F) :
    Prop where
  /-- It is the function that was found. -/
  found_eq : found.function f = .ok function
  /-- The call gives what its code gives, if that is there. -/
  result_eq : result = HeapWorld.settle (bodyEnd code stack function views moment.before).1
    (bodyEnd code stack function views moment.before).2.heap
  /-- The call does what its code does. -/
  after_eq : moment.after =
    (bodyEnd code stack function views moment.before).2.update Heap.closeScope
  /-- It is there from the call to the end of the invocation. -/
  stays : ∀ {v}, PassesThrough code stack (moment :: post) v → v.heap.table.Addressable →
    v.heap.function f = .ok function

/-- The invocation runs what is found in the given heap under the names. -/
structure RunsFound (code : UserCode F I) (stack : List (Surroundings I ω)) (found : Heap F)
    (names : BindingNames) (bridge : Bridge Rooted) (entry : Entry) (call : Invocation)
    (s : HeapWorld F ω) : Prop where
  /-- Whatever is called is what was found. -/
  called : ∀ {pre moment post f views result},
    bridge.trace (HeapWorld.runtime (Runner.ofStack code stack)) entry call s =
      pre ++ moment :: post →
    moment.operation = .call f views result → found.Finds names entry (.ok f) ∧
      ∃ function, RunsFunction code stack found f views result moment post function
  /-- What was found is called, if the arguments are in order. -/
  calls : ∀ {admission f}, bridge.config.check entry call = .ok admission →
    found.Finds names entry (.ok f) → ∃ pre moment post views result,
      bridge.trace (HeapWorld.runtime (Runner.ofStack code stack)) entry call s =
        pre ++ moment :: post ∧ moment.operation = .call f views result
  /-- If nothing was found that can be called, that is reported; no view is asked for, nothing
  is called, and the heap is as it was. -/
  refused : ∀ {admission e}, bridge.config.check entry call = .ok admission →
    found.Finds names entry (.error e) →
    (bridge.evaluate (HeapWorld.runtime (Runner.ofStack code stack)) entry call s).outcome =
        .error (.error e) ∧
      (bridge.evaluate (HeapWorld.runtime (Runner.ofStack code stack)) entry call s).host = s ∧
      ∀ op ∈ bridge.operations (HeapWorld.runtime (Runner.ofStack code stack)) entry call s,
        ¬ op.AsksForView ∧ ¬ op.Calls

variable (code stack) in
/-- If there is no function to call, that is reported, and the bridge has only looked. -/
theorem evaluate_of_unfound {admission : Admission} {e : BridgeError}
    (hcheck : bridge.config.check entry call = .ok admission)
    (htarget : bridge.symbols.target bridge.config.names entry s.heap = .error e) :
    (bridge.evaluate (HeapWorld.runtime (Runner.ofStack code stack)) entry call s).outcome =
        .error (.error e) ∧
      (bridge.evaluate (HeapWorld.runtime (Runner.ofStack code stack)) entry call s).host = s ∧
      ∀ op ∈ bridge.operations (HeapWorld.runtime (Runner.ofStack code stack)) entry call s,
        op.Looks := by
  have hconducted := bridge.evaluate_traced (HeapWorld.runtime (Runner.ofStack code stack)) entry
    call s
  obtain ⟨opening, hopening, hops⟩ := hconducted.admitted admission hcheck
  have hrun : Carries (fun op => op.Performs (HeapWorld.runtime (Runner.ofStack code stack))) s
      (bridge.operations _ entry call s) _ := hconducted.chain.performs
  rw [hops] at hrun ⊢
  have hbacked : HeapRun code stack s (opening ++ closing opening) _ :=
    hrun.mono fun _ _ _ _ hop => Or.inl hop
  obtain ⟨u, hopened, -⟩ := carries_append.mp hrun
  -- a lookup that succeeds finds what is to be found
  have hfails : ∀ {looking rest : List (HostOperation ObjRef Rooted)} {f : ObjRef},
      opening = looking ++ rest →
      ¬ Lookup bridge.config.names entry bridge.symbols looking (.ok f) := by
    rintro looking rest f rfl hlookup
    obtain ⟨m, hlooking, -⟩ := carries_append.mp hopened
    have hfound := (hlookup.target_eq (hlooking.mono fun _ _ _ _ hop => Or.inl hop)).2 _ rfl
    rw [htarget] at hfound
    cases hfound
  generalize (bridge.evaluate _ entry call s).outcome = outcome at hopening ⊢
  generalize (bridge.evaluate _ entry call s).bridge.reusable = kept at hopening
  generalize (bridge.evaluate _ entry call s).res = res' at hopening
  cases hopening with
  | @unfound _ e' hlookup =>
    have hclosing : closing opening = [] := by
      unfold closing
      rw [shownViews_eq_nil fun op hop => (hlookup.idle op hop).1,
        pinnedValues_eq_nil fun op hop => (hlookup.idle op hop).2]
      rfl
    rw [hclosing, List.append_nil] at hbacked ⊢
    have hsame := hlookup.target_of_error hopened
    rw [htarget] at hsame
    cases hsame
    exact ⟨rfl, eq_of_looks hlookup.looks hbacked, hlookup.looks⟩
  | unseen hlookup hviewing => exact (hfails rfl hlookup).elim
  | asked hlookup hviewing hanswering => exact (hfails rfl hlookup).elim

/-- Nothing that follows the call in an invocation sets off a collection. -/
theorem quiet_after_call {pre post : List (Moment (HeapWorld F ω) ObjRef Rooted)}
    {moment : Moment (HeapWorld F ω) ObjRef Rooted} {views : StateViews ObjRef}
    {result : Outcome HostError ObjRef} {host : HostRuntime (HeapWorld F ω) ObjRef Rooted}
    (htrace : bridge.trace host entry call s = pre ++ moment :: post)
    (hcall : moment.operation = .call f views result) :
    ∀ op ∈ post.map Moment.operation, ¬ op.MayCollect := by
  have hconducted := bridge.evaluate_traced host entry call s
  cases hcheck : bridge.config.check entry call with
  | error e =>
    have hnone := hconducted.rejected e hcheck
    simp [Bridge.operations, htrace] at hnone
  | ok admission =>
    obtain ⟨opening, hopening, hops⟩ := hconducted.admitted admission hcheck
    simp only [Bridge.operations, htrace, List.map_append, List.map_cons, hcall] at hops
    exact hopening.quiet_after_call hops.symm

/-- A function that is called and held is there in the end, since its code leaves pins alone
and nothing is collected after it. -/
theorem isLive_after_call {pre post : List (Moment (HeapWorld F ω) ObjRef Rooted)}
    {moment : Moment (HeapWorld F ω) ObjRef Rooted} {views : StateViews ObjRef}
    {result : Outcome HostError ObjRef} {owed : List ObjRef}
    (hcode : ∀ f args, (code f args).All HeapCommand.SparesRoots)
    (htrace : bridge.trace (HeapWorld.runtime (Runner.ofStack code stack)) entry call s =
      pre ++ moment :: post)
    (hcall : moment.operation = .call f views result)
    (hchain : Chain (HeapWorld.runtime (Runner.ofStack code stack)) moment.before
      (moment :: post) final)
    (hholds : moment.before.heap.Holds owed) (hmem : f ∈ owed)
    (room : final.heap.table.Addressable) : final.heap.isLive f := by
  have hbacked := heapBacked_runtime (Runner.ofStack code stack)
  obtain ⟨-, hperforms, hafter⟩ := hchain
  rw [hcall] at hperforms
  have hafter := hafter.carries hbacked
  have hquiet := hafter.relates
    (P := fun u v : HeapWorld F ω => v.heap.isLive f = u.heap.isLive f) (fun _ => rfl)
    (fun h h' => h'.trans h) fun op hop _ _ hstep =>
      hstep.isLive_eq (quiet_after_call htrace hcall op hop) f
  have hbody := ((hbacked _ _ _ hperforms).tame hcode).2 trivial
  exact hquiet.trans ((hholds.spares hbody.1 (hafter.forward.1.addressable room)).isLive hmem)

/-- **What a secured bridge calls runs as it was found.** It may have been found earlier, as
long as nothing has come back to life since. -/
theorem runsFunction_of_call {found : Heap F} {function : NativeFunction F}
    {pre post : List (Moment (HeapWorld F ω) ObjRef Rooted)}
    {moment : Moment (HeapWorld F ω) ObjRef Rooted} {views : StateViews ObjRef}
    {result : Outcome HostError ObjRef}
    (hcode : ∀ f args, (code f args).All HeapCommand.SparesRoots)
    (hsecured : bridge.Secured s.heap) (hexposed : Exposed windows m call s.memory)
    (htrace : bridge.trace (HeapWorld.runtime (Runner.ofStack code stack)) entry call s =
      pre ++ moment :: post)
    (hcall : moment.operation = .call f views result)
    (hs : found.table.Sound) (hsince : found.table.Evolves HeapEntry.fixedSorts s.heap.table)
    (hfound : found.function f = .ok function)
    (room : (bridge.evaluate (HeapWorld.runtime (Runner.ofStack code stack)) entry call
      s).host.heap.table.Addressable) :
    RunsFunction code stack found f views result moment post function := by
  have hbacked := heapBacked_runtime (Runner.ofStack code stack)
  obtain ⟨htarget, hholds⟩ := holds_of_call hsecured hexposed htrace hcall room
  obtain ⟨hstart, hafter, n, outLen, hsite⟩ :=
    callSite_of_trace hsecured hexposed htrace hcall room
  have hchain : Chain (HeapWorld.runtime (Runner.ofStack code stack)) moment.before
      (moment :: post) _ := ⟨rfl, by rw [hcall]; exact hstart, hafter⟩
  -- it is the function that was found when it is called
  have hbefore : moment.before.heap.function f = .ok function :=
    Heap.function_of_evolves (hsince.trans hsite.forward.1)
      ((hchain.carries hbacked).forward.1.addressable room) hs hfound
      (hholds.isLive List.mem_cons_self)
  obtain ⟨hresult, hended⟩ := hsite.settles hbefore hstart
  have hlive := isLive_after_call hcode htrace hcall hchain hholds List.mem_cons_self room
  refine ⟨hfound, hresult, hended, fun hpasses room' => ?_⟩
  refine function_of_passesThrough hcode hchain hholds.sound hbefore hlive room ?_ hpasses room'
  -- whatever else an invocation calls, it calls what it was to find
  intro later hmem g views' result' hcall'
  obtain ⟨pre', post', htrace'⟩ := List.append_of_mem
    (show later ∈ bridge.trace (HeapWorld.runtime (Runner.ofStack code stack)) entry call s by
      rw [htrace]
      exact List.mem_append_right _ hmem)
  obtain ⟨htarget', hholds'⟩ := holds_of_call hsecured hexposed htrace' hcall' room
  cases htarget.symm.trans htarget'
  exact ⟨_, List.mem_cons_self, hholds'⟩

/-- **A secured bridge runs what it is to find.** -/
theorem runsFound_of_secured {names : BindingNames} {found : Heap F}
    (hcode : ∀ f args, (code f args).All HeapCommand.SparesRoots)
    (hsecured : bridge.Secured s.heap) (hexposed : Exposed windows m call s.memory)
    (hfinds : ∀ result, bridge.symbols.target bridge.config.names entry s.heap = result ↔
      found.Finds names entry result)
    (hs : found.table.Sound) (hsince : found.table.Evolves HeapEntry.fixedSorts s.heap.table)
    (room : (bridge.evaluate (HeapWorld.runtime (Runner.ofStack code stack)) entry call
      s).host.heap.table.Addressable) :
    RunsFound code stack found names bridge entry call s := by
  refine ⟨?_, ?_, ?_⟩
  · intro pre moment post f views result htrace hcall
    obtain ⟨htarget, -⟩ := holds_of_call hsecured hexposed htrace hcall room
    have hfound := (hfinds _).mp htarget
    obtain ⟨function, hfunction⟩ := hfound.exists_function
    exact ⟨hfound, function,
      runsFunction_of_call hcode hsecured hexposed htrace hcall hs hsince hfunction room⟩
  · intro admission f hcheck hfound
    rcases evaluate_cases code stack hsecured hcheck with
      ⟨e, htarget, -⟩ | ⟨pre, moment, post, g, views, result, htrace, hcall⟩
    · cases htarget.symm.trans ((hfinds _).mpr hfound)
    · obtain ⟨htarget, -⟩ := holds_of_call hsecured hexposed htrace hcall room
      cases htarget.symm.trans ((hfinds _).mpr hfound)
      exact ⟨pre, moment, post, views, result, htrace, hcall⟩
  · intro admission e hcheck hfound
    have htarget := (hfinds _).mpr hfound
    obtain ⟨houtcome, hhost, hlooks⟩ := evaluate_of_unfound code stack hcheck htarget
    exact ⟨houtcome, hhost, fun op hop =>
      ⟨(hlooks op hop).excludes.2.2.2.1, (hlooks op hop).excludes.2.2.1⟩⟩

/-! ## Sessions -/

variable {w : HeapWorld F ω} {config : BridgeConfig} {levels : List (Surroundings I ω)}
  {history : History} {begun session : Session (HeapWorld F ω) Rooted}

/-- A session changes neither the settings of its bridge nor where its functions come
from. -/
theorem Continues.config_symbols {allowed : HeapCommand F I → Prop}
    (h : Continues code allowed begun history session) :
    session.bridge.config = begun.bridge.config ∧
      session.bridge.symbols = begun.bridge.symbols := by
  induction h with
  | start => exact ⟨rfl, rfl⟩
  | client _ _ ih => exact ih
  | elapses _ _ ih => exact ih
  | @enters _ _ session host world s windows call entry stack _ _ _ ih =>
    obtain ⟨hconfig, hsymbols⟩ := Bridge.config_symbols_evaluate host session.bridge entry call s
    exact ⟨hconfig.trans ih.1, hsymbols.trans ih.2⟩

/-- Nothing comes back to life in the course of a session. -/
theorem Continues.evolves {allowed : HeapCommand F I → Prop}
    (h : Continues code allowed begun history session) :
    begun.host.heap.table.Evolves HeapEntry.fixedSorts session.host.heap.table := by
  induction h with
  | start => exact .refl _
  | client _ _ ih => exact ih.trans (HeapWorld.forward_perform _ _ _ _ _).1
  | elapses _ _ ih => exact ih
  | @enters _ _ session host world s windows call entry stack _ hhost hexpose ih =>
    have hheap : (world s).heap = session.host.heap := by
      rw [(HeapWorld.exposed_of_expose hexpose).1]
    refine ih.trans ?_
    rw [← hheap]
    exact (session.bridge.forward_evaluate hhost entry call s).1

/-- A function of the session is there: now, while programs of the client run, and at every
point of an invocation with the given moments. -/
structure StaysFunction (code : UserCode F I) (stack : List (Surroundings I ω))
    (session : Session (HeapWorld F ω) Rooted)
    (moments : List (Moment (HeapWorld F ω) ObjRef Rooted)) (f : ObjRef)
    (function : NativeFunction F) : Prop where
  /-- It is there now. -/
  now : session.host.heap.function f = .ok function
  /-- It is there at every point of a program of the client. -/
  client : ∀ {α : Type} {surroundings : Surroundings I ω} {stack : List (Surroundings I ω)}
    {program : HeapProgram F I α} {v}, program.All HeapCommand.SparesRoots →
    Visits code (surroundings :: stack) program session.host v → v.heap.table.Addressable →
    v.heap.function f = .ok function
  /-- It is there at every point of the invocation. -/
  during : ∀ {v}, PassesThrough code stack moments v → v.heap.table.Addressable →
    v.heap.function f = .ok function

/-- What a handle leads to is owed. -/
theorem Symbols.mem_owed_of_target {bindings : Bindings Rooted} {names : BindingNames}
    {h : Heap F} (hf : (Symbols.bound bindings).target names entry h = .ok f) :
    f ∈ (Symbols.bound bindings).owed := by
  simp only [target] at hf
  split at hf
  · cases hf
  · next handle hhandle =>
    cases hf
    exact mem_owed hhandle

/-- **What a handle of a secured bridge leads to stays**, while programs of the client run and
at every point of an invocation. -/
theorem staysFunction_of_secured (hcode : ∀ f args, (code f args).All HeapCommand.SparesRoots)
    (hsecured : session.bridge.Secured session.host.heap)
    (hexpose : session.host.expose windows = (call, s))
    (howed : f ∈ session.bridge.symbols.owed)
    (hf : session.host.heap.function f = .ok function)
    (room : (session.bridge.evaluate (HeapWorld.runtime (Runner.ofStack code stack)) entry call
      s).host.heap.table.Addressable) :
    StaysFunction code stack session
      (session.bridge.trace (HeapWorld.runtime (Runner.ofStack code stack)) entry call s) f
      function := by
  obtain ⟨hworld, hexposed⟩ := HeapWorld.exposed_of_expose hexpose
  have hheap : s.heap = session.host.heap := by rw [hworld]
  have hmem : f ∈ session.bridge.owed := List.mem_append_right _ howed
  refine ⟨hf, ?_, fun hpasses room' => ?_⟩
  · intro α surroundings stack program v hprogram hvisits room'
    have hbody := (hvisits.spares (fun f args => (hcode f args).sparesNoNames)
      hprogram.sparesNoNames).1
    exact hsecured.holds.function_spares hmem hf hbody room'
  · rw [← hheap] at hsecured hf
    have hconducted := session.bridge.evaluate_traced
      (HeapWorld.runtime (Runner.ofStack code stack)) entry call s
    -- the bridge is secured in the end, too, and there it has the same handles
    have hended := hsecured.evaluate_backed
      (fun f args => (hcode f args).mono fun _ => HeapCommand.SparesRoots.keepsPins)
      (heapBacked_runtime _) room
    have hafter : f ∈ (session.bridge.evaluate (HeapWorld.runtime (Runner.ofStack code stack))
        entry call s).bridge.owed := by
      refine List.mem_append_right _ ?_
      rw [(Bridge.config_symbols_evaluate _ session.bridge entry call s).2]
      exact howed
    refine function_of_passesThrough hcode hconducted.chain hsecured.holds.sound hf
      (hended.holds.isLive hafter) room ?_ hpasses room'
    intro moment hmoment g views result hcall
    obtain ⟨pre, post, htrace⟩ := List.append_of_mem hmoment
    obtain ⟨-, hholds⟩ := holds_of_call hsecured hexposed htrace hcall room
    exact ⟨_, List.mem_cons_of_mem _ howed, hholds⟩

/-- **The functions of a bridge.** After any history of invocations and of client programs,
where user code of any kind binds and unbinds names, allocates, collects and calls, and only
leaves pins and views alone: an invocation runs what is found under its name, in the heap at
setup if the names were looked up then, and in the heap in which the invocation begins if they
are looked up per call; otherwise it reports that there is no such function before it asks for
a view.  The function stays what it is to the end of the invocation, whatever the name is bound
to by then, and the functions that were found at setup stay for all of the session.
References are 32-bit words, so this holds as long as the heap has no more places than there
are numbers. -/
theorem functions_resolved (hcode : ∀ f args, (code f args).All HeapCommand.SparesRoots)
    (hbuilt : Built code w) (hresolves : Resolves (Runner.ofStack code levels) w config begun)
    (hcontinues : Continues code HeapCommand.SparesRoots begun history session)
    (hexpose : session.host.expose windows = (call, s))
    (room : (session.bridge.evaluate (HeapWorld.runtime (Runner.ofStack code stack)) entry call
      s).host.heap.table.Addressable) :
    RunsFound code stack (begun.bridge.symbols.consulted w.heap session.host.heap) config.names
        session.bridge entry call s ∧
      ∀ bindings, begun.bridge.symbols = .bound bindings → ∀ entry' f,
        w.heap.Finds config.names entry' (.ok f) → ∃ function,
          w.heap.function f = .ok function ∧
          StaysFunction code stack session
            (session.bridge.trace (HeapWorld.runtime (Runner.ofStack code stack)) entry call s)
            f function := by
  obtain ⟨hworld, hexposed⟩ := HeapWorld.exposed_of_expose hexpose
  have hheap : s.heap = session.host.heap := by rw [hworld]
  obtain ⟨hconfig, hsymbols⟩ := hcontinues.config_symbols
  have hbegun : begun.bridge.config = config := by
    rcases hresolves.cases with ⟨bindings, -, rfl⟩ | rfl <;> rfl
  have room₁ : s.heap.table.Addressable :=
    (session.bridge.forward_evaluate (heapBacked_runtime (Runner.ofStack code stack)) entry call
      s).1.addressable room
  have hsecured := (Reaches.begins hbuilt (.resolved hresolves) hcontinues).secured hcode
    (hheap ▸ room₁)
  have hsetup := (Begins.resolved hresolves).begun.evolves.trans hcontinues.evolves
  have hsound := hbuilt.sound (hsetup.addressable (hheap ▸ room₁))
  -- what the bridge looks for is what is found in the heap in which names count
  have hfinds : ∀ entry' result, session.bridge.symbols.target session.bridge.config.names entry'
      s.heap = result ↔ (begun.bridge.symbols.consulted w.heap session.host.heap).Finds
        config.names entry' result := by
    intro entry' result
    rw [hsymbols, hconfig, hbegun, hheap]
    exact hresolves.target_iff
  refine ⟨?_, fun bindings hbound entry' f hfound => ?_⟩
  · refine runsFound_of_secured hcode (hheap ▸ hsecured) hexposed (hfinds entry) ?_ ?_ room
    · cases begun.bridge.symbols with
      | bound bindings => exact hsound
      | perCall => exact hsecured.holds.sound
    · rw [hheap]
      cases begun.bridge.symbols with
      | bound bindings => exact hsetup
      | perCall => exact .refl _
  · obtain ⟨function, hfunction⟩ := hfound.exists_function
    have howed : f ∈ session.bridge.symbols.owed := by
      have htarget := (hfinds entry' (.ok f)).mpr (by rw [hbound]; exact hfound)
      rw [hsymbols, hbound] at htarget ⊢
      exact Symbols.mem_owed_of_target htarget
    have hlive := hsecured.holds.isLive (List.mem_append_right _ howed)
    exact ⟨function, hfunction, staysFunction_of_secured hcode hsecured hexpose howed
      (Heap.function_of_evolves hsetup (hheap ▸ room₁) hsound hfunction hlive) room⟩

end Invocation

/-! ## A function without a name

The small session once more, with the name looked up at setup.  Then the name is unbound, and
all that nothing roots is collected. -/

namespace Nameless

/-- The handles that are made at setup. -/
def bindings : Bindings Rooted := ⟨⟨⟨0, 0⟩⟩, none⟩

/-- The session at setup. -/
def begun : Session (HeapWorld Unit Unit) Rooted :=
  ⟨Echo.world.update fun h => h.pinAll bindings, Bridge.start Echo.config (.bound bindings)⟩

/-- Unbinds the name and collects. -/
def forget : HeapProgram Unit Echo.interface Unit := do
  discard (HeapCommand.undefine "echo").ask
  discard HeapCommand.collect.ask

/-- The session after that. -/
def session : Session (HeapWorld Unit Unit) Rooted :=
  ⟨HeapWorld.perform Echo.surroundings Echo.run forget begun.host, begun.bridge⟩

/-- The invocation that comes next. -/
def next : Invocation × HeapWorld Unit Unit := session.host.expose Echo.windows

/-- The session begins by a lookup. -/
theorem resolves : Resolves Echo.run Echo.world Echo.config begun := by
  refine .setup ?_
  have hvalid : Echo.config.validate = .ok () := by decide
  have hfound : Echo.world.heap.bindings Echo.config.names = .ok bindings := by decide +kernel
  simp only [Bridge.resolveAtSetup, hvalid, Act.start_bind, start_resolve_runtime, hfound]
  rfl

/-- The session goes on by a program of the client. -/
theorem continues : Continues Echo.code HeapCommand.SparesRoots begun {} session :=
  have hforget : forget.All HeapCommand.SparesRoots :=
    ⟨trivial, fun _ => ⟨trivial, fun _ => trivial⟩⟩
  .client .start hforget

end Nameless

/-- The name is not bound any more, and still the function runs that it was bound to. -/
theorem functions_resolved_nameless :
    Nameless.session.host.heap.lookup "echo" = none ∧
    (Nameless.session.bridge.evaluate (HeapWorld.runtime Echo.run) .residual Nameless.next.1
      Nameless.next.2).outcome = .ok () ∧
    RunsFound Echo.code [Echo.surroundings] Echo.world.heap Echo.config.names
      Nameless.session.bridge .residual Nameless.next.1 Nameless.next.2 ∧
    ∃ function, Echo.world.heap.function ⟨0, 0⟩ = .ok function ∧
      StaysFunction Echo.code [Echo.surroundings] Nameless.session
        (Nameless.session.bridge.trace (HeapWorld.runtime Echo.run) .residual Nameless.next.1
          Nameless.next.2) ⟨0, 0⟩ function := by
  have hentry : Echo.world.heap.entry? ⟨0, 0⟩ = some ⟨.function ⟨"echo", ()⟩, 0⟩ := rfl
  have hfound : Echo.world.heap.Finds Echo.config.names .residual (.ok ⟨0, 0⟩) :=
    .function rfl rfl hentry
  have room : (Nameless.session.bridge.evaluate
      (HeapWorld.runtime (Runner.ofStack Echo.code [Echo.surroundings])) .residual
      Nameless.next.1 Nameless.next.2).host.heap.table.Addressable := by decide +kernel
  obtain ⟨hruns, hstays⟩ := functions_resolved (Echo.all_code (fun _ => trivial) fun _ => trivial)
    Echo.built Nameless.resolves Nameless.continues
    (show Nameless.session.host.expose Echo.windows = (Nameless.next.1, Nameless.next.2) from rfl)
    room
  exact ⟨by decide +kernel, by decide +kernel, hruns, hstays _ rfl .residual _ hfound⟩

end CallbackBridge
