/-
# The balance of pins over whole solves

`Proceeds` says how a heap can be used: programs of a client run on it, other owners pin
and unpin what they hold, and bridges are set up, entered and torn down, each time on any
host that is backed by the heap.  It keeps an account of what other owners hold.

Whatever happens, the pins of an object are those of other owners and those of the handles
of the bridge, no pin is undone that is not there, and after a teardown only the pins of
other owners are left (`pins_balanced`).  The handles of views are those of the first
invocation that made all three, if views are to be reused (`reusableViews`).
-/
import CallbackBridge.Proofs.Accounts
namespace CallbackBridge

open HostOperation HeapWorld

variable {F ω : Type} {I : Interface}

/-! ## The views that are kept -/

/-- The views that a bridge keeps after the operations of its invocations: under reuse,
those of the first invocation that made all three. -/
def reusableViews (strategy : ViewStrategy) (calls : List (List (HostOperation ObjRef Rooted))) :
    Option (List ObjRef) :=
  match strategy with
  | .fresh => none
  | .reuse => (calls.map madeViews).find? fun views => views.length = 3

/-- Before the first invocation no views are kept. -/
theorem reusableViews_nil (strategy : ViewStrategy) : reusableViews strategy [] = none := by
  cases strategy <;> rfl

/-- What the handles of views root, if there are any. -/
def handledViews (kept : Option (StateViews Rooted)) : Option (List ObjRef) :=
  kept.map fun handles => handles.toList.map Rooted.ref

/-- What is rooted is what the handles lead to, if there are any. -/
theorem keptRefs_eq (kept : Option (StateViews Rooted)) :
    keptRefs kept = (handledViews kept).getD [] := by
  cases kept <;> rfl

/-- Operations other than the making of a view make no view. -/
theorem madeViews_eq_nil {ops : List (HostOperation ObjRef Rooted)}
    (h : ∀ op ∈ ops, ¬ op.AsksForView) : madeViews ops = [] := by
  refine List.filterMap_eq_nil_iff.mpr fun op hop => ?_
  have hnot := h op hop
  cases op with
  | materialize buffer made => exact (hnot trivial).elim
  | _ => rfl

section Grammar

variable {ops : List (HostOperation ObjRef Rooted)}

/-- Making views makes as many as there are buffers, or fails before the last. -/
theorem Makes.madeViews_cases {buffers : List Buffer} {result : Except HostError (List ObjRef)}
    (h : Makes buffers ops result) :
    result = .ok (madeViews ops) ∧ (madeViews ops).length = buffers.length ∨
      (∃ e, result = .error e) ∧ (madeViews ops).length < buffers.length := by
  induction h with
  | nil => exact Or.inl ⟨rfl, rfl⟩
  | failed => exact Or.inr ⟨⟨_, rfl⟩, Nat.succ_pos _⟩
  | @made buffer rest view ops result hrest ih =>
    have hmade : madeViews (.materialize buffer (.ok view) :: .pin view :: ops) =
        view :: madeViews ops := rfl
    rw [hmade, List.length_cons, List.length_cons]
    rcases ih with ⟨rfl, hlength⟩ | ⟨⟨e, rfl⟩, hlength⟩
    · exact Or.inl ⟨rfl, congrArg Nat.succ hlength⟩
    · exact Or.inr ⟨⟨e, rfl⟩, Nat.succ_lt_succ hlength⟩

/-- The views that are kept are the old ones, or those that were made if all three were. -/
theorem Viewing.handledViews_eq {code : UserCode F I} {stack : List (Surroundings I ω)}
    {w w' : HeapWorld F ω} {supportsReuse : Bool} {buffers : StateViews Buffer}
    {strategy : ViewStrategy} {kept kept' : Option (StateViews Rooted)}
    {result : Except HostError (StateViews ObjRef)}
    (h : Viewing supportsReuse buffers strategy kept ops result kept')
    (hrun : HeapRun code stack w ops w') :
    handledViews kept' = (handledViews kept).or (reusableViews strategy [ops]) := by
  cases h with
  | unmade hmakes =>
    rcases hmakes.madeViews_cases with ⟨hok, -⟩ | ⟨-, hshort⟩
    · cases hok
    · have hfew : (madeViews ops).length ≠ 3 := Nat.ne_of_lt hshort
      cases strategy <;> simp [reusableViews, hfew]
  | fresh _ => simp [reusableViews]
  | unsupported _ => simp [reusableViews, madeViews]
  | @first making views handles _ hmakes =>
    obtain ⟨m, -, hkeeping⟩ := carries_append.mp hrun
    obtain ⟨-, hhandles⟩ := persist_eq hkeeping
    rcases hmakes.madeViews_cases with ⟨hok, hlength⟩ | ⟨⟨e, herror⟩, -⟩
    · have hviews : views.toList = madeViews making := Except.ok.inj hok
      have hmade : madeViews (making ++ [.persist views.t handles.t, .persist views.y handles.y,
          .persist views.yp handles.yp]) = madeViews making := by
        rw [madeViews_append]
        exact List.append_nil _
      have hthree : (madeViews making).length = 3 := hlength
      have hnew : handledViews (some handles) = some (madeViews making) := by
        rw [← hviews, ← hhandles]
        rfl
      rw [hnew]
      simp [reusableViews, handledViews, hmade, hthree]
    · cases herror
  | later _ hmoves => simp [handledViews]

/-- After another invocation the views that are kept are those from before, or its own. -/
theorem reusableViews_snoc (strategy : ViewStrategy)
    (calls : List (List (HostOperation ObjRef Rooted))) :
    reusableViews strategy (calls ++ [ops]) =
      (reusableViews strategy calls).or (reusableViews strategy [ops]) := by
  cases strategy with
  | fresh => rfl
  | reuse =>
    unfold reusableViews
    rw [List.map_append, List.find?_append]

/-- What asks for no view makes none. -/
theorem Lookup.madeViews_eq {names : BindingNames} {entry : Entry} {symbols : Symbols Rooted}
    {result : Except BridgeError ObjRef} (h : Lookup names entry symbols ops result) :
    madeViews ops = [] :=
  madeViews_eq_nil fun op hop => (h.looks op hop).excludes.2.2.2.1

theorem Answering.madeViews_eq {f : ObjRef} {name : String} {views : StateViews ObjRef}
    {outLen : Nat} {res res' : Output} {outcome : Outcome BridgeError Unit}
    (h : Answering f name views outLen res ops outcome res') : madeViews ops = [] := by
  rcases h.disciplined with ⟨stop, rfl⟩ | ⟨value, result, rfl⟩
  · rfl
  · rfl

theorem madeViews_closing (ops : List (HostOperation ObjRef Rooted)) :
    madeViews (closing ops) = [] := by
  refine madeViews_eq_nil fun op hop => ?_
  rcases List.mem_append.mp hop with hop | hop
  · obtain ⟨view, -, rfl⟩ := List.mem_map.mp hop
    exact id
  · obtain ⟨value, -, rfl⟩ := List.mem_map.mp hop
    exact id

/-- The same of a whole opening, and no view is kept twice. -/
theorem Opening.handledViews_eq {code : UserCode F I} {stack : List (Surroundings I ω)}
    {w w' : HeapWorld F ω} {supportsReuse : Bool} {bridge : Bridge Rooted} {entry : Entry}
    {admission : Admission} {res res' : Output} {outcome : Outcome BridgeError Unit}
    {kept : Option (StateViews Rooted)}
    (h : Opening supportsReuse bridge entry admission res ops outcome kept res')
    (hsound : w.heap.table.Sound) (hdistinct : (keptRefs bridge.reusable).Nodup)
    (hrun : HeapRun code stack w ops w') (room : w'.heap.table.Addressable) :
    handledViews kept =
        (handledViews bridge.reusable).or (reusableViews bridge.config.strategy [ops]) ∧
      (keptRefs kept).Nodup := by
  cases h with
  | unfound hlookup =>
    have hnone : reusableViews bridge.config.strategy [ops] = none := by
      cases hstrategy : bridge.config.strategy <;> simp [reusableViews, hlookup.madeViews_eq]
    rw [hnone, Option.or_none]
    exact ⟨rfl, hdistinct⟩
  | @unseen looking viewing f e _ hlookup hviewing =>
    obtain ⟨m, hlooking, m₁, hpin, hviews⟩ := carries_append.mp hrun
    have hmade : madeViews (looking ++ .pin f :: viewing) = madeViews viewing := by
      rw [madeViews_append, hlookup.madeViews_eq]
      rfl
    refine ⟨?_, ?_⟩
    · rw [hviewing.handledViews_eq hviews]
      unfold reusableViews
      rw [List.map_singleton, List.map_singleton, hmade]
    · rw [hviewing.kept_of_error]
      exact hdistinct
  | @asked looking viewing asking f views _ _ _ hlookup hviewing hanswering =>
    have hsplit : looking ++ .pin f :: (viewing ++ asking) =
        (looking ++ .pin f :: viewing) ++ asking := by simp
    obtain ⟨u, hbefore, hafter⟩ := carries_append.mp (hsplit ▸ hrun)
    have hroom := hafter.forward.1.addressable room
    obtain ⟨m, hlooking, m₁, hpin, hviews⟩ := carries_append.mp hbefore
    have hmade : madeViews (looking ++ .pin f :: (viewing ++ asking)) = madeViews viewing := by
      rw [hsplit, madeViews_append, madeViews_append, hlookup.madeViews_eq,
        hanswering.madeViews_eq, List.append_nil]
      rfl
    refine ⟨?_, ?_⟩
    · rw [hviewing.handledViews_eq hviews]
      unfold reusableViews
      rw [List.map_singleton, List.map_singleton, hmade]
    · -- views that are made are told apart because their references are new
      have hforward := hlooking.forward.trans hpin.forward
      have hroom₁ := hviews.forward.1.addressable hroom
      have hholds : m₁.heap.Holds [] := ⟨hforward.1.sound hroom₁ hsound, by simp⟩
      exact (hviewing.shows hholds hdistinct hviews hroom).2.1

/-- An invocation leaves the views that were kept, or keeps its own. -/
theorem Bridge.handledViews_evaluate {σ : Type} {code : UserCode F I}
    {stack : List (Surroundings I ω)} {host : HostRuntime σ ObjRef Rooted}
    {world : σ → HeapWorld F ω} (hhost : HeapBacked (Runner.ofStack code stack) host world)
    (bridge : Bridge Rooted) (entry : Entry) (call : Invocation) (s : σ)
    (hsound : (world s).heap.table.Sound) (hdistinct : (keptRefs bridge.reusable).Nodup)
    (room : (world (bridge.evaluate host entry call s).host).heap.table.Addressable) :
    handledViews (bridge.evaluate host entry call s).bridge.reusable =
        (handledViews bridge.reusable).or
          (reusableViews bridge.config.strategy [bridge.operations host entry call s]) ∧
      (keptRefs (bridge.evaluate host entry call s).bridge.reusable).Nodup := by
  have hconducted := bridge.evaluate_traced host entry call s
  cases hcheck : bridge.config.check entry call with
  | error e =>
    have hnone : reusableViews bridge.config.strategy [bridge.operations host entry call s] =
        none := by
      rw [hconducted.rejected e hcheck]
      cases bridge.config.strategy <;> rfl
    rw [hnone, evaluate_of_rejected hcheck, Option.or_none]
    exact ⟨rfl, hdistinct⟩
  | ok admission =>
    obtain ⟨ops, hopening, hops⟩ := hconducted.admitted admission hcheck
    have hrun := hconducted.chain.carries hhost
    rw [show (bridge.trace host entry call s).map Moment.operation = ops ++ closing ops from hops]
      at hrun
    obtain ⟨u, hbefore, hafter⟩ := carries_append.mp hrun
    have hroom := hafter.forward.1.addressable room
    have hkept := hopening.handledViews_eq hsound hdistinct hbefore hroom
    have hmade : madeViews (ops ++ closing ops) = madeViews ops := by
      rw [madeViews_append, madeViews_closing, List.append_nil]
    unfold reusableViews at hkept ⊢
    rw [hops, List.map_singleton, hmade]
    exact hkept

end Grammar

/-! ## The use of a heap -/

namespace Ledger

/-- Another pin is held on what the reference leads to. -/
def pin (others : Ledger) (r : ObjRef) : Ledger :=
  fun q => if q = r then others q + 1 else others q

/-- One pin fewer is held on what the reference leads to. -/
def unpin (others : Ledger) (r : ObjRef) : Ledger :=
  fun q => if q = r then others q - 1 else others q

end Ledger

/-- How a heap can be used, with the pins that other owners hold, the bridge in use if there
is one, and the operations of its invocations so far. -/
inductive Proceeds (code : UserCode F I) :
    Ledger → Option (Bridge Rooted) → List (List (HostOperation ObjRef Rooted)) →
      HeapWorld F ω → Prop where
  /-- The heap is empty. -/
  | empty {config : HeapConfig} {memory : Memory} {outside : ω} :
      Proceeds code (fun _ => 0) none [] ⟨Heap.ofConfig config, memory, outside⟩
  /-- A client runs a program that leaves pins alone. -/
  | client {α : Type} {others : Ledger} {bridge : Option (Bridge Rooted)}
      {calls : List (List (HostOperation ObjRef Rooted))} {w : HeapWorld F ω}
      {surroundings : Surroundings I ω} {stack : List (Surroundings I ω)}
      {program : HeapProgram F I α} (h : Proceeds code others bridge calls w)
      (hprogram : program.All HeapCommand.SparesPins) :
      Proceeds code others bridge calls (perform surroundings (Runner.ofStack code stack) program w)
  /-- The solver and the surroundings go on. -/
  | elapses {others : Ledger} {bridge : Option (Bridge Rooted)}
      {calls : List (List (HostOperation ObjRef Rooted))} {w : HeapWorld F ω} {memory : Memory}
      {outside : ω} (h : Proceeds code others bridge calls w) :
      Proceeds code others bridge calls ⟨w.heap, memory, outside⟩
  /-- Another owner pins what a reference leads to that the heap has handed out. -/
  | pins {others : Ledger} {bridge : Option (Bridge Rooted)}
      {calls : List (List (HostOperation ObjRef Rooted))} {w : HeapWorld F ω} {r : ObjRef}
      (h : Proceeds code others bridge calls w) (hissued : w.heap.table.Issued r) :
      Proceeds code (others.pin r) bridge calls (w.update fun h => h.pin r)
  /-- Another owner gives up a pin that it holds. -/
  | unpins {others : Ledger} {bridge : Option (Bridge Rooted)}
      {calls : List (List (HostOperation ObjRef Rooted))} {w : HeapWorld F ω} {r : ObjRef}
      (h : Proceeds code others bridge calls w) (hheld : 0 < others r) :
      Proceeds code (others.unpin r) bridge calls (w.update fun h => h.unpin r)
  /-- A bridge is set up by name. -/
  | setup {σ : Type} {others : Ledger} {host : HostRuntime σ ObjRef Rooted}
      {world : σ → HeapWorld F ω} {s s' : σ} {stack : List (Surroundings I ω)}
      {config : BridgeConfig} {bridge : Bridge Rooted} (h : Proceeds code others none [] (world s))
      (hhost : HeapBacked (Runner.ofStack code stack) host world)
      (hsetup : (Bridge.resolveAtSetup host config).start s = (.ok bridge, s')) :
      Proceeds code others (some bridge) [] (world s')
  /-- A bridge cannot be set up. -/
  | refused {σ : Type} {others : Ledger} {host : HostRuntime σ ObjRef Rooted}
      {world : σ → HeapWorld F ω} {s s' : σ} {stack : List (Surroundings I ω)}
      {config : BridgeConfig} {stop : Stop BridgeError} (h : Proceeds code others none [] (world s))
      (hhost : HeapBacked (Runner.ofStack code stack) host world)
      (hsetup : (Bridge.resolveAtSetup host config).start s = (.error stop, s')) :
      Proceeds code others none [] (world s')
  /-- A bridge looks its names up in every invocation. -/
  | perCall {others : Ledger} {w : HeapWorld F ω} {config : BridgeConfig} {bridge : Bridge Rooted}
      (h : Proceeds code others none [] w) (hsetup : Bridge.resolvePerCall config = .ok bridge) :
      Proceeds code others (some bridge) [] w
  /-- Another owner hands pins over to a bridge, as the handles of its functions. -/
  | injected {others others' : Ledger} {w : HeapWorld F ω} {config : BridgeConfig}
      {bindings : Bindings Rooted} {bridge : Bridge Rooted} (h : Proceeds code others none [] w)
      (hgiven : ∀ r, others r = others' r + (Symbols.bound bindings).owed.count r)
      (hsetup : Bridge.ofBindings config bindings = .ok bridge) :
      Proceeds code others' (some bridge) [] w
  /-- The bridge is entered. -/
  | enters {σ : Type} {others : Ledger} {host : HostRuntime σ ObjRef Rooted}
      {world : σ → HeapWorld F ω} {s : σ} {stack : List (Surroundings I ω)} {bridge : Bridge Rooted}
      {calls : List (List (HostOperation ObjRef Rooted))} {w : HeapWorld F ω} {windows : Windows}
      {call : Invocation} {entry : Entry} (h : Proceeds code others (some bridge) calls w)
      (hhost : HeapBacked (Runner.ofStack code stack) host world)
      (hexpose : w.expose windows = (call, world s)) :
      Proceeds code others (some (bridge.evaluate host entry call s).bridge)
        (calls ++ [bridge.operations host entry call s])
        ((world (bridge.evaluate host entry call s).host).withdraw call)
  /-- The bridge is torn down. -/
  | tornDown {σ : Type} {others : Ledger} {host : HostRuntime σ ObjRef Rooted}
      {world : σ → HeapWorld F ω} {s : σ} {stack : List (Surroundings I ω)} {bridge : Bridge Rooted}
      {calls : List (List (HostOperation ObjRef Rooted))}
      (h : Proceeds code others (some bridge) calls (world s))
      (hhost : HeapBacked (Runner.ofStack code stack) host world) :
      Proceeds code others none [] (world (bridge.teardown host s))

/-! ## The invariant -/

/-- What is owed for the bridge in use. -/
def owedFor (bridge : Option (Bridge Rooted)) : List ObjRef := (bridge.map Bridge.owed).getD []

/-- The account is right: the pins are those of other owners and those that are owed for the
bridge, and the views that it keeps are those that it should keep. -/
structure AccountKept (others : Ledger) (bridge : Option (Bridge Rooted))
    (calls : List (List (HostOperation ObjRef Rooted))) (w : HeapWorld F ω) : Prop where
  /-- The pins add up. -/
  balanced : w.heap.Balanced others (owedFor bridge)
  /-- The kept views are those of the first invocation that made all three. -/
  views : ∀ used ∈ bridge, handledViews used.reusable = reusableViews used.config.strategy calls
  /-- No view is kept twice. -/
  distinct : ∀ used ∈ bridge, (keptRefs used.reusable).Nodup

/-- A bridge that has not been entered keeps no views. -/
theorem AccountKept.start {others : Ledger} {w : HeapWorld F ω} {config : BridgeConfig}
    {symbols : Symbols Rooted} (hbal : w.heap.Balanced others symbols.owed) :
    AccountKept others (some (Bridge.start config symbols)) [] w where
  balanced := hbal
  views := by
    rintro used ⟨⟩
    exact (reusableViews_nil config.strategy).symm
  distinct := by
    rintro used ⟨⟩
    exact List.nodup_nil

/-- What changes pins neither of others nor of the bridge keeps the account. -/
theorem AccountKept.of_balanced {others others' : Ledger} {bridge : Option (Bridge Rooted)}
    {calls : List (List (HostOperation ObjRef Rooted))} {w w' : HeapWorld F ω}
    (h : AccountKept others bridge calls w)
    (hbal : w'.heap.Balanced others' (owedFor bridge)) :
    AccountKept others' bridge calls w' where
  balanced := hbal
  views := h.views
  distinct := h.distinct

/-- **Whatever happens, the account is right**, as long as the heap has no more places than
there are references. -/
theorem Proceeds.accountKept {code : UserCode F I}
    (hcode : ∀ f args, (code f args).All HeapCommand.SparesPins) {others : Ledger}
    {bridge : Option (Bridge Rooted)} {calls : List (List (HostOperation ObjRef Rooted))}
    {w : HeapWorld F ω} (h : Proceeds code others bridge calls w)
    (room : w.heap.table.Addressable) : AccountKept others bridge calls w := by
  induction h with
  | empty =>
    refine ⟨⟨Table.sound_empty, ?_, ?_⟩, by rintro used ⟨⟩, by rintro used ⟨⟩⟩
    · intro r hr
      exact absurd hr (Nat.lt_irrefl 0)
    · intro r e he
      cases he
  | @client _ others bridge calls w surroundings stack program _ hprogram ih =>
    have hforward := forward_perform surroundings code stack program w
    have hkept := ih (hforward.1.addressable room)
    have hsame : w.SamePins (perform surroundings (Runner.ofStack code stack) program w) :=
      (runClosed_samePins (I := I)).execute ((runClosed_samePins (I := I)).runner hcode stack)
        surroundings hprogram w
    exact hkept.of_balanced (hkept.balanced.evolves hsame room)
  | elapses _ ih => exact (ih room).of_balanced (ih room).balanced
  | @pins others bridge calls w r _ hissued ih =>
    have hkept := ih (Table.addressable_of_modify room)
    refine hkept.of_balanced ((hkept.balanced.pin hissued).of_count_eq fun q => ?_)
    unfold Ledger.pin
    by_cases hsame : q = r
    · rw [if_pos hsame, hsame, List.count_cons_self]
      omega
    · rw [if_neg hsame, List.count_cons_of_ne (Ne.symm hsame)]
  | @unpins others bridge calls w r _ hheld ih =>
    have hkept := ih (Table.addressable_of_modify room)
    have howed : w.heap.Balanced (others.unpin r) (r :: owedFor bridge) := by
      refine hkept.balanced.of_count_eq fun q => ?_
      unfold Ledger.unpin
      by_cases hsame : q = r
      · rw [if_pos hsame, hsame, List.count_cons_self]
        omega
      · rw [if_neg hsame, List.count_cons_of_ne (Ne.symm hsame)]
    exact hkept.of_balanced howed.unpin
  | @setup σ others host world s s' stack config bridge _ hhost hsetup ih =>
    have hevolves := (Bridge.forward_setup hhost hsetup).1
    obtain ⟨bindings, rfl, hbal⟩ :=
      Bridge.balanced_setup hhost hsetup (ih (hevolves.addressable room)).balanced
    exact .start hbal
  | @refused σ others host world s s' stack config stop _ hhost hsetup ih =>
    rw [Bridge.eq_of_setup_error hhost hsetup] at room ⊢
    exact ih room
  | @perCall others w config bridge _ hsetup ih =>
    rw [Bridge.validated_eq_ok hsetup]
    exact .start (ih room).balanced
  | @injected others others' w config bindings bridge _ hgiven hsetup ih =>
    rw [Bridge.validated_eq_ok hsetup]
    refine .start ((ih room).balanced.of_count_eq fun r => ?_)
    exact (hgiven r).symm
  | @enters σ others host world s stack bridge calls w windows call entry _ hhost hexpose ih =>
    have hsame : (world s).heap = w.heap := by
      rw [(exposed_of_expose hexpose).1]
    have hforward := bridge.forward_evaluate hhost entry call s
    have hroom : w.heap.table.Addressable := hsame ▸ hforward.1.addressable room
    have hkept := ih hroom
    have hbal : (world s).heap.Balanced others bridge.owed := by
      rw [hsame]
      exact hkept.balanced
    obtain ⟨hviews, hdistinct⟩ := bridge.handledViews_evaluate hhost entry call s hbal.sound
      (hkept.distinct bridge rfl) room
    refine ⟨(bridge.balanced_evaluate hcode hhost entry call hbal room).1, ?_, ?_⟩
    · rintro used ⟨⟩
      rw [hviews, hkept.views bridge rfl, reusableViews_snoc,
        (Bridge.config_symbols_evaluate host bridge entry call s).1]
    · rintro used ⟨⟩
      exact hdistinct
  | @tornDown σ others host world s stack bridge calls _ hhost ih =>
    have hforward := (bridge.teardown_traced host s).2.1.carries hhost
    have hkept := ih (hforward.forward.1.addressable room)
    refine ⟨(bridge.balanced_teardown hcode hhost hkept.balanced room).1, ?_, ?_⟩
    · rintro used ⟨⟩
    · rintro used ⟨⟩

/-! ## The result -/

/-- The pins that the bridge in use holds on what a reference leads to: one for each of its
function handles that leads there, and one more if it is one of the views that are kept. -/
def heldByBridge (bridge : Option (Bridge Rooted))
    (calls : List (List (HostOperation ObjRef Rooted))) (r : ObjRef) : Nat :=
  match bridge with
  | none => 0
  | some bridge =>
    (bridge.symbols.handles.map Rooted.ref).count r +
      if r ∈ (reusableViews bridge.config.strategy calls).getD [] then 1 else 0

/-- What is owed for the bridge in use is what it holds. -/
theorem AccountKept.count_owedFor {others : Ledger} {bridge : Option (Bridge Rooted)}
    {calls : List (List (HostOperation ObjRef Rooted))} {w : HeapWorld F ω}
    (h : AccountKept others bridge calls w) (r : ObjRef) :
    (owedFor bridge).count r = heldByBridge bridge calls r := by
  cases bridge with
  | none => rfl
  | some used =>
    have hkept : keptRefs used.reusable = (reusableViews used.config.strategy calls).getD [] := by
      rw [keptRefs_eq, h.views used rfl]
    have hdistinct := h.distinct used rfl
    show (keptRefs used.reusable ++ used.symbols.owed).count r =
      (used.symbols.handles.map Rooted.ref).count r + _
    rw [hkept] at hdistinct ⊢
    rw [List.count_append, Symbols.map_ref_handles, Nat.add_comm]
    congr 1
    -- a view that is kept is kept once
    by_cases hmem : r ∈ (reusableViews used.config.strategy calls).getD []
    · rw [if_pos hmem, List.count_eq_one_of_mem hdistinct hmem]
    · rw [if_neg hmem, List.count_eq_zero_of_not_mem hmem]

/-- Pins are in order: between invocations they add up, and none is undone that is not
there. -/
structure PinsInOrder (code : UserCode F I) (others : Ledger) (bridge : Option (Bridge Rooted))
    (calls : List (List (HostOperation ObjRef Rooted))) (w : HeapWorld F ω) : Prop where
  /-- Each object has the pins of other owners and those of the bridge. -/
  adds_up : ∀ r e, w.heap.entry? r = some e → e.pins = others r + heldByBridge bridge calls r
  /-- In the next invocation, on any host that is backed by the heap and however it ends, no
  pin is undone that is not there. -/
  invocation : ∀ used ∈ bridge, ∀ {σ : Type} {host : HostRuntime σ ObjRef Rooted}
    {world : σ → HeapWorld F ω} {stack : List (Surroundings I ω)} {s : σ} {windows : Windows}
    {call : Invocation} (entry : Entry), HeapBacked (Runner.ofStack code stack) host world →
    w.expose windows = (call, world s) →
    (world (used.evaluate host entry call s).host).heap.table.Addressable →
    ∀ moment ∈ used.trace host entry call s, moment.Covered world
  /-- In a teardown no pin is undone that is not there either, and what is left are the pins
  of other owners. -/
  teardown : ∀ used ∈ bridge, ∀ {σ : Type} {host : HostRuntime σ ObjRef Rooted}
    {world : σ → HeapWorld F ω} {stack : List (Surroundings I ω)} {s : σ},
    HeapBacked (Runner.ofStack code stack) host world → world s = w →
    (∀ moment ∈ used.teardownTrace host s, moment.Covered world) ∧
      ∀ r e, (world (Session.intoHost host ⟨s, used⟩)).heap.entry? r = some e → e.pins = others r
  /-- A bridge that cannot be set up has changed no pins. -/
  refusal : ∀ {σ : Type} {host : HostRuntime σ ObjRef Rooted} {world : σ → HeapWorld F ω}
    {stack : List (Surroundings I ω)} {s s' : σ} {config : BridgeConfig} {stop : Stop BridgeError},
    HeapBacked (Runner.ofStack code stack) host world → world s = w →
    (Bridge.resolveAtSetup host config).start s = (.error stop, s') →
    ∀ r, (world s').heap.pinCount? r = w.heap.pinCount? r

/-- **Pins are balanced.** However a heap has been used, by clients, by other owners of pins
and by bridges that were set up in any of the three ways, entered and torn down on hosts that
are backed by the heap and may fail at any operation: as long as user code neither pins nor
unpins, between invocations each object has one pin for each that another owner holds, one
for each function handle of the bridge that leads to it, and one if it is one of the kept
views.  No unpin and no release meets an object without a pin, a teardown leaves only the
pins of other owners, and a setup that fails changes none.  References are 32-bit words, so
this holds as long as the heap has no more places than there are numbers. -/
theorem pins_balanced {code : UserCode F I} {others : Ledger} {bridge : Option (Bridge Rooted)}
    {calls : List (List (HostOperation ObjRef Rooted))} {w : HeapWorld F ω}
    (hcode : ∀ f args, (code f args).All HeapCommand.SparesPins)
    (h : Proceeds code others bridge calls w) (room : w.heap.table.Addressable) :
    PinsInOrder code others bridge calls w := by
  have hkept := h.accountKept hcode room
  refine ⟨?_, ?_, ?_, ?_⟩
  · intro r e he
    rw [hkept.balanced.pins r e he, hkept.count_owedFor r]
  · intro used hused σ host world stack s windows call entry hhost hexpose hroom
    have hbal : (world s).heap.Balanced others used.owed := by
      cases hused
      rw [(exposed_of_expose hexpose).1]
      exact hkept.balanced
    exact (used.balanced_evaluate hcode hhost entry call hbal hroom).2
  · intro used hused σ host world stack s hhost hworld
    have hbal : (world s).heap.Balanced others used.owed := by
      cases hused
      rw [hworld]
      exact hkept.balanced
    have hroom : (world (used.teardown host s)).heap.table.Addressable :=
      used.addressable_teardown hhost (hworld ▸ room)
    obtain ⟨hended, hcovered⟩ := used.balanced_teardown hcode hhost hbal hroom
    exact ⟨hcovered, hended.pins⟩
  · intro σ host world stack s s' config stop hhost hworld hsetup r
    rw [Bridge.eq_of_setup_error hhost hsetup, hworld]

namespace Echo

/-- The operations of the first invocation of the small session. -/
def operations : List (HostOperation ObjRef Rooted) :=
  session.bridge.operations (runtime run) .residual call entered

/-- The first invocation is a way of using the heap. -/
theorem proceeds : Proceeds code (fun _ => 0) (some served.bridge) [operations] served.host := by
  have hprogram : setUp.All HeapCommand.SparesPins :=
    ⟨trivial, fun _ => ⟨trivial, fun _ => trivial⟩⟩
  have hworld : Proceeds code (fun _ => 0) none [] world := .client .empty hprogram
  have hsetup : Bridge.resolvePerCall config = .ok session.bridge :=
    Bridge.resolvePerCall_of_validate (by decide)
  have hexpose : world.expose windows = (call, id entered) := rfl
  have hserved : Proceeds code (fun _ => 0)
      (some (session.bridge.evaluate (runtime run) .residual call entered).bridge)
      ([] ++ [session.bridge.operations (runtime run) .residual call entered])
      ((id (session.bridge.evaluate (runtime run) .residual call entered).host).withdraw call) :=
    .enters (.perCall hworld hsetup) (heapBacked_runtime run) hexpose
  rw [List.nil_append, id_eq] at hserved
  unfold served evaluation operations
  dsimp only
  exact hserved

end Echo

/-- After the first invocation of the small session another owner pins the function: each of
the three kept views has one pin, and the function has that of the other owner. -/
theorem pins_balanced_echo :
    reusableViews .reuse [Echo.operations] = some [⟨1, 0⟩, ⟨2, 0⟩, ⟨3, 0⟩] ∧
      (Echo.served.host.heap.pin ⟨0, 0⟩).pinCount? ⟨0, 0⟩ = some 1 ∧
      (Echo.served.host.heap.pin ⟨0, 0⟩).pinCount? ⟨1, 0⟩ = some 1 ∧
      PinsInOrder Echo.code (Ledger.pin (fun _ => 0) ⟨0, 0⟩) (some Echo.served.bridge)
        [Echo.operations] (Echo.served.host.update fun h => h.pin ⟨0, 0⟩) := by
  have hmade : madeViews Echo.operations = [⟨1, 0⟩, ⟨2, 0⟩, ⟨3, 0⟩] := by decide +kernel
  have hissued : Echo.served.host.heap.table.Issued ⟨0, 0⟩ :=
    Heap.issued_of_isLive (by decide +kernel)
  refine ⟨?_, by decide +kernel, by decide +kernel, ?_⟩
  · unfold reusableViews
    rw [List.map_singleton, hmade]
    rfl
  · refine pins_balanced (Echo.all_code (fun _ => trivial) fun _ => trivial)
      (.pins Echo.proceeds hissued) ?_
    decide +kernel

end CallbackBridge
