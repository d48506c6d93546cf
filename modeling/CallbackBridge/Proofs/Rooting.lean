/-
# The rooting discipline of one invocation

Whatever a host gives and however an invocation ends, what the bridge asks of the host
falls into an opening and the closing of the guard.  In the opening nothing is given back,
and whatever has to survive is pinned by the very next operation; in the closing every
view that was shown is retired once, in order, and then every pin is undone once, in
reverse order (`evaluate_disciplined`).
-/
import CallbackBridge.Proofs.Protocol
namespace CallbackBridge

open HostOperation

variable {σ R K : Type}

/-! ## Kinds of operations -/

namespace HostOperation

/-- The operation looks for the user function. -/
def Looks : HostOperation R K → Prop
  | resolve _ _ => True
  | isCallable _ _ => True
  | typeName _ _ => True
  | attach _ _ => True
  | _ => False

/-- The operation asks for a view, whether it gets one or not. -/
def AsksForView : HostOperation R K → Prop
  | materialize _ _ => True
  | repoint _ _ _ => True
  | _ => False

/-- The operation calls a function, whether that returns or not. -/
def Calls : HostOperation R K → Prop
  | call _ _ _ => True
  | _ => False

/-- The operation reads a value. -/
def Reads : HostOperation R K → Prop
  | read _ _ => True
  | _ => False

/-- The operation detaches a view or gives up a root. -/
def GivesBack : HostOperation R K → Prop
  | retire _ => True
  | unpin _ => True
  | release _ => True
  | _ => False

/-- The function that the operation has found. -/
def found? : HostOperation R K → Option R
  | attach _ value => some value
  | isCallable value true => some value
  | _ => none

/-- The view or result that the operation has just given and that nothing roots yet. -/
def unrooted? : HostOperation R K → Option R
  | call _ _ (.ok result) => some result
  | op => op.shown?

/-- Each view and each result is pinned by the next operation. -/
def RootedAtOnce : List (HostOperation R K) → Prop
  | [] => True
  | op :: rest =>
    (∀ value, op.unrooted? = some value → ∃ rest', rest = .pin value :: rest') ∧
      RootedAtOnce rest

/-- What pins at once can be followed by what pins at once. -/
theorem RootedAtOnce.append {ops ops' : List (HostOperation R K)} (h : RootedAtOnce ops)
    (h' : RootedAtOnce ops') : RootedAtOnce (ops ++ ops') := by
  induction ops with
  | nil => exact h'
  | cons op rest ih =>
    refine ⟨fun value hvalue => ?_, ih h.2⟩
    obtain ⟨rest', rfl⟩ := h.1 value hvalue
    exact ⟨rest' ++ ops', rfl⟩

/-- Operations that give neither views nor results need no pins. -/
theorem rootedAtOnce_of_idle {ops : List (HostOperation R K)}
    (h : ∀ op ∈ ops, op.unrooted? = none) : RootedAtOnce ops := by
  induction ops with
  | nil => trivial
  | cons op rest ih =>
    refine ⟨fun value hvalue => ?_, ih fun op' hop' => h op' (List.mem_cons_of_mem _ hop')⟩
    rw [h op List.mem_cons_self] at hvalue
    cases hvalue

end HostOperation

/-! ## The discipline -/

/-- The operations of an invocation, of which the opening is the part before the guard
closes, keep to the rooting discipline. -/
structure Disciplined (opening ops : List (HostOperation R K)) : Prop where
  /-- After the opening, each view that was made or moved is retired, in order, then each pin
  is undone, in reverse order, and nothing else is asked. -/
  closes : ops = opening ++ (shownViews opening).map .retire ++
    (pinnedValues opening).reverse.map .unpin
  /-- Nothing is given back before. -/
  keeps : ∀ op ∈ opening, ¬ op.GivesBack
  /-- Each view and the result are pinned by the very next operation. -/
  roots : RootedAtOnce opening
  /-- Before the first view is asked for, and before the call, the function was found and
  pinned at once; what is called is that function. -/
  function_first : ∀ pre op post, opening = pre ++ op :: post → op.AsksForView ∨ op.Calls →
    ∃ looking last f rest, pre = looking ++ last :: .pin f :: rest ∧
      (∀ op' ∈ looking, op'.Looks) ∧ last.found? = some f ∧
      ∀ f' views outcome, op = .call f' views outcome → f' = f
  /-- What is read is what a call returned, pinned just before; the read is the last. -/
  reads_last : ∀ pre value result post, opening = pre ++ .read value result :: post →
    post = [] ∧ ∃ pre' f views, pre = pre' ++ [.call f views (.ok value), .pin value]

/-! ## The parts of the grammar -/

/-- What comes after a part in which an operation does not occur. -/
theorem exists_of_append_eq {α : Type} {part rest pre post : List α} {a : α}
    (h : part ++ rest = pre ++ a :: post) (hpart : a ∉ part) :
    ∃ mid, pre = part ++ mid ∧ rest = mid ++ a :: post := by
  induction part generalizing pre with
  | nil => exact ⟨pre, rfl, h⟩
  | cons b part ih =>
    cases pre with
    | nil =>
      simp only [List.cons_append, List.nil_append, List.cons.injEq] at h
      exact absurd (h.1 ▸ List.mem_cons_self) hpart
    | cons c pre =>
      simp only [List.cons_append, List.cons.injEq] at h
      obtain ⟨mid, rfl, hrest⟩ := ih h.2 fun hmem => hpart (List.mem_cons_of_mem b hmem)
      exact ⟨mid, by rw [h.1]; rfl, hrest⟩

/-- Looking for the function only looks. -/
theorem Lookup.looks {names : BindingNames} {entry : Entry} {symbols : Symbols K}
    {ops : List (HostOperation R K)} {result : Except BridgeError R}
    (h : Lookup names entry symbols ops result) : ∀ op ∈ ops, op.Looks := by
  cases h <;> simp [Looks]

/-- A search that succeeds ends with what it has found. -/
theorem Lookup.found {names : BindingNames} {entry : Entry} {symbols : Symbols K}
    {ops : List (HostOperation R K)} {f : R} (h : Lookup names entry symbols ops (.ok f)) :
    ∃ looking last, ops = looking ++ [last] ∧ last.found? = some f := by
  cases h with
  | attached _ => exact ⟨[], _, rfl, rfl⟩
  | callable _ => exact ⟨[_], _, rfl, rfl⟩

/-- Making views asks for views and pins, at once. -/
theorem Makes.disciplined {buffers : List Buffer} {ops : List (HostOperation R K)}
    {result : Except HostError (List R)} (h : Makes buffers ops result) :
    (∀ op ∈ ops, ¬ op.GivesBack ∧ ¬ op.Reads ∧ ¬ op.Calls) ∧ RootedAtOnce ops := by
  induction h with
  | nil => exact ⟨by simp, trivial⟩
  | failed => exact ⟨by simp [GivesBack, Reads, Calls], by simp [unrooted?, shown?], trivial⟩
  | made _ ih =>
    refine ⟨?_, ⟨by simp [unrooted?, shown?], by simp [unrooted?, shown?], ih.2⟩⟩
    simpa [GivesBack, Reads, Calls] using ih.1

/-- Moving views asks for views and pins, at once. -/
theorem Moves.disciplined {moves : List (R × Buffer)} {ops : List (HostOperation R K)}
    {result : Except HostError Unit} (h : Moves moves ops result) :
    (∀ op ∈ ops, ¬ op.GivesBack ∧ ¬ op.Reads ∧ ¬ op.Calls) ∧ RootedAtOnce ops := by
  induction h with
  | nil => exact ⟨by simp, trivial⟩
  | failed => exact ⟨by simp [GivesBack, Reads, Calls], by simp [unrooted?, shown?], trivial⟩
  | moved _ ih =>
    refine ⟨?_, ⟨by simp [unrooted?, shown?], by simp [unrooted?, shown?], ih.2⟩⟩
    simpa [GivesBack, Reads, Calls] using ih.1

/-- Obtaining views gives nothing back, does not use the function, and pins at once. -/
theorem Viewing.disciplined {supportsReuse : Bool} {buffers : StateViews Buffer}
    {strategy : ViewStrategy} {kept kept' : Option (StateViews K)}
    {ops : List (HostOperation R K)} {result : Except HostError (StateViews R)}
    (h : Viewing supportsReuse buffers strategy kept ops result kept') :
    (∀ op ∈ ops, ¬ op.GivesBack ∧ ¬ op.Reads ∧ ¬ op.Calls) ∧ RootedAtOnce ops := by
  cases h with
  | unmade hmakes => exact hmakes.disciplined
  | fresh hmakes => exact hmakes.disciplined
  | unsupported _ => exact ⟨by simp, trivial⟩
  | first _ hmakes =>
    refine ⟨List.forall_mem_append.mpr ⟨hmakes.disciplined.1, ?_⟩,
      hmakes.disciplined.2.append (rootedAtOnce_of_idle ?_)⟩
    · simp [GivesBack, Reads, Calls]
    · simp [unrooted?, shown?]
  | later _ hmoves =>
    refine ⟨List.forall_mem_append.mpr ⟨?_, hmoves.disciplined.1⟩,
      (rootedAtOnce_of_idle ?_).append hmoves.disciplined.2⟩
    · simp [GivesBack, Reads, Calls]
    · simp [unrooted?, shown?]

/-- What is pinned when views are made are these views. -/
theorem Makes.pinnedValues_eq {buffers : List Buffer} {ops : List (HostOperation R K)}
    {views : List R} (h : Makes buffers ops (.ok views)) : pinnedValues ops = views := by
  generalize hresult : Except.ok views = result at h
  induction h generalizing views with
  | nil =>
    cases hresult
    rfl
  | failed => cases hresult
  | @made buffer rest view ops result hrest ih =>
    cases result with
    | error e => cases hresult
    | ok rest =>
      cases hresult
      simp [pinned?, ih rfl]

/-- What is shown when views are made is what is pinned. -/
theorem Makes.shownViews_eq {buffers : List Buffer} {ops : List (HostOperation R K)}
    {result : Except HostError (List R)} (h : Makes buffers ops result) :
    shownViews ops = pinnedValues ops := by
  induction h with
  | nil => rfl
  | failed => rfl
  | made _ ih => simp [shown?, pinned?, ih]

/-- What is pinned when views are moved are these views. -/
theorem Moves.pinnedValues_eq {moves : List (R × Buffer)} {ops : List (HostOperation R K)}
    (h : Moves moves ops (.ok ())) : pinnedValues ops = moves.map Prod.fst := by
  generalize hresult : Except.ok () = result at h
  induction h with
  | nil => rfl
  | failed => cases hresult
  | moved hrest ih => simp [pinned?, ih hresult]

/-- What is pinned when views are obtained are these views. -/
theorem Viewing.pinnedValues_eq {supportsReuse : Bool} {buffers : StateViews Buffer}
    {strategy : ViewStrategy} {kept kept' : Option (StateViews K)}
    {ops : List (HostOperation R K)} {views : StateViews R}
    (h : Viewing supportsReuse buffers strategy kept ops (.ok views) kept') :
    pinnedValues ops = views.toList := by
  generalize hresult : Except.ok views = result at h
  cases h with
  | unmade _ => cases hresult
  | fresh hmakes =>
    cases hresult
    exact hmakes.pinnedValues_eq
  | unsupported _ => cases hresult
  | first _ hmakes =>
    cases hresult
    simp [pinned?, hmakes.pinnedValues_eq]
  | @later _ _ _ result _ hmoves =>
    cases result with
    | error e => cases hresult
    | ok _ =>
      cases hresult
      simp [pinned?, hmoves.pinnedValues_eq, StateViews.toList]

/-- Calling and delivering gives nothing back, calls the one function, pins at once and
reads last. -/
theorem Answering.disciplined {f : R} {name : String} {views : StateViews R} {outLen : Nat}
    {res res' : Output} {ops : List (HostOperation R K)} {outcome : Outcome BridgeError Unit}
    (h : Answering f name views outLen res ops outcome res') :
    (∃ stop, ops = [.call f views (.error stop)]) ∨
      ∃ value result, ops = [.call f views (.ok value), .pin value, .read value result] := by
  cases h with
  | stopped stop => exact Or.inl ⟨stop, rfl⟩
  | unread e => exact Or.inr ⟨_, _, rfl⟩
  | refused _ => exact Or.inr ⟨_, _, rfl⟩
  | copied _ => exact Or.inr ⟨_, _, rfl⟩

/-- Calling and delivering begins with the one call. -/
theorem Answering.exists_call {f : R} {name : String} {views : StateViews R} {outLen : Nat}
    {res res' : Output} {ops : List (HostOperation R K)} {outcome : Outcome BridgeError Unit}
    (h : Answering f name views outLen res ops outcome res') :
    ∃ result rest, ops = .call f views result :: rest ∧ ∀ op ∈ rest, ¬ op.Calls := by
  rcases h.disciplined with ⟨stop, rfl⟩ | ⟨value, result, rfl⟩
  · exact ⟨_, [], rfl, by simp⟩
  · exact ⟨_, _, rfl, by simp [Calls]⟩

/-- Looking for the function does nothing else. -/
theorem HostOperation.Looks.excludes {op : HostOperation R K} (h : op.Looks) :
    ¬ op.GivesBack ∧ ¬ op.Reads ∧ ¬ op.Calls ∧ ¬ op.AsksForView ∧ op.unrooted? = none := by
  cases op <;> simp_all [Looks, GivesBack, Reads, Calls, AsksForView, unrooted?, shown?]

/-- Up to the call, nothing is called. -/
theorem Lookup.calls_nothing {supportsReuse : Bool} {buffers : StateViews Buffer}
    {strategy : ViewStrategy} {kept kept' : Option (StateViews K)} {names : BindingNames}
    {entry : Entry} {symbols : Symbols K} {looking viewing : List (HostOperation R K)} {f : R}
    {result : Except HostError (StateViews R)}
    (hlookup : Lookup names entry symbols looking (.ok f))
    (hviewing : Viewing supportsReuse buffers strategy kept viewing result kept') :
    ∀ op ∈ looking ++ .pin f :: viewing, ¬ op.Calls := by
  rw [List.forall_mem_append, List.forall_mem_cons]
  exact ⟨fun op hop => (hlookup.looks op hop).excludes.2.2.1, id,
    fun op hop => (hviewing.disciplined.1 op hop).2.2⟩

/-- The closing of the guard calls nothing. -/
theorem closing_calls_nothing (ops : List (HostOperation R K)) :
    ∀ op ∈ closing ops, ¬ op.Calls := by
  simp [closing, Calls, or_imp, forall_and]

/-! ## Whole invocations -/

/-- After the function is pinned: what it takes that the rest of the opening is in
order. -/
theorem disciplined_of_pinned {looking rest : List (HostOperation R K)} {f : R}
    (hlooks : ∀ op ∈ looking, op.Looks)
    (hfound : ∃ looking' last, looking = looking' ++ [last] ∧ last.found? = some f)
    (hkeeps : ∀ op ∈ rest, ¬ op.GivesBack) (hroots : RootedAtOnce rest)
    (hcalls : ∀ f' views outcome, .call f' views outcome ∈ rest → f' = f)
    (hreads : ∀ pre value result post, rest = pre ++ .read value result :: post →
      post = [] ∧ ∃ pre' f views, pre = pre' ++ [.call f views (.ok value), .pin value]) :
    Disciplined (looking ++ .pin f :: rest)
      (looking ++ .pin f :: rest ++ closing (looking ++ .pin f :: rest)) where
  closes := (List.append_assoc _ _ _).symm
  keeps := by
    rw [List.forall_mem_append, List.forall_mem_cons]
    exact ⟨fun op hop => (hlooks op hop).excludes.1, by simp [GivesBack], hkeeps⟩
  roots := (rootedAtOnce_of_idle fun op hop => (hlooks op hop).excludes.2.2.2.2).append
    ⟨by simp [unrooted?, shown?], hroots⟩
  function_first := by
    intro pre op post heq hasks
    rw [List.append_cons] at heq
    have hnot : op ∉ looking ++ [.pin f] := by
      intro hmem
      rcases List.mem_append.mp hmem with hmem | hmem
      · have hexcludes := (hlooks op hmem).excludes
        exact hasks.elim hexcludes.2.2.2.1 hexcludes.2.2.1
      · rw [List.mem_singleton.mp hmem] at hasks
        simp [AsksForView, Calls] at hasks
    obtain ⟨mid, rfl, hrest⟩ := exists_of_append_eq heq hnot
    obtain ⟨looking', last, rfl, hlast⟩ := hfound
    refine ⟨looking', last, f, mid, by simp,
      fun op' hop' => hlooks op' (List.mem_append_left _ hop'), hlast, ?_⟩
    rintro f' views outcome rfl
    exact hcalls f' views outcome (hrest ▸ List.mem_append_right _ List.mem_cons_self)
  reads_last := by
    intro pre value result post heq
    rw [List.append_cons] at heq
    have hnot : .read value result ∉ looking ++ [.pin f] := by
      intro hmem
      rcases List.mem_append.mp hmem with hmem | hmem
      · exact (hlooks _ hmem).excludes.2.1 trivial
      · cases List.mem_singleton.mp hmem
    obtain ⟨mid, rfl, hrest⟩ := exists_of_append_eq heq hnot
    obtain ⟨rfl, pre', f', views, rfl⟩ := hreads mid value result post hrest
    exact ⟨rfl, looking ++ [.pin f] ++ pre', f', views, by simp⟩

/-- Every opening of the grammar, followed by the closing of the guard, keeps to the
discipline. -/
theorem Opening.disciplined {supportsReuse : Bool} {bridge : Bridge K} {entry : Entry}
    {admission : Admission} {res res' : Output} {opening : List (HostOperation R K)}
    {outcome : Outcome BridgeError Unit} {kept : Option (StateViews K)}
    (h : Opening supportsReuse bridge entry admission res opening outcome kept res') :
    Disciplined opening (opening ++ closing opening) := by
  cases h with
  | unfound hlookup =>
    have hlooks := hlookup.looks
    have hmem : ∀ {pre post : List (HostOperation R K)} {op}, opening = pre ++ op :: post →
        op.Looks := fun heq => hlooks _ (heq ▸ List.mem_append_right _ List.mem_cons_self)
    refine ⟨(List.append_assoc _ _ _).symm, fun op hop => (hlooks op hop).excludes.1,
      rootedAtOnce_of_idle fun op hop => (hlooks op hop).excludes.2.2.2.2, ?_, ?_⟩
    · intro pre op post heq hasks
      have hexcludes := (hmem heq).excludes
      exact (hasks.elim hexcludes.2.2.2.1 hexcludes.2.2.1).elim
    · intro pre value result post heq
      exact ((hmem heq).excludes.2.1 trivial).elim
  | unseen hlookup hviewing =>
    obtain ⟨hplain, hroots⟩ := hviewing.disciplined
    refine disciplined_of_pinned hlookup.looks hlookup.found (fun op hop => (hplain op hop).1)
      hroots ?_ ?_
    · intro f' views outcome hmem
      exact ((hplain _ hmem).2.2 trivial).elim
    · intro pre value result post heq
      have hmem := heq ▸ List.mem_append_right pre List.mem_cons_self
      exact ((hplain _ hmem).2.1 trivial).elim
  | @asked looking viewing asking f views _ _ _ hlookup hviewing hanswering =>
    obtain ⟨hplain, hroots⟩ := hviewing.disciplined
    -- the call comes right after the views, and the read right after the pin of its result
    have hnotViewing : ∀ {op : HostOperation R K}, op.Reads → op ∉ viewing :=
      fun hreads hmem => (hplain _ hmem).2.1 hreads
    rcases hanswering.disciplined with ⟨stop, rfl⟩ | ⟨value, result, rfl⟩
    · refine disciplined_of_pinned hlookup.looks hlookup.found ?_
        (hroots.append (rootedAtOnce_of_idle ?_)) ?_ ?_
      · exact List.forall_mem_append.mpr ⟨fun op hop => (hplain op hop).1, by simp [GivesBack]⟩
      · simp [unrooted?, shown?]
      · intro f' views' outcome hmem
        rcases List.mem_append.mp hmem with hmem | hmem
        · exact ((hplain _ hmem).2.2 trivial).elim
        · cases List.mem_singleton.mp hmem
          rfl
      · intro pre value result post heq
        obtain ⟨mid, rfl, hasking⟩ := exists_of_append_eq heq (hnotViewing trivial)
        have hmem : .read value result ∈ [(.call f views (.error stop) : HostOperation R K)] :=
          hasking ▸ List.mem_append_right mid List.mem_cons_self
        cases List.mem_singleton.mp hmem
    · refine disciplined_of_pinned hlookup.looks hlookup.found ?_ (hroots.append ?_) ?_ ?_
      · exact List.forall_mem_append.mpr ⟨fun op hop => (hplain op hop).1, by simp [GivesBack]⟩
      · simp [RootedAtOnce, unrooted?, shown?]
      · intro f' views' outcome hmem
        rcases List.mem_append.mp hmem with hmem | hmem
        · exact ((hplain _ hmem).2.2 trivial).elim
        · simp only [List.mem_cons, call.injEq, reduceCtorEq, List.not_mem_nil, or_false] at hmem
          exact hmem.1
      · intro pre value' result' post heq
        obtain ⟨mid, rfl, hasking⟩ := exists_of_append_eq heq (hnotViewing trivial)
        have hasking' : [(.call f views (.ok value) : HostOperation R K), .pin value] ++
            [.read value result] = mid ++ .read value' result' :: post := hasking
        obtain ⟨mid', rfl, hlast⟩ := exists_of_append_eq hasking' (by simp)
        rcases mid' with _ | ⟨op, mid'⟩
        · simp only [List.nil_append, List.cons.injEq, HostOperation.read.injEq] at hlast
          obtain ⟨⟨rfl, -⟩, rfl⟩ := hlast
          exact ⟨rfl, viewing, f, views, by simp⟩
        · simp at hlast

/-- A call stands where the function was found and the views were obtained, and it is the
only one. -/
theorem Opening.exists_call {supportsReuse : Bool} {bridge : Bridge K} {entry : Entry}
    {admission : Admission} {res res' : Output} {opening pre post : List (HostOperation R K)}
    {outcome : Outcome BridgeError Unit} {kept : Option (StateViews K)} {f : R}
    {views : StateViews R} {result : Outcome HostError R}
    (h : Opening supportsReuse bridge entry admission res opening outcome kept res')
    (heq : opening ++ closing opening = pre ++ .call f views result :: post) :
    ∃ looking viewing rest, pre = looking ++ .pin f :: viewing ∧
      post = rest ++ closing opening ∧
      Lookup bridge.config.names entry bridge.symbols looking (.ok f) ∧
      Viewing supportsReuse admission.buffers bridge.config.strategy bridge.reusable viewing
        (.ok views) kept ∧
      Answering f (bridge.config.names.reported entry) views admission.outLen res
        (.call f views result :: rest) outcome res' := by
  have hclosing := closing_calls_nothing opening
  have hmem : .call f views result ∈ opening ++ closing opening :=
    heq ▸ List.mem_append_right pre List.mem_cons_self
  have hopening := (List.mem_append.mp hmem).resolve_right fun hmem => hclosing _ hmem trivial
  cases h with
  | unfound hlookup => exact ((hlookup.looks _ hopening).excludes.2.2.1 trivial).elim
  | unseen hlookup hviewing => exact (hlookup.calls_nothing hviewing _ hopening trivial).elim
  | @asked looking viewing asking f' views' _ _ _ hlookup hviewing hanswering =>
    have hnot : .call f views result ∉ looking ++ .pin f' :: viewing :=
      fun hmem => hlookup.calls_nothing hviewing _ hmem trivial
    obtain ⟨result', rest, rfl, hrest⟩ := hanswering.exists_call
    generalize closing _ = closed at heq hclosing ⊢
    have hsplit : (looking ++ .pin f' :: viewing) ++ (.call f' views' result' :: (rest ++ closed)) =
        pre ++ .call f views result :: post := by simpa using heq
    obtain ⟨mid, rfl, htail⟩ := exists_of_append_eq hsplit hnot
    -- the call is the first one that comes after the views, and there is no other
    cases mid with
    | nil =>
      simp only [List.nil_append, List.cons.injEq, call.injEq] at htail
      obtain ⟨⟨rfl, rfl, rfl⟩, rfl⟩ := htail
      exact ⟨looking, viewing, rest, by simp, rfl, hlookup, hviewing, hanswering⟩
    | cons op mid =>
      simp only [List.cons_append, List.cons.injEq] at htail
      have hmem : .call f views result ∈ rest ++ closed :=
        htail.2 ▸ List.mem_append_right mid List.mem_cons_self
      rcases List.mem_append.mp hmem with hmem | hmem
      · exact (hrest _ hmem trivial).elim
      · exact (hclosing _ hmem trivial).elim

/-- **Rooting discipline.** On every host, for every bridge and every call, on every way out,
what the bridge asks of the host in one invocation leads from the state before it to the
state after it and keeps to the rooting discipline: an opening in which the function is
pinned before the first view is asked for, each view and the result by the very next
operation, and nothing is given back; then each shown view is retired once, in order, and
each pin undone once, in reverse order. -/
theorem evaluate_disciplined (host : HostRuntime σ R K) (bridge : Bridge K) (entry : Entry)
    (call : Invocation) (s : σ) : ∃ opening,
      Chain host s (bridge.trace host entry call s) (bridge.evaluate host entry call s).host ∧
      Disciplined opening (bridge.operations host entry call s) := by
  have hconducted := bridge.evaluate_traced host entry call s
  cases hcheck : bridge.config.check entry call with
  | error e =>
    refine ⟨[], hconducted.chain, ?_⟩
    rw [hconducted.rejected e hcheck]
    exact ⟨rfl, by simp, trivial, by simp, by simp⟩
  | ok admission =>
    obtain ⟨opening, hopening, hops⟩ := hconducted.admitted admission hcheck
    refine ⟨opening, hconducted.chain, ?_⟩
    rw [hops]
    exact hopening.disciplined

end CallbackBridge
