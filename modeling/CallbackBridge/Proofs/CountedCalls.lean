/-
# Calls on the reference-counting host

What an invocation does on the reference-counting host, whose objects stay when nothing holds
them any more.

* `CountedWorld.Precedes` says that the objects of one world are still there in a later one,
  as they were.  Up to the call of the user function each operation leads to such a world, and
  the views are new arrays that show what the solver has passed (`Makes.counted`).
* `CountedCall` is the moment of the call, and `CountedEnd` what becomes of the result.
* `Bridge.exists_countedCall` says that an invocation whose arguments are accepted calls the
  function that it finds once, and calls nothing if it finds none.
-/
import Mathlib.Data.List.Forall2
import CallbackBridge.Process.Engine
import CallbackBridge.Proofs.Delivery
namespace CallbackBridge

open HostOperation

variable {F G : Type}

/-! ## Objects that stay -/

namespace Store

variable {s s' s'' : Store G} {id : ObjId} {object : CountedObject G}

/-- The objects of the first store are in the second one, as they were. -/
def Within (s s' : Store G) : Prop :=
  ∀ id object, s.get? id = some object → s'.get? id = some object

theorem Within.refl (s : Store G) : s.Within s := fun _ _ h => h

theorem Within.trans (h : s.Within s') (h' : s'.Within s'') : s.Within s'' :=
  fun id object hid => h' id object (h id object hid)

/-- A new object is found under its identity. -/
theorem get?_make_self (s : Store G) (object : CountedObject G) :
    (s.make object).2.get? (s.make object).1 = some object := by
  unfold make get?
  simp

/-- All others stay. -/
theorem within_make (s : Store G) (object : CountedObject G) : s.Within (s.make object).2 := by
  intro id other hid
  unfold make get? at *
  have hlt : id.index < s.objects.size := (Array.getElem?_eq_some_iff.mp hid).1
  simpa [Array.getElem?_push, Nat.ne_of_lt hlt] using hid

theorem Within.array? (h : s.Within s') {a : CountedArray} (ha : s.array? id = some a) :
    s'.array? id = some a := by
  unfold Store.array? at *
  cases hid : s.get? id with
  | none =>
    rw [hid] at ha
    cases ha
  | some object =>
    rw [hid] at ha
    rw [h id object hid]
    exact ha

end Store

namespace CountedWorld

variable {run : CallableRunner F G} {w w' w'' : CountedWorld F G}

/-- The objects of the first world are in the second one, as they were, and solver memory is the
same. -/
structure Precedes (w w' : CountedWorld F G) : Prop where
  /-- The objects stay. -/
  store : w.store.Within w'.store
  /-- Solver memory stays. -/
  memory : w'.memory = w.memory

theorem Precedes.refl (w : CountedWorld F G) : w.Precedes w := ⟨.refl _, rfl⟩

theorem Precedes.trans (h : w.Precedes w') (h' : w'.Precedes w'') : w.Precedes w'' :=
  ⟨h.store.trans h'.store, h'.memory.trans h.memory⟩

/-- Making a view makes a new array. -/
theorem precedes_materialize (buffer : Buffer) (w : CountedWorld F G) :
    w.Precedes (w.materialize buffer).2 := ⟨w.store.within_make _, rfl⟩

/-- The new array shows the buffer. -/
theorem array?_materialize (buffer : Buffer) (w : CountedWorld F G) :
    (w.materialize buffer).2.store.array? (w.materialize buffer).1 =
      some (.ofBuffer buffer w.memory) := by
  show Store.array? (w.store.make (.array (.ofBuffer buffer w.memory))).2
    (w.store.make (.array (.ofBuffer buffer w.memory))).1 = _
  unfold Store.array?
  rw [Store.get?_make_self]

/-- Taking note of a pin leaves the objects alone. -/
theorem precedes_pin (id : ObjId) (w : CountedWorld F G) : w.Precedes (w.pin id) :=
  ⟨.refl _, rfl⟩

/-- Searching changes nothing. -/
theorem eq_of_looks {op : HostOperation ObjId ObjId} (h : op.Performs (runtime run) w w')
    (hlooks : op.Looks) : w' = w := by
  cases op with
  | resolve name found => exact (congrArg Prod.snd h).symm
  | isCallable value callable => exact (congrArg Prod.snd h).symm
  | typeName value name => exact (congrArg Prod.snd h).symm
  | attach handle value => exact (congrArg Prod.snd h).symm
  | _ => exact hlooks.elim

end CountedWorld

/-! ## Views -/

/-- The elements of an array whose elements lie side by side are what its memory holds. -/
theorem CountedArray.elements_ofBuffer {buffer : Buffer} {m : Memory}
    (hlen : (buffer.values m).length = buffer.len) :
    (ofBuffer buffer m).elements = buffer.values m := by
  have hsize : (ofBuffer buffer m).size = (buffer.values m).length := by
    rw [hlen]
    exact Nat.one_mul buffer.len
  unfold elements
  rw [hsize]
  refine List.ext_getElem (by simp) fun index hindex hlt => ?_
  have hplace : ((ofBuffer buffer m).place index).toNat = index := by
    show (0 + Int.ofNat index * 1).toNat = index
    simp
  simp only [List.getElem_map, List.getElem_range, hplace]
  show ((buffer.values m).toArray[index]?).getD .zero = _
  simp [hlt]

/-- The object is a contiguous array of doubles in one dimension that shows the values and cannot
be assigned to. -/
def Store.ShowsOnly (s : Store G) (view : ObjId) (values : List Binary64) : Prop :=
  ∃ a, s.array? view = some a ∧ a.dtype = "float64" ∧ a.shape = [values.length] ∧
    a.isContiguous = true ∧ a.writeable = false ∧ a.elements = values

/-- The array that was made for a buffer shows what the buffer covers. -/
theorem Store.showsOnly_of_array? {s : Store G} {view : ObjId} {buffer : Buffer} {m : Memory}
    {values : List Binary64} (ha : s.array? view = some (.ofBuffer buffer m))
    (hvalues : buffer.values m = values) (hlen : values.length = buffer.len) :
    s.ShowsOnly view values := by
  subst hvalues
  refine ⟨_, ha, rfl, ?_, rfl, rfl, CountedArray.elements_ofBuffer hlen⟩
  rw [hlen]
  rfl

section Views

variable {run : CallableRunner F G} {w w' : CountedWorld F G}

/-- **Views are always made**, one array for each buffer. -/
theorem Makes.counted {buffers : List Buffer} {ops : List (HostOperation ObjId ObjId)}
    {result : Except HostError (List ObjId)} (h : Makes buffers ops result)
    (hrun : Carries (fun op => op.Performs (CountedWorld.runtime run)) w ops w') :
    w.Precedes w' ∧ ∃ views, result = .ok views ∧
      List.Forall₂ (fun view buffer => w'.store.array? view = some (.ofBuffer buffer w.memory))
        views buffers := by
  induction h generalizing w with
  | nil =>
    obtain rfl : w = w' := hrun
    exact ⟨.refl w, [], rfl, .nil⟩
  | failed =>
    obtain ⟨w₁, hfailed, -⟩ := hrun
    cases hfailed
  | @made buffer rest view ops result hrest ih =>
    obtain ⟨w₁, hmade, w₂, rfl, hrun⟩ := hrun
    obtain ⟨hprecedes, views, rfl, hviews⟩ := ih hrun
    obtain ⟨rfl, rfl⟩ : (w.materialize buffer).1 = view ∧ (w.materialize buffer).2 = w₁ := by
      cases hmade
      exact ⟨rfl, rfl⟩
    have hfirst := (w.precedes_materialize buffer).trans
      ((w.materialize buffer).2.precedes_pin (w.materialize buffer).1)
    refine ⟨hfirst.trans hprecedes, _, rfl, .cons ?_ hviews⟩
    -- the new array stays while the other views are made
    exact hprecedes.store.array? (w.array?_materialize buffer)

end Views

/-! ## Calling and reading -/

/-- The object can be called and has this code. -/
def Store.Callable (s : Store G) (id : ObjId) (code : G) : Prop :=
  ∃ type label, s.get? id = some (.callable type label true code)

/-- The object is a contiguous array of doubles in one dimension, with these elements. -/
def Store.Vector (s : Store G) (id : ObjId) (values : List Binary64) : Prop :=
  ∃ a, s.array? id = some a ∧ a.dtype = "float64" ∧ a.shape.length = 1 ∧
    a.isContiguous = true ∧ a.elements = values

/-- What is shown can be read. -/
theorem Store.ShowsOnly.vector {s : Store G} {view : ObjId} {values : List Binary64}
    (h : s.ShowsOnly view values) : s.Vector view values := by
  obtain ⟨a, ha, hdtype, hshape, hcontiguous, -, helements⟩ := h
  exact ⟨a, ha, hdtype, by rw [hshape]; rfl, hcontiguous, helements⟩

namespace CountedWorld

variable {w : CountedWorld F G} {f id : ObjId}

/-- What is read is what a contiguous array of doubles in one dimension holds. -/
theorem read_eq_ok_iff {values : List Binary64} :
    w.read id = .ok values ↔ w.store.Vector id values := by
  unfold read Store.Vector
  cases ha : w.store.array? id with
  | none => simp
  | some a =>
    by_cases hform : a.dtype ≠ "float64" ∨ a.shape.length ≠ 1
    · simp only [if_pos hform]
      refine ⟨(fun h => by cases h), ?_⟩
      rintro ⟨a', h, hdtype, hshape, -⟩
      cases h
      exact absurd hform (by simp [hdtype, hshape])
    · simp only [if_neg hform]
      rw [not_or, not_not, not_not] at hform
      cases hcontiguous : a.isContiguous with
      | false => simp [hcontiguous]
      | true => simp [hform, hcontiguous]

/-- What cannot be read is no such array. -/
theorem read_eq_error {e : HostError} (h : w.read id = .error e) :
    ∃ found, e = .notF64Array found := by
  unfold read at h
  split at h
  · cases h
    exact ⟨_, rfl⟩
  · split at h
    · cases h
      exact ⟨_, rfl⟩
    · split at h
      · cases h
      · cases h
        exact ⟨_, rfl⟩

/-- Taking note of a derived result leaves the process alone. -/
theorem process_noteDerived (result : ObjId) (w : CountedWorld F G) :
    (w.noteDerived result).process = w.process := by
  unfold noteDerived
  split
  · split <;> rfl
  · rfl

/-- A call runs the code.  An exception becomes a failure of user code, and what the code
returns is given to the caller with the process as the code has left it. -/
theorem call_of_callable (run : CallableRunner F G) {code : G} (hf : w.store.Callable f code)
    (views : StateViews ObjId) :
    (call run f views w).1 =
        Outcome.mapError (fun e => .userFailure e.text) ((run code views).start w.process).1 ∧
      ∀ r, ((run code views).start w.process).1 = .ok r →
        (call run f views w).2.process = ((run code views).start w.process).2 := by
  obtain ⟨type, label, hf⟩ := hf
  unfold call
  simp only [hf]
  rcases hended : (run code views).start w.process with ⟨stop | r, p⟩
  · cases stop <;> exact ⟨rfl, fun r h => by cases h⟩
  · exact ⟨rfl, fun _ _ => process_noteDerived _ _⟩

/-- What cannot be called is not run. -/
theorem call_of_not_callable (run : CallableRunner F G) (hf : ∀ code, ¬ w.store.Callable f code)
    (views : StateViews ObjId) :
    call run f views w = (.error (.error (.notCallable (w.store.typeName f))), w) := by
  unfold call
  split
  · next type label code hcallable => exact absurd ⟨type, label, hcallable⟩ (hf code)
  · rfl

end CountedWorld

/-! ## The moment of the call -/

/-- In the moments a function is called once, and this is the moment. -/
def CalledOnce {σ R K : Type} (trace : List (Moment σ R K)) (moment : Moment σ R K) : Prop :=
  ∃ pre post, trace = pre ++ moment :: post ∧ moment.operation.Calls ∧
    ∀ other ∈ pre ++ post, ¬ other.operation.Calls

/-- What is known of the moment in which a function is called. -/
structure CountedCall (run : CallableRunner F G) (w : CountedWorld F G)
    (buffers : StateViews Buffer) (f : ObjId) (views : StateViews ObjId)
    (called : Outcome HostError ObjId) (moment : Moment (CountedWorld F G) ObjId ObjId) :
    Prop where
  /-- It is a call of the function with the views. -/
  operation : moment.operation = .call f views called
  /-- The objects have stayed until then. -/
  precedes : w.Precedes moment.before
  /-- The views are arrays that were made for the buffers. -/
  shown : List.Forall₂
    (fun view buffer => moment.before.store.array? view = some (.ofBuffer buffer w.memory))
    views.toList buffers.toList
  /-- The function is run. -/
  call : CountedWorld.call run f views moment.before = (called, moment.after)

/-- How an invocation ends that has called a function, given the world after the call. -/
structure CountedEnd (name : String) (outLen : Nat) (res : Output)
    (called : Outcome HostError ObjId) (after : CountedWorld F G)
    (outcome : Outcome BridgeError Unit) (res' : Output) : Prop where
  /-- The function has failed. -/
  stopped : ∀ stop, called = .error stop →
    outcome = Outcome.mapError (HostError.ofCall name) (.error stop) ∧ res' = res
  /-- The result cannot be read. -/
  unread : ∀ r e, called = .ok r → after.read r = .error e →
    outcome = .error (.error e.ofResult) ∧ res' = res
  /-- The result is delivered if it is long enough. -/
  read : ∀ r values, called = .ok r → after.read r = .ok values → outLen ≤ res.length →
    (outcome, res'.toList) =
      if values.length < outLen then
        (.error (.error (.lengthMismatch outLen values.length)), res.toList)
      else (.ok (), values.take outLen ++ res.toList.drop outLen)

section Invocations

variable {run : CallableRunner F G} {w w' : CountedWorld F G}

/-- Looking for the function changes nothing. -/
theorem Lookup.eq_of_carries {names : BindingNames} {entry : Entry} {symbols : Symbols ObjId}
    {ops : List (HostOperation ObjId ObjId)} {result : Except BridgeError ObjId}
    (h : Lookup names entry symbols ops result)
    (hrun : Carries (fun op => op.Performs (CountedWorld.runtime run)) w ops w') : w' = w :=
  hrun.relates (P := fun u u' => u' = u) (fun _ => rfl) (fun hu hv => hv.trans hu)
    fun op hop _ _ hperforms => CountedWorld.eq_of_looks hperforms (h.looks op hop)

/-- What the result is read as after it has been pinned. -/
theorem Answering.countedEnd {f : ObjId} {name : String} {views : StateViews ObjId}
    {outLen : Nat} {res res' : Output} {called : Outcome HostError ObjId}
    {rest later : List (HostOperation ObjId ObjId)} {outcome : Outcome BridgeError Unit}
    (h : Answering f name views outLen res (.call f views called :: rest) outcome res')
    (hrun : Carries (fun op => op.Performs (CountedWorld.runtime run)) w (rest ++ later) w') :
    CountedEnd name outLen res called w outcome res' := by
  rcases h.disciplined with ⟨stop, hops⟩ | ⟨r, result, hops⟩
  · cases hops
    obtain ⟨houtcome, hres⟩ := h.eq_of_stopped
    refine ⟨?_, (fun r e hr => by cases hr), (fun r values hr => by cases hr)⟩
    intro stop' hstop
    cases hstop
    exact ⟨houtcome, hres⟩
  · cases hops
    obtain ⟨_, rfl, u, hread, -⟩ := hrun
    -- pinning the result leaves what is read of it alone
    obtain rfl : w.read r = result := congrArg Prod.fst hread
    refine ⟨(fun stop hstop => by cases hstop), ?_, ?_⟩
    · intro r' e hr he
      cases hr
      rw [he] at h
      exact h.eq_of_unread
    · intro r' values hr hvalues hlen
      cases hr
      rw [hvalues] at h
      exact h.eq_of_read hlen

/-- Once the function is found the views are made, and the objects stay until then. -/
theorem Viewing.counted {supportsReuse : Bool} {buffers : StateViews Buffer}
    {kept kept' : Option (StateViews ObjId)} {names : BindingNames} {entry : Entry}
    {symbols : Symbols ObjId} {looking viewing : List (HostOperation ObjId ObjId)} {f : ObjId}
    {result : Except HostError (StateViews ObjId)}
    (hviewing : Viewing supportsReuse buffers .fresh kept viewing result kept')
    (hlookup : Lookup names entry symbols looking (.ok f))
    (hrun : Carries (fun op => op.Performs (CountedWorld.runtime run)) w
      (looking ++ .pin f :: viewing) w') :
    w.Precedes w' ∧ ∃ views, result = .ok views ∧
      List.Forall₂ (fun view buffer => w'.store.array? view = some (.ofBuffer buffer w.memory))
        views.toList buffers.toList := by
  obtain ⟨u, hlooked, _, rfl, hviewed⟩ := carries_append.mp hrun
  obtain rfl : u = w := hlookup.eq_of_carries hlooked
  cases hviewing with
  | unmade hmakes =>
    obtain ⟨-, views, hviews, -⟩ := hmakes.counted hviewed
    cases hviews
  | @fresh _ _ views hmakes =>
    obtain ⟨hprecedes, _, hviews, hshown⟩ := hmakes.counted hviewed
    cases hviews
    exact ⟨(u.precedes_pin f).trans hprecedes, views, rfl, hshown⟩

/-- **An invocation calls the function that it finds.** If the arguments are accepted and new
views are made in each invocation, nothing is called if there is no function, and otherwise
the function is called once. -/
theorem Bridge.exists_countedCall (run : CallableRunner F G) {bridge : Bridge ObjId}
    (hstrategy : bridge.config.strategy = .fresh) {entry : Entry} {call : Invocation}
    {admission : Admission} (hcheck : bridge.config.check entry call = .ok admission)
    (w : CountedWorld F G) :
    ∃ looking found, Lookup bridge.config.names entry bridge.symbols looking found ∧
      Carries (fun op => op.Performs (CountedWorld.runtime run)) w looking w ∧
      match found with
      | .error e =>
        (bridge.evaluate (CountedWorld.runtime run) entry call w).outcome = .error (.error e) ∧
          (bridge.evaluate (CountedWorld.runtime run) entry call w).res = call.res ∧
          ∀ moment ∈ bridge.trace (CountedWorld.runtime run) entry call w,
            ¬ moment.operation.Calls
      | .ok f => ∃ views called moment,
        CalledOnce (bridge.trace (CountedWorld.runtime run) entry call w) moment ∧
          CountedCall run w admission.buffers f views called moment ∧
          CountedEnd (bridge.config.names.reported entry) admission.outLen call.res called
            moment.after (bridge.evaluate (CountedWorld.runtime run) entry call w).outcome
            (bridge.evaluate (CountedWorld.runtime run) entry call w).res := by
  have hconducted := bridge.evaluate_traced (CountedWorld.runtime run) entry call w
  have hchain := hconducted.chain
  obtain ⟨opening, hopening, hops⟩ := hconducted.admitted admission hcheck
  have hclosing := closing_calls_nothing opening
  change (bridge.trace _ entry call w).map Moment.operation = _ at hops
  generalize (bridge.evaluate (CountedWorld.runtime run) entry call w).outcome = outcome at *
  generalize (bridge.evaluate (CountedWorld.runtime run) entry call w).res = res' at *
  generalize (bridge.evaluate (CountedWorld.runtime run) entry call w).bridge.reusable = kept at *
  generalize (bridge.evaluate (CountedWorld.runtime run) entry call w).host = w' at *
  generalize bridge.trace (CountedWorld.runtime run) entry call w = trace at *
  have hcarries : Carries (fun op => op.Performs (CountedWorld.runtime run)) w
      (opening ++ closing opening) w' := by
    rw [← hops]
    exact hchain.performs
  obtain ⟨u, hopened, -⟩ := carries_append.mp hcarries
  cases hopening with
  | @unfound _ e hlookup =>
    obtain rfl := hlookup.eq_of_carries hopened
    refine ⟨opening, .error e, hlookup, hopened, rfl, rfl, ?_⟩
    intro moment hmoment
    have hmem := List.mem_map_of_mem (f := Moment.operation) hmoment
    rw [hops] at hmem
    rcases List.mem_append.mp hmem with hmem | hmem
    · exact (hlookup.looks _ hmem).excludes.2.2.1
    · exact hclosing _ hmem
  | unseen hlookup hviewing =>
    rw [hstrategy] at hviewing
    obtain ⟨-, views, hviews, -⟩ := hviewing.counted hlookup hopened
    cases hviews
  | @asked looking viewing _ f views _ _ _ hlookup hviewing hanswering =>
    rw [hstrategy] at hviewing
    obtain ⟨called, rest, rfl, hrest⟩ := hanswering.exists_call
    have hsplit : trace.map Moment.operation = (looking ++ .pin f :: viewing) ++
        .call f views called ::
          (rest ++ closing (looking ++ .pin f :: (viewing ++ .call f views called :: rest))) := by
      rw [hops]
      simp
    obtain ⟨pre, moment, post, rfl, hpre, hoperation, hpost, hbefore, hperforms, hafter⟩ :=
      hchain.split_at hsplit
    have hreached := hbefore.performs
    have hlater := hafter.performs
    rw [hpre] at hreached
    rw [hpost] at hlater
    obtain ⟨hprecedes, _, hviews, hshown⟩ := hviewing.counted hlookup hreached
    cases hviews
    refine ⟨looking, .ok f, hlookup, ?_, views, called, moment,
      ⟨pre, post, rfl, hoperation ▸ trivial, ?_⟩, ⟨hoperation, hprecedes, hshown, hperforms⟩,
      hanswering.countedEnd hlater⟩
    · obtain ⟨v, hlooked, -⟩ := carries_append.mp hreached
      obtain rfl := hlookup.eq_of_carries hlooked
      exact hlooked
    · -- before the call the function is looked for and views are made, afterwards the guard closes
      intro other hother
      rcases List.mem_append.mp hother with hmem | hmem
      · have hop := List.mem_map_of_mem (f := Moment.operation) hmem
        rw [hpre] at hop
        exact hlookup.calls_nothing hviewing _ hop
      · have hop := List.mem_map_of_mem (f := Moment.operation) hmem
        rw [hpost] at hop
        rcases List.mem_append.mp hop with hop | hop
        · exact hrest _ hop
        · exact closing_calls_nothing _ _ hop

end Invocations

end CallbackBridge
