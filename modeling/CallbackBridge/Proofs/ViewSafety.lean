/-
# Views never outlive their invocation

A view that the bridge has made is detached, or it shows an argument of the invocation in
progress.  The invariant `InFlight` of one invocation says which views can show anything:
those that were shown and not retired since.  Every operation keeps it, user code
included, and when the guard has closed there is no such view left.

References never come back to life, so a view that was collected stays collected.
-/
import CallbackBridge.Proofs.Admission
import CallbackBridge.Proofs.Rooting
import CallbackBridge.Proofs.Sessions
namespace CallbackBridge

open HostOperation

variable {F ω : Type} {I : Interface}

/-! ## What a view shows -/

namespace ArrayView

/-- The view is detached from all solver memory. -/
def Detached (view : ArrayView) : Prop :=
  view.region = none ∧ view.shape.len = 0 ∧ view.shape.nrows = 0

/-- The view shows an argument of an invocation for `n` state variables. -/
inductive Current (call : Invocation) (n : Nat) : ArrayView → Prop where
  /-- The time, a single number. -/
  | t : Current call n ⟨some call.t.region, ⟨.time, 1, 1⟩⟩
  /-- The state. -/
  | y : Current call n ⟨some call.y.region, ⟨.state, n, n⟩⟩
  /-- The derivative. -/
  | yp : Current call n ⟨some call.yp.region, ⟨.derivative, n, n⟩⟩

/-- A view that was retired is detached. -/
theorem detached_retire (view : ArrayView) : view.retire.Detached := ⟨rfl, rfl, rfl⟩

/-- A detached view cannot be read. -/
theorem Detached.read {view : ArrayView} (h : view.Detached) (m : Memory) :
    view.read m = .error .retiredView := by
  unfold ArrayView.read
  rw [h.1]

end ArrayView

/-- The reference was handed out, and what it leads to, if anything, is a view as
described. -/
def Heap.IsView (h : Heap F) (P : ArrayView → Prop) : ObjRef → Prop :=
  h.Leads fun object => ∃ view, object = .view view ∧ P view

namespace Heap.IsView

variable {h h' : Heap F} {P Q : ArrayView → Prop} {r : ObjRef}

theorem mono (hview : h.IsView P r) (hPQ : ∀ view, P view → Q view) : h.IsView Q r :=
  Leads.mono hview fun _ ⟨view, hobject, hP⟩ => ⟨view, hobject, hPQ view hP⟩

/-- Views are left alone by what leaves objects alone. -/
theorem evolves (hview : h.IsView P r)
    (hev : h.table.Evolves HeapEntry.fixedObjects h'.table) (room : h'.table.Addressable)
    (hs : h.table.Sound) : h'.IsView P r :=
  Leads.evolves hview hev room hs fun {e e'} (hsame : e'.object = e.object) hP => by
    rwa [hsame]

end Heap.IsView

/-! ## Which views are being shown -/

/-- The view was shown by the operations, and not retired since. -/
def Showing (ops : List (HostOperation ObjRef Rooted)) (r : ObjRef) : Prop :=
  ∃ pre op post, ops = pre ++ op :: post ∧ op.shown? = some r ∧ .retire r ∉ post

namespace Showing

variable {ops : List (HostOperation ObjRef Rooted)} {op : HostOperation ObjRef Rooted}
  {r : ObjRef}

/-- An operation shows its view. -/
theorem self (h : op.shown? = some r) : Showing (ops ++ [op]) r :=
  ⟨ops, op, [], rfl, h, by simp⟩

/-- A view goes on being shown until it is retired. -/
theorem snoc (h : Showing ops r) (hop : op ≠ .retire r) : Showing (ops ++ [op]) r := by
  obtain ⟨pre, first, post, rfl, hfirst, hpost⟩ := h
  refine ⟨pre, first, post ++ [op], by simp, hfirst, ?_⟩
  rw [List.mem_append, List.mem_singleton]
  exact fun hmem => hmem.elim hpost fun hc => hop hc.symm

/-- **Nothing is being shown any more once the guard has closed.** -/
theorem not_of_closed (opening : List (HostOperation ObjRef Rooted)) :
    ¬ Showing (opening ++ closing opening) r := by
  rintro ⟨pre, op, post, heq, hshown, hpost⟩
  have hclosing : op ∉ closing opening := by
    intro hmem
    rcases List.mem_append.mp hmem with hmem | hmem
    · obtain ⟨view, -, rfl⟩ := List.mem_map.mp hmem
      cases hshown
    · obtain ⟨value, -, rfl⟩ := List.mem_map.mp hmem
      cases hshown
  rcases List.append_eq_append_iff.mp heq with ⟨mid, -, hmid⟩ | ⟨mid, rfl, hmid⟩
  · exact hclosing (hmid ▸ List.mem_append_right _ List.mem_cons_self)
  · cases mid with
    | nil =>
      rw [List.nil_append] at hmid
      exact hclosing (hmid ▸ List.mem_cons_self)
    | cons first mid =>
      simp only [List.cons_append, List.cons.injEq] at hmid
      obtain ⟨rfl, rfl⟩ := hmid
      refine hpost (List.mem_append_right _ (List.mem_append_left _ (List.mem_map_of_mem ?_)))
      exact List.mem_filterMap.mpr
        ⟨op, List.mem_append_right _ List.mem_cons_self, hshown⟩

end Showing

/-! ## The invariant of one invocation -/

/-- The operation shows no other buffers than the given ones. -/
def HostOperation.Within {R K : Type} (buffers : List Buffer) :
    HostOperation R K → Prop
  | materialize buffer _ => buffer ∈ buffers
  | repoint _ buffer _ => buffer ∈ buffers
  | _ => True

/-- What is true in an invocation after the given operations: the views that the bridge has
made are detached, or are being shown and show one of the buffers. -/
structure InFlight (buffers : List Buffer) (memory : Memory) (made : List ObjRef)
    (ops : List (HostOperation ObjRef Rooted)) (w : HeapWorld F ω) : Prop where
  /-- Solver memory is as it was. -/
  memory_eq : w.memory = memory
  /-- References do not come back to life. -/
  sound : w.heap.table.Addressable → w.heap.table.Sound
  /-- Views show what they may show. -/
  views : w.heap.table.Addressable → ∀ r ∈ made ++ madeViews ops, w.heap.IsView (fun view =>
    view.Detached ∨ (Showing ops r ∧ ∃ buffer ∈ buffers, view = .ofBuffer buffer)) r

namespace InFlight

variable {buffers : List Buffer} {memory : Memory} {made : List ObjRef}
  {ops : List (HostOperation ObjRef Rooted)} {op : HostOperation ObjRef Rooted}
  {w w' : HeapWorld F ω}

/-- What leaves objects alone keeps the invariant. -/
theorem sameObjects (h : InFlight buffers memory made ops w) (hsame : w.SameObjects w') :
    InFlight buffers memory made ops w' where
  memory_eq := hsame.2.trans h.memory_eq
  sound room := hsame.1.sound room (h.sound (hsame.1.addressable room))
  views room r hr :=
    have room' := hsame.1.addressable room
    (h.views room' r hr).evolves hsame.1 room (h.sound room')

/-- An operation that leaves views alone can be noted. -/
theorem note (h : InFlight buffers memory made ops w) (hop : op.SparesViews) :
    InFlight buffers memory made (ops ++ [op]) w where
  memory_eq := h.memory_eq
  sound := h.sound
  views room r hr := by
    have hmade : madeViews [op] = [] := by
      cases op with
      | materialize buffer made =>
        cases made with
        | ok view => exact hop.elim
        | error e => rfl
      | _ => rfl
    rw [madeViews_append, hmade, List.append_nil] at hr
    refine (h.views room r hr).mono ?_
    rintro view (hdetached | ⟨hshowing, hbuffer⟩)
    · exact Or.inl hdetached
    · refine Or.inr ⟨hshowing.snoc ?_, hbuffer⟩
      rintro rfl
      exact hop

/-- Making a view keeps the invariant. -/
theorem materialize (h : InFlight buffers memory made ops w) {buffer : Buffer}
    (hbuffer : buffer ∈ buffers) :
    InFlight buffers memory made
      (ops ++ [.materialize buffer (.ok (w.heap.materialize buffer).1)])
      (w.update fun h => (h.materialize buffer).2) := by
  have hev : w.heap.table.Evolves HeapEntry.fixedObjects (w.heap.materialize buffer).2.table :=
    Heap.evolves_alloc _ trivial
  refine ⟨h.memory_eq, fun room => hev.sound room (h.sound (hev.addressable room)), ?_⟩
  intro room r hr
  have room' := hev.addressable room
  have hs := h.sound room'
  rw [madeViews_append, ← List.append_assoc, List.mem_append] at hr
  rcases hr with hr | hr
  · refine ((h.views room' r hr).evolves hev room hs).mono ?_
    rintro view (hdetached | ⟨hshowing, hshown⟩)
    · exact Or.inl hdetached
    · exact Or.inr ⟨hshowing.snoc (by simp), hshown⟩
  · cases List.mem_singleton.mp hr
    have hentry : Heap.entry? (w.heap.materialize buffer).2 (w.heap.materialize buffer).1 =
        some ⟨.view (.ofBuffer buffer), 0⟩ := (Heap.entry?_alloc_self room hs).1
    exact .of_eq_some hentry ⟨.ofBuffer buffer, rfl, Or.inr ⟨.self rfl, buffer, hbuffer, rfl⟩⟩

/-- Changing objects in place keeps what does not depend on them. -/
theorem setObject_of_ne (h : InFlight buffers memory made ops w) {r q : ObjRef}
    {object : Object F} (room : w.heap.table.Addressable) (hq : q ∈ made ++ madeViews ops)
    (hne : q ≠ r) : (w.heap.setObject r object).IsView (fun view =>
      view.Detached ∨ (Showing ops q ∧ ∃ buffer ∈ buffers, view = .ofBuffer buffer)) q where
  issued := (h.views room q hq).issued.modify _ _
  object e he := by
    rw [Heap.entry?_setObject, if_neg hne] at he
    exact (h.views room q hq).object e he

/-- Pointing a view at one of the buffers keeps the invariant. -/
theorem repoint (h : InFlight buffers memory made ops w) {view : ObjRef} {buffer : Buffer}
    {heap : Heap F} (hbuffer : buffer ∈ buffers)
    (hrepoint : w.heap.repoint view buffer = .ok heap) :
    InFlight buffers memory made (ops ++ [.repoint view buffer (.ok ())]) { w with heap } := by
  obtain ⟨-, rfl⟩ := Heap.repoint_eq_ok hrepoint
  refine ⟨h.memory_eq, ?_, ?_⟩
  · intro room
    exact (h.sound (Table.addressable_of_modify room)).modify _ _
  · intro room r hr
    have room' := Table.addressable_of_modify room
    rw [madeViews_append, show madeViews [.repoint view buffer (.ok ())] = [] from rfl,
      List.append_nil] at hr
    by_cases hsame : r = view
    · subst hsame
      refine ⟨(h.views room' r hr).issued.modify _ _, fun e he => ?_⟩
      rw [Heap.entry?_setObject, if_pos rfl] at he
      obtain ⟨old, -, rfl⟩ := Option.map_eq_some_iff.mp he
      exact ⟨.ofBuffer buffer, rfl, Or.inr ⟨.self rfl, buffer, hbuffer, rfl⟩⟩
    · refine (h.setObject_of_ne room' hr hsame).mono ?_
      rintro seen (hdetached | ⟨hshowing, hshown⟩)
      · exact Or.inl hdetached
      · exact Or.inr ⟨hshowing.snoc (by simp), hshown⟩

/-- Retiring a view keeps the invariant. -/
theorem retire (h : InFlight buffers memory made ops w) (view : ObjRef) :
    InFlight buffers memory made (ops ++ [.retire view]) (w.update fun h => h.retire view) := by
  have hother : ∀ {h' : Heap F} {r : ObjRef}, r ≠ view →
      h'.IsView (fun view => view.Detached ∨
        (Showing ops r ∧ ∃ buffer ∈ buffers, view = .ofBuffer buffer)) r →
      h'.IsView (fun seen => seen.Detached ∨ (Showing (ops ++ [.retire view]) r ∧
        ∃ buffer ∈ buffers, seen = .ofBuffer buffer)) r := by
    intro h' r hne hview
    refine hview.mono ?_
    rintro seen (hdetached | ⟨hshowing, hshown⟩)
    · exact Or.inl hdetached
    · exact Or.inr ⟨hshowing.snoc (by simpa using Ne.symm hne), hshown⟩
  have hmade : made ++ madeViews (ops ++ [.retire view]) = made ++ madeViews ops := by
    rw [madeViews_append, show madeViews [.retire view] = [] from rfl, List.append_nil]
  -- a view is detached by it, and anything else could not have been shown
  rcases w.heap.retire_cases view with ⟨old, pins, hentry, htable⟩ | ⟨hnone, heq⟩
  · refine ⟨h.memory_eq, ?_, ?_⟩
    · intro room
      show (w.heap.retire view).table.Sound
      change (w.heap.retire view).table.Addressable at room
      rw [htable] at room ⊢
      exact (h.sound (Table.addressable_of_modify room)).modify _ _
    · intro room r hr
      rw [hmade] at hr
      change (w.heap.retire view).table.Addressable at room
      rw [htable] at room
      have room' := Table.addressable_of_modify room
      have hstep : (w.heap.setObject view (.view old.retire)).IsView (fun seen =>
          seen.Detached ∨ (Showing (ops ++ [.retire view]) r ∧
            ∃ buffer ∈ buffers, seen = .ofBuffer buffer)) r := by
        by_cases hsame : r = view
        · subst hsame
          refine ⟨(h.views room' r hr).issued.modify _ _, fun e he => ?_⟩
          rw [Heap.entry?_setObject, if_pos rfl, hentry] at he
          cases he
          exact ⟨old.retire, rfl, Or.inl old.detached_retire⟩
        · exact hother hsame (h.setObject_of_ne room' hr hsame)
      exact Heap.Leads.of_table_eq hstep htable
  · have hstay : (w.update fun h => h.retire view) = w := by
      simp only [HeapWorld.update, heq]
    rw [hstay]
    refine ⟨h.memory_eq, h.sound, ?_⟩
    intro room r hr
    rw [hmade] at hr
    by_cases hsame : r = view
    · subst hsame
      refine ⟨(h.views room r hr).issued, fun e he => ?_⟩
      obtain ⟨seen, hobject, -⟩ := (h.views room r hr).object e he
      exact absurd hobject (hnone e he seen)
    · exact hother hsame (h.views room r hr)

/-- **Every operation of an invocation keeps the invariant**, whether the heap carries it
out or it is refused, and whatever the user code does that it runs. -/
theorem step {code : UserCode F I} {stack : List (Surroundings I ω)}
    (h : InFlight buffers memory made ops w)
    (hcode : ∀ f args, (code f args).All HeapCommand.SparesViews)
    (hwithin : op.Within buffers) (hstep : HeapStep (Runner.ofStack code stack) op w w') :
    InFlight buffers memory made (ops ++ [op]) w' := by
  cases hstep.effect with
  | idle hop => exact h.note hop
  | pins hop r =>
    have hsame : w.SameObjects (w.update fun h => h.pin r) :=
      ⟨w.heap.evolves_pin (fun _ _ => rfl) r, rfl⟩
    exact (h.sameObjects hsame).note hop
  | unpins hop r =>
    have hsame : w.SameObjects (w.update fun h => h.unpin r) :=
      ⟨w.heap.evolves_unpin (fun _ _ => rfl) r, rfl⟩
    exact (h.sameObjects hsame).note hop
  | makes => exact h.materialize hwithin
  | moves hrepoint => exact h.repoint hwithin hrepoint
  | @retires view => exact h.retire view
  | @runs f views outcome _ hcall =>
    have hsame : w.SameObjects
        ((HeapWorld.call (Runner.ofStack code stack) f views).start w).2 :=
      (runClosed_sameObjects (I := I)).call fun function _ =>
        runClosed_sameObjects.runner hcode stack function.code views
    rw [hcall] at hsame
    exact (h.sameObjects hsame).note trivial

end InFlight

/-! ## Whole invocations -/

section Within

variable {R K : Type}

/-- Making views shows only the given buffers. -/
theorem Makes.within {buffers : List Buffer} {ops : List (HostOperation R K)}
    {result : Except HostError (List R)} (h : Makes buffers ops result) :
    ∀ all, (∀ buffer ∈ buffers, buffer ∈ all) → ∀ op ∈ ops, op.Within all := by
  intro all
  induction h with
  | nil => simp
  | failed => simp_all [Within]
  | made _ ih =>
    intro hall
    rw [List.forall_mem_cons] at hall
    simpa [Within, hall.1] using ih hall.2

/-- Moving views shows only the given buffers. -/
theorem Moves.within {moves : List (R × Buffer)} {ops : List (HostOperation R K)}
    {result : Except HostError Unit} (h : Moves moves ops result) :
    ∀ all, (∀ move ∈ moves, move.2 ∈ all) → ∀ op ∈ ops, op.Within all := by
  intro all
  induction h with
  | nil => simp
  | failed => simp_all [Within]
  | moved _ ih =>
    intro hall
    rw [List.forall_mem_cons] at hall
    simpa [Within, hall.1] using ih hall.2

/-- Obtaining views shows only the given buffers. -/
theorem Viewing.within {supportsReuse : Bool} {buffers : StateViews Buffer}
    {strategy : ViewStrategy} {kept kept' : Option (StateViews K)}
    {ops : List (HostOperation R K)} {result : Except HostError (StateViews R)}
    (h : Viewing supportsReuse buffers strategy kept ops result kept') :
    ∀ op ∈ ops, op.Within buffers.toList := by
  cases h with
  | unmade hmakes => exact hmakes.within _ fun _ h => h
  | fresh hmakes => exact hmakes.within _ fun _ h => h
  | unsupported _ => simp
  | first _ hmakes =>
    exact List.forall_mem_append.mpr ⟨hmakes.within _ fun _ h => h, by simp [Within]⟩
  | later _ hmoves =>
    refine List.forall_mem_append.mpr ⟨by simp [Within], hmoves.within _ ?_⟩
    simp [StateViews.toList]

/-- Looking for the function shows no buffer. -/
theorem Lookup.within {names : BindingNames} {entry : Entry} {symbols : Symbols K}
    {ops : List (HostOperation R K)} {result : Except BridgeError R}
    (h : Lookup names entry symbols ops result) (buffers : List Buffer) :
    ∀ op ∈ ops, op.Within buffers := by
  cases h <;> simp [Within]

/-- Every operation of an invocation shows only its buffers. -/
theorem Opening.within {supportsReuse : Bool} {bridge : Bridge K} {entry : Entry}
    {admission : Admission} {res res' : Output} {opening : List (HostOperation R K)}
    {outcome : Outcome BridgeError Unit} {kept : Option (StateViews K)}
    (h : Opening supportsReuse bridge entry admission res opening outcome kept res') :
    ∀ op ∈ opening ++ closing opening, op.Within admission.buffers.toList := by
  refine List.forall_mem_append.mpr ⟨?_, ?_⟩
  · cases h with
    | unfound hlookup => exact hlookup.within _
    | unseen hlookup hviewing =>
      rw [List.forall_mem_append, List.forall_mem_cons]
      exact ⟨hlookup.within _, trivial, hviewing.within⟩
    | asked hlookup hviewing hanswering =>
      rw [List.forall_mem_append, List.forall_mem_cons, List.forall_mem_append]
      refine ⟨hlookup.within _, trivial, hviewing.within, ?_⟩
      rcases hanswering.disciplined with ⟨stop, rfl⟩ | ⟨value, result, rfl⟩ <;> simp [Within]
  · simp [closing, Within, or_imp, forall_and]

end Within

/-- The moments of a chain on a host that is backed by the heap keep the invariant. -/
theorem InFlight.chain {σ : Type} {host : HostRuntime σ ObjRef Rooted}
    {world : σ → HeapWorld F ω} {code : UserCode F I} {stack : List (Surroundings I ω)}
    {buffers : List Buffer} {memory : Memory} {made : List ObjRef} {s u : σ}
    {moments : List (Moment σ ObjRef Rooted)}
    (hhost : HeapBacked (Runner.ofStack code stack) host world)
    (hcode : ∀ f args, (code f args).All HeapCommand.SparesViews)
    (hstart : InFlight buffers memory made [] (world s))
    (hwithin : ∀ op ∈ moments.map Moment.operation, op.Within buffers)
    (hchain : Chain host s moments u) :
    InFlight buffers memory made (moments.map Moment.operation) (world u) := by
  refine (hchain.carries hhost).preserves (P := InFlight buffers memory made) ?_ hstart
  intro pre op u u' hop hpre hstep
  exact hpre.step hcode (hwithin op hop) hstep

/-! ## Whole sessions -/

/-- What is true between invocations: every view that the bridge has made is detached, and
the solver memory of earlier invocations has addresses that are used up. -/
structure Settled (history : History) (w : HeapWorld F ω) : Prop where
  /-- References do not come back to life. -/
  sound : w.heap.table.Addressable → w.heap.table.Sound
  /-- Every view is detached. -/
  views : w.heap.table.Addressable → ∀ r ∈ history.made, w.heap.IsView ArrayView.Detached r
  /-- The addresses of earlier invocations are used up. -/
  ended : ∀ region ∈ history.ended, region.index < w.memory.next

namespace Settled

variable {history : History} {w w' : HeapWorld F ω}

/-- What leaves objects alone leaves things settled. -/
theorem sameObjects (h : Settled history w) (hsame : w.SameObjects w') : Settled history w' where
  sound room := hsame.1.sound room (h.sound (hsame.1.addressable room))
  views room r hr :=
    have room' := hsame.1.addressable room
    (h.views room' r hr).evolves hsame.1 room (h.sound room')
  ended region hregion := by
    rw [hsame.2]
    exact h.ended region hregion

/-- When an invocation begins, no view is being shown yet. -/
theorem inFlight (h : Settled history w) (memory : Memory) (buffers : List Buffer) :
    InFlight buffers memory history.made [] { w with memory } where
  memory_eq := rfl
  sound := h.sound
  views room r hr := by
    rw [show madeViews [] = [] from rfl, List.append_nil] at hr
    exact (h.views room r hr).mono fun _ hdetached => Or.inl hdetached

end Settled

section Invocation

variable {σ : Type} {history : History} {session : Session (HeapWorld F ω) Rooted}
  {host : HostRuntime σ ObjRef Rooted} {world : σ → HeapWorld F ω} {s u : σ}
  {windows : Windows} {call : Invocation} {entry : Entry} {code : UserCode F I}
  {stack : List (Surroundings I ω)}

/-- At every point of an invocation the views are detached or show its buffers. -/
theorem Settled.during (h : Settled history session.host)
    (hcode : ∀ f args, (code f args).All HeapCommand.SparesViews)
    (hhost : HeapBacked (Runner.ofStack code stack) host world)
    (hexpose : session.host.expose windows = (call, world s))
    {pre post : List (Moment σ ObjRef Rooted)}
    (htrace : session.bridge.trace host entry call s = pre ++ post)
    (hchain : Chain host s pre u) :
    ∃ n, (pre ≠ [] → call.ipar.stateLen = .ok n) ∧
      InFlight (call.leading n).toList (world s).memory history.made
        (pre.map Moment.operation) (world u) := by
  have hstart : ∀ buffers, InFlight buffers (world s).memory history.made [] (world s) := by
    intro buffers
    rw [(HeapWorld.exposed_of_expose hexpose).1]
    exact h.inFlight _ _
  have hconducted := session.bridge.evaluate_traced host entry call s
  cases hcheck : session.bridge.config.check entry call with
  | error e =>
    have hnone : session.bridge.trace host entry call s = [] :=
      List.map_eq_nil_iff.mp (hconducted.rejected e hcheck)
    rw [hnone] at htrace
    obtain ⟨rfl, -⟩ := List.append_eq_nil_iff.mp htrace.symm
    have hsame : s = u := hchain
    exact ⟨0, fun hne => absurd rfl hne, hsame ▸ hstart _⟩
  | ok admission =>
    obtain ⟨n, haccepted⟩ := BridgeConfig.accepted_of_check hcheck
    obtain ⟨opening, hopening, hops⟩ := hconducted.admitted admission hcheck
    refine ⟨n, fun _ => haccepted.stateLen, InFlight.chain hhost hcode (hstart _) ?_ hchain⟩
    intro op hop
    rw [← haccepted.buffers]
    refine hopening.within op ?_
    rw [← hops]
    unfold Bridge.operations
    rw [htrace, List.map_append]
    exact List.mem_append_left _ hop

/-- After an invocation everything is settled again. -/
theorem Settled.after (h : Settled history session.host)
    (hcode : ∀ f args, (code f args).All HeapCommand.SparesViews)
    (hhost : HeapBacked (Runner.ofStack code stack) host world)
    (hexpose : session.host.expose windows = (call, world s)) :
    Settled (history.after call (session.bridge.operations host entry call s))
      ((world (session.bridge.evaluate host entry call s).host).withdraw call) := by
  have hconducted := session.bridge.evaluate_traced host entry call s
  have htrace : session.bridge.trace host entry call s =
      session.bridge.trace host entry call s ++ [] := (List.append_nil _).symm
  obtain ⟨n, -, hflight⟩ := h.during hcode hhost hexpose htrace hconducted.chain
  -- nothing is being shown after the closing of the guard
  have hclosed : ∀ r, ¬ Showing (session.bridge.operations host entry call s) r := by
    intro r
    cases hcheck : session.bridge.config.check entry call with
    | error e =>
      rw [hconducted.rejected e hcheck]
      rintro ⟨pre, op, post, heq, -⟩
      simp at heq
    | ok admission =>
      obtain ⟨opening, -, hops⟩ := hconducted.admitted admission hcheck
      rw [hops]
      exact Showing.not_of_closed opening
  refine ⟨hflight.sound, ?_, ?_⟩
  · intro room r hr
    have hview := (hflight.views room r hr).mono (Q := ArrayView.Detached) fun view hview =>
      hview.elim id fun hshown => (hclosed r hshown.1).elim
    exact Heap.Leads.of_table_eq hview rfl
  · intro region hregion
    have hmemory : ((world (session.bridge.evaluate host entry call s).host).withdraw
        call).memory.next = (world s).memory.next := by
      rw [← hflight.memory_eq]
      rfl
    -- the three windows had the next three addresses
    have hexposed := (HeapWorld.exposed_of_expose hexpose).2
    rw [hmemory, hexposed.next]
    rcases List.mem_append.mp hregion with hold | hnew
    · have := h.ended region hold
      omega
    · simp only [List.mem_cons, List.not_mem_nil, or_false] at hnew
      rcases hnew with rfl | rfl | rfl
      · rw [hexposed.t]
        show session.host.memory.next < _
        omega
      · rw [hexposed.y]
        show session.host.memory.next + 1 < _
        omega
      · rw [hexposed.yp]
        show session.host.memory.next + 2 < _
        omega

end Invocation

/-- **Between invocations every view of the bridge is detached.** -/
theorem Reaches.settled {code : UserCode F I} {history : History}
    {session : Session (HeapWorld F ω) Rooted}
    (hcode : ∀ f args, (code f args).All HeapCommand.SparesViews)
    (h : Reaches code HeapCommand.SparesViews history session) :
    Settled history session.host := by
  obtain ⟨hbuilt, hbegins, hcontinues⟩ := h
  induction hcontinues with
  | start =>
    have hev := hbegins.begun.evolves
    exact ⟨fun room => hev.sound room (hbuilt.sound (hev.addressable room)),
      fun _ r hr => by simp at hr, fun region hr => by simp at hr⟩
  | client hcontinues hprogram ih =>
    exact ih.sameObjects (runClosed_sameObjects.execute
      (runClosed_sameObjects.runner hcode _) _ hprogram _)
  | elapses hcontinues hnext ih =>
    exact ⟨ih.sound, ih.views, fun region hr => Nat.lt_of_lt_of_le (ih.ended region hr) hnext⟩
  | enters hcontinues hhost hexpose ih => exact ih.after hcode hhost hexpose

/-! ## Every view at every point -/

/-- What a view that the bridge has made is, in a world that occurs. -/
structure SafeView (history : History) (current : Option Invocation) (w : HeapWorld F ω)
    (r : ObjRef) : Prop where
  /-- It is collected, or detached, or shows an argument of the invocation in progress. -/
  status : w.heap.entry? r = none ∨ ∃ view pins, w.heap.entry? r = some ⟨.view view, pins⟩ ∧
    (view.Detached ∨ ∃ call n, current = some call ∧ call.ipar.stateLen = .ok n ∧
      view.Current call n)
  /-- It shows no solver memory of an invocation that has ended. -/
  ended : ∀ view pins region, w.heap.entry? r = some ⟨.view view, pins⟩ →
    view.region = some region → region ∉ history.ended
  /-- Reading it reaches the arguments of the invocation in progress, or nothing. -/
  reads : ∀ values, w.heap.read w.memory r = .ok values → ∃ call n, current = some call ∧
    call.ipar.stateLen = .ok n ∧
      (values = (w.memory.read call.t.region).take 1 ∨
        values = (w.memory.read call.y.region).take n ∨
        values = (w.memory.read call.yp.region).take n)
  /-- Between invocations it reads as retired if it is still there. -/
  idle : current = none → w.heap.isLive r → w.heap.read w.memory r = .error .retiredView

/-- All that is said of a view follows from what it shows. -/
theorem SafeView.of_isView {history : History} {current : Option Invocation}
    {w : HeapWorld F ω} {r : ObjRef}
    (h : w.heap.IsView (fun view => view.Detached ∨ ∃ call n, current = some call ∧
      call.ipar.stateLen = .ok n ∧ view.Current call n) r)
    (hended : ∀ call, current = some call → ∀ region ∈ history.ended,
      region ≠ call.t.region ∧ region ≠ call.y.region ∧ region ≠ call.yp.region) :
    SafeView history current w r := by
  have hread : ∀ {view : ArrayView} {pins : Nat},
      w.heap.entry? r = some ⟨.view view, pins⟩ → w.heap.read w.memory r = view.read w.memory := by
    intro view pins hentry
    simp only [Heap.read, Heap.entry, hentry]
    rfl
  have hcases : w.heap.entry? r = none ∨ ∃ view pins,
      w.heap.entry? r = some ⟨.view view, pins⟩ ∧ (view.Detached ∨ ∃ call n,
        current = some call ∧ call.ipar.stateLen = .ok n ∧ view.Current call n) := by
    cases hentry : w.heap.entry? r with
    | none => exact Or.inl rfl
    | some e =>
      obtain ⟨object, pins⟩ := e
      obtain ⟨view, rfl, hview⟩ := h.object _ hentry
      exact Or.inr ⟨view, pins, rfl, hview⟩
  refine ⟨hcases, ?_, ?_, ?_⟩
  · -- memory that is shown belongs to the invocation in progress
    intro view pins region hentry hregion hmem
    rcases hcases with hnone | ⟨view', pins', hentry', hdetached | ⟨call, n, hcall, -, hshows⟩⟩
    · rw [hnone] at hentry
      cases hentry
    · cases hentry'.symm.trans hentry
      rw [hdetached.1] at hregion
      cases hregion
    · cases hentry'.symm.trans hentry
      obtain ⟨ht, hy, hyp⟩ := hended call hcall region hmem
      cases hshows <;> cases hregion
      · exact ht rfl
      · exact hy rfl
      · exact hyp rfl
  · intro values hvalues
    rcases hcases with hnone | ⟨view, pins, hentry, hdetached | ⟨call, n, hcall, hn, hshows⟩⟩
    · simp only [Heap.read, Heap.entry, hnone] at hvalues
      cases hvalues
    · rw [hread hentry, hdetached.read] at hvalues
      cases hvalues
    · rw [hread hentry] at hvalues
      refine ⟨call, n, hcall, hn, ?_⟩
      cases hshows <;> cases hvalues
      · exact Or.inl rfl
      · exact Or.inr (Or.inl rfl)
      · exact Or.inr (Or.inr rfl)
  · intro hidle hlive
    rcases hcases with hnone | ⟨view, pins, hentry, hdetached | ⟨call, n, hcall, -⟩⟩
    · simp [Heap.isLive, hnone] at hlive
    · rw [hread hentry, hdetached.read]
    · rw [hidle] at hcall
      cases hcall

/-- In an invocation no view is unsafe. -/
theorem SafeView.of_inFlight {n : Nat} {history : History} {call : Invocation}
    {windows : Windows} {memory memory' : Memory} {ops : List (HostOperation ObjRef Rooted)}
    {w : HeapWorld F ω} {r : ObjRef} (hn : ops ≠ [] → call.ipar.stateLen = .ok n)
    (hexposed : Exposed windows memory call memory')
    (hended : ∀ region ∈ history.ended, region.index < memory.next)
    (h : InFlight (call.leading n).toList memory' history.made ops w)
    (room : w.heap.table.Addressable) (hr : r ∈ (history.during ops).made) :
    SafeView (history.during ops) (some call) w r := by
  refine .of_isView ((h.views room r hr).mono ?_) ?_
  · rintro view (hdetached | ⟨hshowing, buffer, hbuffer, rfl⟩)
    · exact Or.inl hdetached
    · have hne : ops ≠ [] := by
        rintro rfl
        obtain ⟨pre, op, post, heq, -⟩ := hshowing
        simp at heq
      refine Or.inr ⟨call, n, rfl, hn hne, ?_⟩
      simp only [Invocation.leading, StateViews.toList, List.mem_cons, List.not_mem_nil,
        or_false] at hbuffer
      rcases hbuffer with rfl | rfl | rfl
      · have hrole : call.t.role = .time := by rw [hexposed.t]
        show ArrayView.Current call n ⟨some call.t.region, ⟨call.t.role, 1, 1⟩⟩
        rw [hrole]
        exact .t
      · have hrole : call.y.role = .state := by rw [hexposed.y]
        show ArrayView.Current call n ⟨some call.y.region, ⟨call.y.role, n, n⟩⟩
        rw [hrole]
        exact .y
      · have hrole : call.yp.role = .derivative := by rw [hexposed.yp]
        show ArrayView.Current call n ⟨some call.yp.region, ⟨call.yp.role, n, n⟩⟩
        rw [hrole]
        exact .yp
  · -- the windows of this invocation have addresses that are newer
    rintro _ ⟨⟩ region hregion
    have hlt := hended region hregion
    rw [hexposed.t, hexposed.y, hexposed.yp]
    refine ⟨?_, ?_, ?_⟩ <;>
    · rintro rfl
      dsimp only at hlt
      omega

/-- **Views never outlive their invocation.** Whatever the client and the user code do, as
long as they neither point views elsewhere nor detach them: in every world that occurs,
inside user code too, each view that the bridge has made is collected, or detached, or
shows an argument of the invocation in progress with exactly the declared length.  So no
read reaches solver memory of an invocation that has ended, and between invocations every
such view that is still there reads as retired.  References are 32-bit words, so this holds
as long as the heap has no more places than there are numbers. -/
theorem views_safe {code : UserCode F I} {history : History} {current : Option Invocation}
    {w : HeapWorld F ω} (hcode : ∀ f args, (code f args).All HeapCommand.SparesViews)
    (h : Occurs code HeapCommand.SparesViews history current w)
    (room : w.heap.table.Addressable) :
    ∀ r ∈ history.made, SafeView history current w r := by
  intro r hr
  cases h with
  | between hreaches =>
    have hsettled := hreaches.settled hcode
    exact .of_isView ((hsettled.views room r hr).mono fun _ hdetached => Or.inl hdetached)
      (by rintro _ ⟨⟩)
  | client hreaches hprogram hvisits =>
    have hsettled := (hreaches.settled hcode).sameObjects (hvisits.sameObjects hcode hprogram)
    exact .of_isView ((hsettled.views room r hr).mono fun _ hdetached => Or.inl hdetached)
      (by rintro _ ⟨⟩)
  | during hreaches hhost hexpose htrace hchain =>
    have hsettled := hreaches.settled hcode
    obtain ⟨n, hn, hflight⟩ := hsettled.during hcode hhost hexpose htrace hchain
    exact .of_inFlight (fun hne => hn fun hnil => hne (hnil ▸ rfl))
      (HeapWorld.exposed_of_expose hexpose).2 hsettled.ended hflight room hr
  | inside hreaches hhost hexpose htrace hchain hcall hf hvisits =>
    have hsettled := hreaches.settled hcode
    obtain ⟨n, hn, hflight⟩ := hsettled.during hcode hhost hexpose htrace hchain
    have hsame := hvisits.sameObjects hcode (hcode _ _)
    exact .of_inFlight (fun hne => hn fun hnil => hne (hnil ▸ rfl))
      (HeapWorld.exposed_of_expose hexpose).2 hsettled.ended (hflight.sameObjects hsame) room hr

/-- The three views of the small session after its first invocation. -/
theorem views_safe_echo :
    Echo.history.made = [⟨1, 0⟩, ⟨2, 0⟩, ⟨3, 0⟩] ∧ Echo.served.host.heap.isLive ⟨1, 0⟩ ∧
      ∀ r ∈ Echo.history.made, SafeView Echo.history none Echo.served.host r := by
  refine ⟨by decide +kernel, by decide +kernel, ?_⟩
  refine views_safe (Echo.all_code (fun _ => trivial) fun _ => trivial) (.between (Echo.reaches _))
    ?_
  decide +kernel

end CallbackBridge
