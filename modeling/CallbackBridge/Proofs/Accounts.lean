/-
# Exact accounts of pins

`Heap.Balanced others owed` says where each pin belongs: an object has as many pins as
other owners hold on it and, beside these, one for each time it is listed as owed.  Each
part of an invocation changes what is owed and leaves alone what others hold; closing the
guard and tearing a bridge down pay back what is owed, so no pin is undone that is not
there (`chain_givesBack`).
-/
import CallbackBridge.Proofs.Lifetimes
import CallbackBridge.Proofs.Setup
namespace CallbackBridge

open HostOperation

variable {F ω : Type} {I : Interface}

/-! ## What changes no pins -/

/-- The number of pins of an entry stays as it is, and a new entry has none. -/
def HeapEntry.fixedPins : Table.Regime (HeapEntry F) where
  change e e' := e'.pins = e.pins
  fresh e := e.pins = 0
  refl _ := rfl
  trans h h' := h'.trans h
  inherit h h' := by
    rw [h']
    exact h

/-- Replacing an object changes no pins. -/
theorem Heap.samePins_setObject (h : Heap F) (r : ObjRef) (object : Object F) :
    h.table.Evolves HeapEntry.fixedPins (h.setObject r object).table :=
  .modify _ _ fun _ _ => rfl

/-- Retiring changes no pins. -/
theorem Heap.samePins_retire (h : Heap F) (r : ObjRef) :
    h.table.Evolves HeapEntry.fixedPins (h.retire r).table := by
  rcases h.retire_cases r with ⟨view, pins, -, htable⟩ | ⟨-, heq⟩
  · rw [htable]
    exact h.samePins_setObject r _
  · rw [heq]
    exact .refl _

/-- Pointing a view elsewhere changes no pins. -/
theorem Heap.samePins_repoint {h h' : Heap F} {r : ObjRef} {buffer : Buffer}
    (hrepoint : h.repoint r buffer = .ok h') :
    h.table.Evolves HeapEntry.fixedPins h'.table := by
  rw [(Heap.repoint_eq_ok hrepoint).2]
  exact h.samePins_setObject r _

/-- The command neither pins nor unpins. -/
def HeapCommand.SparesPins : HeapCommand F I → Prop
  | pin _ => False
  | unpin _ => False
  | _ => True

/-- The numbers of pins are the same, and new objects have none. -/
def HeapWorld.SamePins (w w' : HeapWorld F ω) : Prop :=
  w.heap.table.Evolves HeapEntry.fixedPins w'.heap.table

theorem HeapWorld.SamePins.refl (w : HeapWorld F ω) : w.SamePins w :=
  Table.Evolves.refl _

/-- Code that leaves pins alone changes no pins. -/
theorem runClosed_samePins :
    RunClosed (HeapCommand.SparesPins (F := F) (I := I)) (HeapWorld.SamePins (ω := ω)) where
  refl := .refl
  trans h h' := Table.Evolves.trans h h'
  plain surroundings run command w hallowed henters := by
    cases command with
    | array values => exact Heap.evolves_alloc _ rfl
    | text text => exact Heap.evolves_alloc _ rfl
    | function f => exact Heap.evolves_alloc _ rfl
    | materialize buffer => exact Heap.evolves_alloc _ rfl
    | collect => exact Heap.evolves_collect _ _
    | repoint r buffer =>
      show w.SamePins (HeapWorld.repoint r buffer w).2
      unfold HeapWorld.repoint
      split
      · next heap hrepoint => exact Heap.samePins_repoint hrepoint
      · exact .refl w
    | retire r => exact w.heap.samePins_retire r
    | pin r => exact hallowed.elim
    | unpin r => exact hallowed.elim
    | call f args => exact (henters trivial).elim
    | direct f args => exact (henters trivial).elim
    | _ => exact .refl _
  inScope h := h

/-- The operation neither makes nor undoes a pin. -/
def HostOperation.SparesPins {R K : Type} : HostOperation R K → Prop
  | pin _ => False
  | unpin _ => False
  | persist _ _ => False
  | release _ => False
  | _ => True

/-- Operations that leave pins alone change no pins, as long as user code does not. -/
theorem HeapStep.samePins {code : UserCode F I} {stack : List (Surroundings I ω)}
    (hcode : ∀ f args, (code f args).All HeapCommand.SparesPins) {w w' : HeapWorld F ω}
    {op : HostOperation ObjRef Rooted} (h : HeapStep (Runner.ofStack code stack) op w w')
    (hop : op.SparesPins) : w.SamePins w' := by
  cases op with
  | resolve name found => rw [h.resolve.1]; exact .refl w
  | isCallable r callable => rw [h.isCallable.1]; exact .refl w
  | typeName r name => rw [h.typeName]; exact .refl w
  | attach handle r => rw [h.attach.1]; exact .refl w
  | read r result => rw [h.read]; exact .refl w
  | materialize buffer made =>
    cases made with
    | ok view =>
      obtain ⟨rfl, rfl⟩ := h.materialize
      exact Heap.evolves_alloc _ rfl
    | error e => rw [h.materialize_error]; exact .refl w
  | repoint view buffer done =>
    cases done with
    | ok _ =>
      obtain ⟨heap, hrepoint, rfl⟩ := h.repoint
      exact Heap.samePins_repoint hrepoint
    | error e => rw [h.repoint_error]; exact .refl w
  | retire view =>
    rw [h.retire]
    exact w.heap.samePins_retire view
  | call f views outcome =>
    rcases h.call with hcall | ⟨-, rfl⟩
    · have hbody : w.SamePins ((HeapWorld.call (Runner.ofStack code stack) f views).start w).2 :=
        (runClosed_samePins (I := I)).call fun function _ =>
          (runClosed_samePins (I := I)).runner hcode stack function.code views
      rw [hcall] at hbody
      exact hbody
    · exact .refl _
  | pin r => exact hop.elim
  | unpin r => exact hop.elim
  | persist r handle => exact hop.elim
  | release handle => exact hop.elim

/-! ## Balanced heaps -/

/-- The number of pins that other owners hold on what each reference leads to. -/
abbrev Ledger : Type := ObjRef → Nat

namespace Heap

variable {h h' : Heap F} {others : Ledger} {owed owed' : List ObjRef} {r : ObjRef}

/-- Each object has the pins that others hold and those that are owed, and no more. -/
structure Balanced (h : Heap F) (others : Ledger) (owed : List ObjRef) : Prop where
  /-- References do not come back to life. -/
  sound : h.table.Sound
  /-- Only references that were handed out have pins. -/
  issued : ∀ r, 0 < others r + owed.count r → h.table.Issued r
  /-- The pins add up. -/
  pins : ∀ r e, h.entry? r = some e → e.pins = others r + owed.count r

namespace Balanced

/-- It does not matter who is said to hold a pin, nor in which order pins are listed. -/
theorem of_count_eq {others' : Ledger} (hbal : h.Balanced others owed)
    (hcount : ∀ r, others' r + owed'.count r = others r + owed.count r) :
    h.Balanced others' owed' where
  sound := hbal.sound
  issued r hr := by
    rw [hcount r] at hr
    exact hbal.issued r hr
  pins r e he := by
    rw [hcount r]
    exact hbal.pins r e he

theorem perm (hbal : h.Balanced others owed) (hperm : owed.Perm owed') :
    h.Balanced others owed' :=
  hbal.of_count_eq fun r => by rw [hperm.count_eq r]

/-- What is owed has a pin. -/
theorem pos_of_mem (hbal : h.Balanced others owed) (hr : r ∈ owed) {e : HeapEntry F}
    (he : h.entry? r = some e) : 0 < e.pins := by
  have hcount : 0 < owed.count r := List.count_pos_iff.mpr hr
  rw [hbal.pins r e he]
  omega

/-- What is owed was handed out. -/
theorem issued_of_mem (hbal : h.Balanced others owed) (hr : r ∈ owed) : h.table.Issued r := by
  have hcount : 0 < owed.count r := List.count_pos_iff.mpr hr
  exact hbal.issued r (by omega)

/-- What changes no pins keeps the balance. -/
theorem evolves (hbal : h.Balanced others owed)
    (hev : h.table.Evolves HeapEntry.fixedPins h'.table) (room : h'.table.Addressable) :
    h'.Balanced others owed where
  sound := hev.sound room hbal.sound
  issued r hr := hev.issued room hbal.sound (hbal.issued r hr)
  pins r e he := by
    -- an object was there before, or it is new and nobody can have pinned it
    by_cases hissued : h.table.Issued r
    · obtain ⟨old, hold, hpins⟩ := hev.inherited room hbal.sound hissued he
      have hpins : e.pins = old.pins := hpins
      rw [hpins]
      exact hbal.pins r old hold
    · have hnone : e.pins = 0 := hev.made room hbal.sound hissued he
      have hzero : ¬ 0 < others r + owed.count r := fun hpos => hissued (hbal.issued r hpos)
      omega

/-- A pin is owed. -/
theorem pin (hbal : h.Balanced others owed) (hr : h.table.Issued r) :
    (h.pin r).Balanced others (r :: owed) where
  sound := hbal.sound.modify r _
  issued q hq := by
    by_cases hsame : q = r
    · rw [hsame]
      exact hr.modify _ _
    · rw [List.count_cons_of_ne (Ne.symm hsame)] at hq
      exact (hbal.issued q hq).modify _ _
  pins q e he := by
    rw [entry?_pin] at he
    by_cases hsame : q = r
    · subst hsame
      rw [if_pos rfl] at he
      obtain ⟨old, hold, rfl⟩ := Option.map_eq_some_iff.mp he
      have hpins := hbal.pins q old hold
      rw [List.count_cons_self]
      show old.pins + 1 = _
      omega
    · rw [if_neg hsame] at he
      rw [List.count_cons_of_ne (Ne.symm hsame)]
      exact hbal.pins q e he

/-- A pin that is undone is owed no more. -/
theorem unpin (hbal : h.Balanced others (r :: owed)) : (h.unpin r).Balanced others owed where
  sound := hbal.sound.modify r _
  issued q hq := by
    have hle : owed.count q ≤ (r :: owed).count q := List.count_le_count_cons
    exact (hbal.issued q (by omega)).modify _ _
  pins q e he := by
    rw [entry?_unpin] at he
    by_cases hsame : q = r
    · subst hsame
      rw [if_pos rfl] at he
      obtain ⟨old, hold, rfl⟩ := Option.map_eq_some_iff.mp he
      have hpins := hbal.pins q old hold
      rw [List.count_cons_self] at hpins
      show old.pins - 1 = _
      omega
    · rw [if_neg hsame] at he
      have hpins := hbal.pins q e he
      rw [List.count_cons_of_ne (Ne.symm hsame)] at hpins
      exact hpins

end Balanced

end Heap

/-- What a live reference leads to was handed out. -/
theorem Heap.issued_of_isLive {h : Heap F} {r : ObjRef} (hr : h.isLive r) : h.table.Issued r := by
  obtain ⟨e, he⟩ := Option.isSome_iff_exists.mp hr
  exact Table.issued_of_get? he

/-! ## The opening of an invocation -/

section Openings

variable {code : UserCode F I} {stack : List (Surroundings I ω)} {w w' : HeapWorld F ω}
  {ops : List (HostOperation ObjRef Rooted)} {others : Ledger} {owed base : List ObjRef}

/-- Operations that leave pins alone keep the balance. -/
theorem HeapStep.balanced (hcode : ∀ f args, (code f args).All HeapCommand.SparesPins)
    {op : HostOperation ObjRef Rooted} (h : HeapStep (Runner.ofStack code stack) op w w')
    (hop : op.SparesPins) (hbal : w.heap.Balanced others owed)
    (room : w'.heap.table.Addressable) : w'.heap.Balanced others owed :=
  hbal.evolves (h.samePins hcode hop) room

/-- A value that is pinned is owed. -/
theorem HeapStep.balanced_pin {r : ObjRef} (h : HeapStep (Runner.ofStack code stack) (.pin r) w w')
    (hbal : w.heap.Balanced others owed) (hr : w.heap.table.Issued r) :
    w'.heap.Balanced others (r :: owed) := by
  rw [h.pin]
  exact hbal.pin hr

/-- The function that is found was handed out. -/
theorem Symbols.issued_of_target {symbols : Symbols Rooted} {names : BindingNames} {entry : Entry}
    {h : Heap F} {f : ObjRef} (hf : symbols.target names entry h = .ok f)
    (hbal : h.Balanced others owed) (howed : ∀ r ∈ symbols.owed, r ∈ owed) :
    h.table.Issued f := by
  unfold target at hf
  cases symbols with
  | bound bindings =>
    simp only at hf
    split at hf
    · cases hf
    · next handle hhandle =>
      cases hf
      exact hbal.issued_of_mem (howed _ (mem_owed hhandle))
  | perCall =>
    simp only at hf
    split at hf
    · cases hf
    · obtain ⟨-, function, pins, hentry⟩ := Heap.entry?_of_callable hf
      exact Table.issued_of_get? hentry

/-- Views that are made are owed, each once. -/
theorem Makes.balanced (hcode : ∀ f args, (code f args).All HeapCommand.SparesPins)
    {buffers : List Buffer} {result : Except HostError (List ObjRef)}
    (h : Makes buffers ops result) (hbal : w.heap.Balanced others owed)
    (hrun : HeapRun code stack w ops w') (room : w'.heap.table.Addressable) :
    w'.heap.Balanced others (pinnedValues ops ++ owed) := by
  induction h generalizing w owed with
  | nil => exact hrun ▸ hbal
  | failed =>
    obtain ⟨m, hfailed, rfl⟩ := hrun
    exact hfailed.balanced hcode trivial hbal room
  | @made buffer rest view ops result hrest ih =>
    obtain ⟨w₁, hmade, w₂, hpin, hrun⟩ := hrun
    have room₁ := hpin.forward.1.addressable (hrun.forward.1.addressable room)
    have hbal₁ := hmade.balanced hcode trivial hbal room₁
    obtain ⟨rfl, rfl⟩ := hmade.materialize
    have hnew := (Heap.shows_materialize hbal.sound room₁).1.isLive
    have hbal₂ := hpin.balanced_pin hbal₁ (Heap.issued_of_isLive hnew)
    refine (ih hbal₂ hrun).perm ?_
    rw [pinnedValues_cons, pinnedValues_cons]
    exact List.perm_middle

/-- Views that are moved are owed, each once more. -/
theorem Moves.balanced (hcode : ∀ f args, (code f args).All HeapCommand.SparesPins)
    {moves : List (ObjRef × Buffer)} {result : Except HostError Unit}
    (h : Moves moves ops result) (hbal : w.heap.Balanced others owed)
    (hrun : HeapRun code stack w ops w') (room : w'.heap.table.Addressable) :
    w'.heap.Balanced others (pinnedValues ops ++ owed) := by
  induction h generalizing w owed with
  | nil => exact hrun ▸ hbal
  | failed =>
    obtain ⟨m, hfailed, rfl⟩ := hrun
    exact hfailed.balanced hcode trivial hbal room
  | @moved view buffer rest ops result hrest ih =>
    obtain ⟨w₁, hmoved, w₂, hpin, hrun⟩ := hrun
    have room₁ := hpin.forward.1.addressable (hrun.forward.1.addressable room)
    have hbal₁ := hmoved.balanced hcode trivial hbal room₁
    obtain ⟨heap, hrepoint, rfl⟩ := hmoved.repoint
    have hbal₂ := hpin.balanced_pin hbal₁
      (Heap.issued_of_isLive (Heap.shows_repoint hrepoint).isLive)
    refine (ih hbal₂ hrun).perm ?_
    rw [pinnedValues_cons, pinnedValues_cons]
    exact List.perm_middle

/-- Views that are obtained are owed, and once more if handles to them are kept. -/
theorem Viewing.balanced (hcode : ∀ f args, (code f args).All HeapCommand.SparesPins)
    {supportsReuse : Bool} {buffers : StateViews Buffer} {strategy : ViewStrategy}
    {kept kept' : Option (StateViews Rooted)} {result : Except HostError (StateViews ObjRef)}
    (h : Viewing supportsReuse buffers strategy kept ops result kept')
    (hbal : w.heap.Balanced others (keptRefs kept ++ base))
    (hrun : HeapRun code stack w ops w') (room : w'.heap.table.Addressable) :
    w'.heap.Balanced others (keptRefs kept' ++ (pinnedValues ops ++ base)) := by
  cases h with
  | unmade hmakes =>
    exact (hmakes.balanced hcode hbal hrun room).perm (List.perm_append_comm_assoc _ _ _)
  | fresh hmakes =>
    exact (hmakes.balanced hcode hbal hrun room).perm (List.perm_append_comm_assoc _ _ _)
  | unsupported _ => exact hrun ▸ hbal
  | @first making views handles _ hmakes =>
    obtain ⟨m, hmaking, hkeeping⟩ := carries_append.mp hrun
    have hroom := hkeeping.forward.1.addressable room
    have hmade := hmakes.balanced hcode hbal hmaking hroom
    rw [hmakes.pinnedValues_eq] at hmade
    obtain ⟨rfl, hhandles⟩ := persist_eq hkeeping
    -- each of the three views is pinned once more
    have ht := hmade.pin (hmade.issued_of_mem (r := views.t) (by simp [StateViews.toList]))
    have hy := ht.pin (ht.issued_of_mem (r := views.y) (by simp [StateViews.toList]))
    have hyp := hy.pin (hy.issued_of_mem (r := views.yp) (by simp [StateViews.toList]))
    refine hyp.perm (List.perm_iff_count.mpr fun r => ?_)
    rw [hhandles, pinnedValues_append, hmakes.pinnedValues_eq]
    simp only [keptRefs, StateViews.toList, List.count_append, List.count_cons, List.count_nil,
      pinnedValues_cons, pinnedValues_nil, pinned?, Option.toList]
    omega
  | later _ hmoves =>
    obtain ⟨m, htaking, hmoving⟩ := carries_append.mp hrun
    obtain ⟨rfl, -⟩ := attach_eq htaking
    have hmoved := hmoves.balanced hcode hbal hmoving room
    exact hmoved.perm (List.perm_append_comm_assoc _ _ _)

/-- A result that is given is owed. -/
theorem Answering.balanced (hcode : ∀ f args, (code f args).All HeapCommand.SparesPins)
    {f : ObjRef} {name : String} {views : StateViews ObjRef} {outLen : Nat} {res res' : Output}
    {outcome : Outcome BridgeError Unit}
    (h : Answering f name views outLen res ops outcome res')
    (hbal : w.heap.Balanced others owed) (hrun : HeapRun code stack w ops w')
    (room : w'.heap.table.Addressable) :
    w'.heap.Balanced others (pinnedValues ops ++ owed) := by
  rcases h.disciplined with ⟨stop, rfl⟩ | ⟨value, result, rfl⟩
  · obtain ⟨m, hcall, rfl⟩ := hrun
    exact hcall.balanced hcode trivial hbal room
  · obtain ⟨m₁, hcall, m₂, hpin, m₃, hread, rfl⟩ := hrun
    have room₂ := hread.forward.1.addressable room
    have hcalled := hcall.balanced hcode trivial hbal (hpin.forward.1.addressable room₂)
    have hpinned := hpin.balanced_pin hcalled (Heap.issued_of_isLive hcall.isLive_result)
    exact hread.balanced hcode trivial hpinned room

/-- The function is found and pinned, and then views are obtained, or not. -/
theorem balanced_of_viewing (hcode : ∀ f args, (code f args).All HeapCommand.SparesPins)
    {bridge : Bridge Rooted} {entry : Entry} {f : ObjRef}
    {looking viewing : List (HostOperation ObjRef Rooted)} {supportsReuse : Bool}
    {buffers : StateViews Buffer} {kept : Option (StateViews Rooted)}
    {result : Except HostError (StateViews ObjRef)}
    (hlookup : Lookup bridge.config.names entry bridge.symbols looking (.ok f))
    (hviewing : Viewing supportsReuse buffers bridge.config.strategy bridge.reusable viewing
      result kept)
    (hbal : w.heap.Balanced others bridge.owed)
    (hrun : HeapRun code stack w (looking ++ .pin f :: viewing) w')
    (room : w'.heap.table.Addressable) :
    w'.heap.Balanced others
      (keptRefs kept ++ (pinnedValues viewing ++ f :: bridge.symbols.owed)) := by
  -- looking changes nothing, so what was found was handed out before
  obtain ⟨m, hlooking, m₁, hpin, hviews⟩ := carries_append.mp hrun
  obtain ⟨rfl, htarget⟩ := hlookup.target_eq hlooking
  have hissued := Symbols.issued_of_target (htarget f rfl) hbal fun r hr =>
    List.mem_append_right _ hr
  have hpinned := (hpin.balanced_pin hbal hissued).perm List.perm_middle.symm
  exact hviewing.balanced hcode hpinned hviews room

/-- **In the opening, exactly what is pinned comes to be owed**, beside what the handles
root then. -/
theorem Opening.balanced (hcode : ∀ f args, (code f args).All HeapCommand.SparesPins)
    {supportsReuse : Bool} {bridge : Bridge Rooted} {entry : Entry} {admission : Admission}
    {res res' : Output} {outcome : Outcome BridgeError Unit} {kept : Option (StateViews Rooted)}
    (h : Opening supportsReuse bridge entry admission res ops outcome kept res')
    (hbal : w.heap.Balanced others bridge.owed) (hrun : HeapRun code stack w ops w')
    (room : w'.heap.table.Addressable) :
    w'.heap.Balanced others (pinnedValues ops ++ (keptRefs kept ++ bridge.symbols.owed)) := by
  cases h with
  | unfound hlookup =>
    obtain ⟨rfl, -⟩ := hlookup.target_eq hrun
    rw [pinnedValues_eq_nil fun op hop => (hlookup.idle op hop).2]
    exact hbal
  | @unseen looking viewing f e _ hlookup hviewing =>
    have hviewed := balanced_of_viewing hcode hlookup hviewing hbal hrun room
    refine hviewed.perm (List.perm_iff_count.mpr fun r => ?_)
    rw [pinnedValues_append, pinnedValues_eq_nil fun op hop => (hlookup.idle op hop).2]
    simp only [List.count_append, List.count_cons, List.nil_append, pinnedValues_cons, pinned?,
      Option.toList, List.count_nil]
    omega
  | @asked looking viewing asking f views _ _ _ hlookup hviewing hanswering =>
    have hsplit : looking ++ .pin f :: (viewing ++ asking) =
        (looking ++ .pin f :: viewing) ++ asking := by simp
    obtain ⟨m, hbefore, hafter⟩ := carries_append.mp (hsplit ▸ hrun)
    have hroom := hafter.forward.1.addressable room
    have hviewed := balanced_of_viewing hcode hlookup hviewing hbal hbefore hroom
    refine (hanswering.balanced hcode hviewed hafter room).perm
      (List.perm_iff_count.mpr fun r => ?_)
    rw [pinnedValues_append, pinnedValues_eq_nil fun op hop => (hlookup.idle op hop).2]
    simp only [List.count_append, List.count_cons, List.nil_append, pinnedValues_cons,
      pinnedValues_append, pinned?, Option.toList, List.count_nil]
    omega

end Openings

/-! ## Giving back -/

/-- The reference on which the operation undoes a pin. -/
def HostOperation.unpinned? : HostOperation ObjRef Rooted → Option ObjRef
  | unpin r => some r
  | release handle => some handle.ref
  | _ => none

/-- An operation that undoes a pin gives back. -/
theorem HostOperation.givesBack_of_unpinned {op : HostOperation ObjRef Rooted} {r : ObjRef}
    (h : op.unpinned? = some r) : op.GivesBack := by
  cases op with
  | unpin _ => trivial
  | release _ => trivial
  | _ => cases h

/-- What an operation does that undoes a pin. -/
theorem HeapStep.unpins {run : Runner F ω} {w w' : HeapWorld F ω}
    {op : HostOperation ObjRef Rooted} {r : ObjRef} (h : HeapStep run op w w')
    (hop : op.unpinned? = some r) : w' = w.update fun h => h.unpin r := by
  cases op with
  | unpin _ =>
    cases hop
    exact h.unpin
  | release _ =>
    cases hop
    exact h.release
  | _ => cases hop

/-- An operation that gives back and undoes no pin detaches a view. -/
theorem HostOperation.GivesBack.sparesPins {op : HostOperation ObjRef Rooted} (h : op.GivesBack)
    (hop : op.unpinned? = none) : op.SparesPins := by
  cases op with
  | retire _ => trivial
  | unpin _ => cases hop
  | release _ => cases hop
  | _ => exact h.elim

/-- If the operation undoes a pin on an object that is there, then there is a pin. -/
def Moment.Covered {σ : Type} (world : σ → HeapWorld F ω) (moment : Moment σ ObjRef Rooted) :
    Prop :=
  ∀ r e, moment.operation.unpinned? = some r → (world moment.before).heap.entry? r = some e →
    0 < e.pins

section Closings

variable {σ : Type} {code : UserCode F I} {stack : List (Surroundings I ω)}
  {host : HostRuntime σ ObjRef Rooted} {world : σ → HeapWorld F ω} {s s' : σ}
  {moments : List (Moment σ ObjRef Rooted)} {others : Ledger} {owed : List ObjRef}

/-- Operations that only give back pay what is owed, and undo no pin that is not there. -/
theorem chain_givesBack (hcode : ∀ f args, (code f args).All HeapCommand.SparesPins)
    (hhost : HeapBacked (Runner.ofStack code stack) host world)
    (hchain : Chain host s moments s') (hops : ∀ moment ∈ moments, moment.operation.GivesBack)
    (hbal : (world s).heap.Balanced others
      ((moments.map Moment.operation).filterMap unpinned? ++ owed))
    (room : (world s').heap.table.Addressable) :
    (world s').heap.Balanced others owed ∧ ∀ moment ∈ moments, moment.Covered world := by
  induction moments generalizing s with
  | nil =>
    cases (hchain : s = s')
    exact ⟨hbal, by simp⟩
  | cons moment rest ih =>
    obtain ⟨op, before, after⟩ := moment
    obtain ⟨rfl, hperforms, hrest⟩ := hchain
    have hstep := hhost op before after hperforms
    rw [List.forall_mem_cons] at hops ⊢
    have room₁ := (hrest.carries hhost).forward.1.addressable room
    rw [List.map_cons] at hbal
    cases hunpinned : op.unpinned? with
    | none =>
      -- a view is detached, and as much is owed as before
      rw [List.filterMap_cons_none hunpinned] at hbal
      have hnext := hstep.balanced hcode (hops.1.sparesPins hunpinned) hbal room₁
      obtain ⟨hended, hcovered⟩ := ih hrest hops.2 hnext
      refine ⟨hended, fun r e hr _ => ?_, hcovered⟩
      rw [hunpinned] at hr
      cases hr
    | some q =>
      -- the first of what is owed is paid
      rw [List.filterMap_cons_some hunpinned, List.cons_append] at hbal
      have hnext := hbal.unpin
      have hafter := hstep.unpins hunpinned
      obtain ⟨hended, hcovered⟩ := ih hrest hops.2 (by rw [hafter]; exact hnext)
      refine ⟨hended, fun r e hr he => ?_, hcovered⟩
      cases hunpinned.symm.trans hr
      exact hbal.pos_of_mem List.mem_cons_self he

/-- What the closing of the guard undoes is what was pinned. -/
theorem unpinned_closing (ops : List (HostOperation ObjRef Rooted)) :
    (closing ops).filterMap unpinned? = (pinnedValues ops).reverse := by
  unfold closing
  rw [List.filterMap_append, List.filterMap_map, List.filterMap_map]
  have hretires : (shownViews ops).filterMap (unpinned? ∘ retire) = [] :=
    List.filterMap_eq_nil_iff.mpr fun _ _ => rfl
  rw [hretires, List.nil_append]
  exact List.filterMap_some

/-- **An invocation keeps the balance**, on every host that is backed by the heap and on every
way out, and undoes no pin that is not there. -/
theorem Bridge.balanced_evaluate (hcode : ∀ f args, (code f args).All HeapCommand.SparesPins)
    (hhost : HeapBacked (Runner.ofStack code stack) host world) (bridge : Bridge Rooted)
    (entry : Entry) (call : Invocation) (hbal : (world s).heap.Balanced others bridge.owed)
    (room : (world (bridge.evaluate host entry call s).host).heap.table.Addressable) :
    (world (bridge.evaluate host entry call s).host).heap.Balanced others
        (bridge.evaluate host entry call s).bridge.owed ∧
      ∀ moment ∈ bridge.trace host entry call s, moment.Covered world := by
  have hconducted := bridge.evaluate_traced host entry call s
  cases hcheck : bridge.config.check entry call with
  | error e =>
    have htrace : bridge.trace host entry call s = [] :=
      List.map_eq_nil_iff.mp (hconducted.rejected e hcheck)
    rw [htrace, evaluate_of_rejected hcheck]
    exact ⟨hbal, by simp⟩
  | ok admission =>
    obtain ⟨ops, hopening, hops⟩ := hconducted.admitted admission hcheck
    obtain ⟨opened, closed, htrace, hopened, hclosed⟩ := List.map_eq_append_iff.mp hops
    have hchain := hconducted.chain
    rw [htrace] at hchain ⊢
    obtain ⟨u, hbefore, hafter⟩ := hchain.split
    have hroom := (hafter.carries hhost).forward.1.addressable room
    -- what comes to be owed in the opening is what the closing pays
    have hbefore := hbefore.carries hhost
    rw [hopened] at hbefore
    have hopen := hopening.balanced hcode hbal hbefore hroom
    have hsymbols := (config_symbols_evaluate host bridge entry call s).2
    have hpays : (world u).heap.Balanced others
        ((closed.map Moment.operation).filterMap unpinned? ++
          (bridge.evaluate host entry call s).bridge.owed) := by
      rw [hclosed, unpinned_closing]
      unfold owed
      rw [hsymbols]
      exact hopen.perm ((List.reverse_perm _).symm.append_right _)
    have hgives : ∀ moment ∈ closed, moment.operation.GivesBack := by
      intro moment hmoment
      have hmem : moment.operation ∈ closing ops := hclosed ▸ List.mem_map_of_mem hmoment
      rcases List.mem_append.mp hmem with hmem | hmem
      · obtain ⟨view, -, heq⟩ := List.mem_map.mp hmem
        rw [← heq]
        trivial
      · obtain ⟨value, -, heq⟩ := List.mem_map.mp hmem
        rw [← heq]
        trivial
    obtain ⟨hended, hcovered⟩ := chain_givesBack hcode hhost hafter hgives hpays room
    refine ⟨hended, List.forall_mem_append.mpr ⟨fun moment hmoment r e hr _ => ?_, hcovered⟩⟩
    -- nothing is given back in the opening
    have hmem : moment.operation ∈ ops := hopened ▸ List.mem_map_of_mem hmoment
    exact (hopening.disciplined.keeps _ hmem (givesBack_of_unpinned hr)).elim

/-- What the handles of functions root is owed for them. -/
theorem Symbols.map_ref_handles (symbols : Symbols Rooted) :
    symbols.handles.map Rooted.ref = symbols.owed := by
  cases symbols with
  | perCall => rfl
  | bound bindings =>
    obtain ⟨residual, event⟩ := bindings
    cases event <;> rfl

/-- What the handles of a bridge root is what is owed for it. -/
theorem Bridge.map_ref_handles (bridge : Bridge Rooted) :
    (bridge.handles.map Rooted.ref).Perm bridge.owed := by
  unfold handles owed
  rw [List.map_append, Symbols.map_ref_handles]
  cases bridge.reusable <;> exact List.perm_append_comm

/-- **A teardown pays all that is owed**, and undoes no pin that is not there. -/
theorem Bridge.balanced_teardown (hcode : ∀ f args, (code f args).All HeapCommand.SparesPins)
    (hhost : HeapBacked (Runner.ofStack code stack) host world) (bridge : Bridge Rooted)
    (hbal : (world s).heap.Balanced others bridge.owed)
    (room : (world (bridge.teardown host s)).heap.table.Addressable) :
    (world (bridge.teardown host s)).heap.Balanced others [] ∧
      ∀ moment ∈ bridge.teardownTrace host s, moment.Covered world := by
  obtain ⟨-, hchain, hops⟩ := bridge.teardown_traced host s
  refine chain_givesBack hcode hhost hchain ?_ ?_ room
  · intro moment hmoment
    have hmem : moment.operation ∈ bridge.handles.map HostOperation.release :=
      hops ▸ List.mem_map_of_mem hmoment
    obtain ⟨handle, -, heq⟩ := List.mem_map.mp hmem
    rw [← heq]
    trivial
  · have hreleased : (bridge.handles.map HostOperation.release).filterMap unpinned? =
        bridge.handles.map Rooted.ref := by
      rw [List.filterMap_map]
      exact congrFun List.filterMap_eq_map bridge.handles
    rw [hops, hreleased, List.append_nil]
    exact hbal.perm bridge.map_ref_handles.symm

/-- A teardown makes no new places. -/
theorem Bridge.addressable_teardown (hhost : HeapBacked (Runner.ofStack code stack) host world)
    (bridge : Bridge Rooted) (room : (world s).heap.table.Addressable) :
    (world (bridge.teardown host s)).heap.table.Addressable := by
  obtain ⟨-, hchain, hops⟩ := bridge.teardown_traced host s
  have hrun := hchain.carries hhost
  rw [hops] at hrun
  have hlength : (world (bridge.teardown host s)).heap.table.slots.length =
      (world s).heap.table.slots.length := by
    refine hrun.relates
      (P := fun u v : HeapWorld F ω => v.heap.table.slots.length = u.heap.table.slots.length)
      (fun _ => rfl) (fun h h' => h'.trans h) fun op hop u u' hstep => ?_
    obtain ⟨handle, -, rfl⟩ := List.mem_map.mp hop
    rw [hstep.release]
    exact Table.length_modify _ _ _
  unfold Table.Addressable
  rw [hlength]
  exact room

end Closings

/-! ## Setup -/

section Setups

variable {code : UserCode F I} {stack : List (Surroundings I ω)} {w w' : HeapWorld F ω}
  {ops ops' : List (HostOperation ObjRef Rooted)} {others : Ledger} {names : BindingNames}

/-- A function that is found by its name was handed out, and nothing has changed. -/
theorem Lookup.issued {entry : Entry} {f : ObjRef} (h : Lookup names entry .perCall ops (.ok f))
    (hbal : w.heap.Balanced others []) (hrun : HeapRun code stack w ops w') :
    w' = w ∧ w.heap.table.Issued f := by
  obtain ⟨hsame, htarget⟩ := h.target_eq hrun
  have hunowed : ∀ r ∈ (Symbols.perCall : Symbols Rooted).owed, r ∈ ([] : List ObjRef) :=
    fun r hr => hr
  exact ⟨hsame, Symbols.issued_of_target (htarget f rfl) hbal hunowed⟩

/-- What is bound at setup is owed. -/
theorem Binding.balanced {bindings : Bindings Rooted} (h : Binding names ops (.ok bindings))
    (hbal : w.heap.Balanced others []) (hrun : HeapRun code stack w ops w') :
    w'.heap.Balanced others (Symbols.bound bindings).owed := by
  cases h with
  | alone hresidual hevent =>
    obtain ⟨m, hlooking, hrest⟩ := carries_append.mp hrun
    obtain ⟨rfl, hissued⟩ := hresidual.issued hbal hlooking
    obtain ⟨m', hlooking', hrooting⟩ := carries_append.mp hrest
    obtain ⟨rfl, -⟩ := hevent.target_eq hlooking'
    obtain ⟨m'', hpersist, rfl⟩ := hrooting
    obtain ⟨rfl, rfl⟩ := hpersist.persist
    exact hbal.pin hissued
  | both hresidual hevent =>
    obtain ⟨m, hlooking, hrest⟩ := carries_append.mp hrun
    obtain ⟨rfl, hissued⟩ := hresidual.issued hbal hlooking
    obtain ⟨m', hlooking', hrooting⟩ := carries_append.mp hrest
    obtain ⟨rfl, hissued'⟩ := hevent.issued hbal hlooking'
    obtain ⟨m₁, hpersist, m₂, hpersist', rfl⟩ := hrooting
    obtain ⟨rfl, rfl⟩ := hpersist.persist
    obtain ⟨rfl, rfl⟩ := hpersist'.persist
    exact ((hbal.pin hissued).pin (hissued'.modify _ _)).perm (List.Perm.swap _ _ _)

/-- Operations that only look change nothing. -/
theorem eq_of_looks (hlooks : ∀ op ∈ ops, op.Looks) (hrun : HeapRun code stack w ops w') :
    w' = w := by
  induction ops generalizing w with
  | nil => exact hrun.symm
  | cons op rest ih =>
    obtain ⟨m, hstep, hrun⟩ := hrun
    rw [List.forall_mem_cons] at hlooks
    have hsame : m = w := by
      cases op with
      | resolve name found => exact hstep.resolve.1
      | isCallable value callable => exact hstep.isCallable.1
      | typeName value name => exact hstep.typeName
      | attach handle value => exact hstep.attach.1
      | _ => exact hlooks.1.elim
    rw [ih hlooks.2 hrun, hsame]

/-- Setting a bridge up brings no reference back to life. -/
theorem Bridge.forward_setup {σ : Type} {host : HostRuntime σ ObjRef Rooted}
    {world : σ → HeapWorld F ω} {s s' : σ} {config : BridgeConfig}
    {outcome : Outcome BridgeError (Bridge Rooted)}
    (hhost : HeapBacked (Runner.ofStack code stack) host world)
    (hsetup : (Bridge.resolveAtSetup host config).start s = (outcome, s')) :
    (world s).Forward (world s') := by
  obtain ⟨moments, result, s'', hstart, hchain, -⟩ := Bridge.exists_setup host config s
  rw [hsetup] at hstart
  obtain ⟨-, rfl⟩ := Prod.mk.inj hstart
  exact (hchain.carries hhost).forward

/-- **A bridge that is set up is owed one pin for each of its handles.** -/
theorem Bridge.balanced_setup {σ : Type} {host : HostRuntime σ ObjRef Rooted}
    {world : σ → HeapWorld F ω} {s s' : σ} {config : BridgeConfig} {bridge : Bridge Rooted}
    (hhost : HeapBacked (Runner.ofStack code stack) host world)
    (hsetup : (Bridge.resolveAtSetup host config).start s = (.ok bridge, s'))
    (hbal : (world s).heap.Balanced others []) :
    ∃ bindings, bridge = Bridge.start config (.bound bindings) ∧
      (world s').heap.Balanced others (Symbols.bound bindings).owed := by
  obtain ⟨moments, result, s'', hstart, hchain, hresult⟩ := Bridge.exists_setup host config s
  rw [hsetup] at hstart
  obtain ⟨houtcome, rfl⟩ := Prod.mk.inj hstart
  rcases hresult with ⟨e, -, rfl⟩ | ⟨bound, hbinding, rfl⟩
  · cases houtcome
  · cases bound with
    | error e => cases houtcome
    | ok bindings =>
      cases houtcome
      exact ⟨bindings, rfl, hbinding.balanced hbal (hchain.carries hhost)⟩

/-- **A bridge that cannot be set up leaves the heap as it was.** -/
theorem Bridge.eq_of_setup_error {σ : Type} {host : HostRuntime σ ObjRef Rooted}
    {world : σ → HeapWorld F ω} {s s' : σ} {config : BridgeConfig} {stop : Stop BridgeError}
    (hhost : HeapBacked (Runner.ofStack code stack) host world)
    (hsetup : (Bridge.resolveAtSetup host config).start s = (.error stop, s')) :
    world s' = world s := by
  obtain ⟨moments, result, s'', hstart, hchain, hresult⟩ := Bridge.exists_setup host config s
  rw [hsetup] at hstart
  obtain ⟨houtcome, rfl⟩ := Prod.mk.inj hstart
  rcases hresult with ⟨e, rfl, -⟩ | ⟨bound, hbinding, rfl⟩
  · exact (congrArg world hchain).symm
  · cases bound with
    | error e => exact eq_of_looks hbinding.looks_of_error (hchain.carries hhost)
    | ok bindings => cases houtcome

end Setups

end CallbackBridge
