/-
# The heap without its table

An ideal heap knows which references were handed out and what each of them stands for; it
has neither places nor generations.  It is told what is done to the heap and which reference
each allocation has given (`HeapEvent`), and it says what must be seen through each reference:
what it was made as, what a view is attached to, and nothing once it was collected.

* `HeapEvent.story` is what events tell of one reference: what it was allocated as, and the buffer
  to which it was attached last.  An object of the ideal heap is no more and no less than that
  and the number of its pins (`IdealHeap.Follows.replay`).
* `Heap.Realizes` relates a heap to an ideal one; each event keeps the relation, and so does
  every run (`Heap.Realizes.replay`).  This is where references are seen not to alias: an
  allocation gives a reference that was not handed out before.
* `Heap.Agrees` is what follows for everybody who looks at the heap.
-/
import CallbackBridge.Proofs.UserCode
import Mathlib.Data.Option.Defs
namespace CallbackBridge

variable {F : Type}

/-! ## Ideal heaps -/

/-- What an object is made as. -/
inductive Made (F : Type) where
  /-- An array of these values. -/
  | array (values : List Binary64)
  /-- A text. -/
  | text (content : String)
  /-- A function. -/
  | function (f : NativeFunction F)
  /-- A view of a buffer. -/
  | view (buffer : Buffer)

namespace Made

/-- The object that is allocated. -/
def object : Made F → Object F
  | array values => .array values
  | text content => .text content
  | function f => .function f
  | view buffer => .view (.ofBuffer buffer)

/-- The kind of the object, for good. -/
def kind : Made F → String
  | array _ => "array"
  | text _ => "text"
  | function _ => "function"
  | view _ => "view"

/-- The buffer to which the object is attached at first. -/
def attached : Made F → Option Buffer
  | view buffer => some buffer
  | _ => none

end Made

/-- What a reference stands for. -/
structure IdealObject (F : Type) where
  /-- What the object was made as. -/
  made : Made F
  /-- The buffer to which a view was attached last, unless it was detached since. -/
  attached : Option Buffer
  /-- The number of its pins. -/
  pins : Nat

/-- What is read through the reference, given the solver memory. -/
def IdealObject.reads (object : IdealObject F) (m : Memory) : Except HostError (List Binary64) :=
  match object.made with
  | .array values => .ok values
  | .text _ => .error (.notF64Array "text")
  | .function _ => .error (.notF64Array "function")
  | .view _ =>
    match object.attached with
    | some buffer => .ok (buffer.values m)
    | none => .error .retiredView

/-- A heap that is told which references it hands out. -/
structure IdealHeap (F : Type) where
  /-- The references that were handed out, the latest first. -/
  handed : List ObjRef := []
  /-- What references stand for; nothing before they are handed out and after their objects
  were collected. -/
  objects : ObjRef → Option (IdealObject F) := fun _ => none
  /-- The namespace. -/
  globals : NameMap ObjRef := .empty
  /-- What each call in progress has allocated, the innermost call first. -/
  scopes : List (List ObjRef) := []
  /-- How often there is a collection. -/
  config : HeapConfig
  /-- The number of allocations. -/
  allocations : Nat := 0

/-- What is done to a heap. -/
inductive HeapEvent (F : Type) where
  /-- An object is made, and a reference to it is handed out. -/
  | alloc (made : Made F) (r : ObjRef)
  /-- A name is bound. -/
  | define (name : String) (value : ObjRef)
  /-- A name is unbound. -/
  | undefine (name : String)
  /-- What is not rooted is collected. -/
  | collect
  /-- An object is pinned. -/
  | pin (r : ObjRef)
  /-- A pin is undone. -/
  | unpin (r : ObjRef)
  /-- A view is attached to a buffer. -/
  | repoint (r : ObjRef) (buffer : Buffer)
  /-- A view is detached. -/
  | retire (r : ObjRef)
  /-- A call begins. -/
  | enter
  /-- The innermost call ends. -/
  | leave

namespace IdealHeap

/-- The ideal heap before anything was done. -/
def ofConfig (config : HeapConfig) : IdealHeap F := { config }

/-- Whether a collection keeps an object: it is pinned, bound to a name, or allocated in a call
in progress. -/
def isRooted (ideal : IdealHeap F) (r : ObjRef) (object : IdealObject F) : Bool :=
  object.pins > 0 || (ideal.globals.values ++ ideal.scopes.flatten).contains r

/-- Gives up the objects that are not rooted. -/
def collect (ideal : IdealHeap F) : IdealHeap F :=
  { ideal with objects := fun r => (ideal.objects r).filter (ideal.isRooted r) }

/-- Counts an allocation and collects if one is due. -/
def prepare (ideal : IdealHeap F) : IdealHeap F :=
  let ideal := { ideal with allocations := ideal.allocations + 1 }
  let every := ideal.config.collectEvery
  if every > 0 ∧ ideal.allocations % every = 0 then ideal.collect else ideal

/-- Makes the reference stand for a new object. -/
def put (ideal : IdealHeap F) (made : Made F) (r : ObjRef) : IdealHeap F :=
  { ideal with
    handed := r :: ideal.handed
    objects := fun q => if q = r then some ⟨made, made.attached, 0⟩ else ideal.objects q
    scopes :=
      match ideal.scopes with
      | [] => []
      | innermost :: outer => (r :: innermost) :: outer }

/-- Changes what a reference stands for. -/
def change (ideal : IdealHeap F) (r : ObjRef) (f : IdealObject F → IdealObject F) : IdealHeap F :=
  { ideal with objects := fun q => if q = r then (ideal.objects r).map f else ideal.objects q }

/-- The ideal heap after an event. -/
def apply (ideal : IdealHeap F) : HeapEvent F → IdealHeap F
  | .alloc made r => ideal.prepare.put made r
  | .define name value => { ideal with globals := ideal.globals.insert name value }
  | .undefine name => { ideal with globals := ideal.globals.erase name }
  | .collect => ideal.collect
  | .pin r => ideal.change r fun object => { object with pins := object.pins + 1 }
  | .unpin r => ideal.change r fun object => { object with pins := object.pins - 1 }
  | .repoint r buffer => ideal.change r fun object => { object with attached := some buffer }
  | .retire r => ideal.change r fun object => { object with attached := none }
  | .enter => { ideal with scopes := [] :: ideal.scopes }
  | .leave => { ideal with scopes := ideal.scopes.tail }

/-- The ideal heap after events, the earliest first. -/
def replay (ideal : IdealHeap F) (log : List (HeapEvent F)) : IdealHeap F :=
  log.foldl apply ideal

end IdealHeap

/-! ## What events tell of a reference -/

/-- What was told of a reference, and what an event adds: what it was allocated as, and the
buffer to which it was attached last, unless it was detached since. -/
def HeapEvent.tell (r : ObjRef) (told : Option (Made F × Option Buffer)) :
    HeapEvent F → Option (Made F × Option Buffer)
  | .alloc made q => if q = r then some (made, made.attached) else told
  | .repoint q buffer => if q = r then told.map fun (made, _) => (made, some buffer) else told
  | .retire q => if q = r then told.map fun (made, _) => (made, none) else told
  | _ => told

/-- What events tell of a reference, the earliest first. -/
def HeapEvent.story (r : ObjRef) (log : List (HeapEvent F)) : Option (Made F × Option Buffer) :=
  log.foldl (tell r) none

namespace IdealHeap

/-- An object is what was told of its reference. -/
def Follows (ideal : IdealHeap F) (r : ObjRef) (told : Option (Made F × Option Buffer)) : Prop :=
  ∀ object, ideal.objects r = some object → told = some (object.made, object.attached)

variable {ideal : IdealHeap F} {r q : ObjRef} {told : Option (Made F × Option Buffer)}

/-- A collection tells nothing. -/
theorem Follows.collect (h : ideal.Follows r told) : ideal.collect.Follows r told :=
  fun object hobject => h object (Option.eq_some_of_filter_eq_some hobject)

/-- What comes before an allocation tells nothing. -/
theorem Follows.prepare (h : ideal.Follows r told) : ideal.prepare.Follows r told := by
  have hcounted : Follows { ideal with allocations := ideal.allocations + 1 } r told := h
  unfold IdealHeap.prepare
  dsimp only
  split
  · exact hcounted.collect
  · exact hcounted

/-- A change that the story follows. -/
theorem Follows.change (h : ideal.Follows r told) {f : IdealObject F → IdealObject F}
    {g : Made F × Option Buffer → Made F × Option Buffer}
    (hfg : ∀ object, g (object.made, object.attached) = ((f object).made, (f object).attached)) :
    (ideal.change q f).Follows r (if q = r then told.map g else told) := by
  intro object hobject
  by_cases hsame : q = r
  · subst hsame
    rw [if_pos rfl]
    have hmap : (ideal.objects q).map f = some object := by
      simpa only [IdealHeap.change, if_true] using hobject
    obtain ⟨old, hold, rfl⟩ := Option.map_eq_some_iff.mp hmap
    rw [h old hold, Option.map_some, hfg old]
  · rw [if_neg hsame]
    have hother : ideal.objects r = some object := by
      simpa only [IdealHeap.change, if_neg (Ne.symm hsame)] using hobject
    exact h object hother

/-- A change that says nothing new of any object. -/
theorem Follows.change_same (h : ideal.Follows r told) {f : IdealObject F → IdealObject F}
    (hf : ∀ object, ((f object).made, (f object).attached) = (object.made, object.attached)) :
    (ideal.change q f).Follows r told := by
  have hkept := h.change (q := q) (g := id) fun object => (hf object).symm
  rwa [Option.map_id, id, ite_self] at hkept

/-- An object is what was told of its reference, after every event. -/
theorem Follows.apply (h : ideal.Follows r told) (event : HeapEvent F) :
    (ideal.apply event).Follows r (event.tell r told) := by
  cases event with
  | alloc made q =>
    intro object hobject
    by_cases hsame : q = r
    · subst hsame
      have hnew : some ⟨made, made.attached, 0⟩ = some object := by
        simpa only [IdealHeap.apply, IdealHeap.put, if_true] using hobject
      cases hnew
      exact if_pos rfl
    · have hother : ideal.prepare.objects r = some object := by
        simpa only [IdealHeap.apply, IdealHeap.put, if_neg (Ne.symm hsame)] using hobject
      exact (if_neg hsame).trans (h.prepare object hother)
  | repoint q buffer => exact h.change fun _ => rfl
  | retire q => exact h.change fun _ => rfl
  | pin q => exact h.change_same fun _ => rfl
  | unpin q => exact h.change_same fun _ => rfl
  | collect => exact h.collect
  | _ => exact h

/-- **An object is what the events tell of its reference.** -/
theorem Follows.replay (h : ideal.Follows r told) (log : List (HeapEvent F)) :
    (ideal.replay log).Follows r (log.foldl (HeapEvent.tell r) told) := by
  induction log generalizing ideal told with
  | nil => exact h
  | cons event log ih => exact ih (h.apply event)

/-- What comes before an allocation hands nothing out. -/
theorem handed_prepare (ideal : IdealHeap F) : ideal.prepare.handed = ideal.handed := by
  unfold IdealHeap.prepare
  dsimp only
  split <;> rfl

/-- Only an allocation hands a reference out. -/
theorem mem_handed_apply (event : HeapEvent F) :
    r ∈ (ideal.apply event).handed ↔ r ∈ ideal.handed ∨ ∃ made, event = .alloc made r := by
  cases event with
  | alloc made q =>
    show r ∈ q :: ideal.prepare.handed ↔ _
    rw [handed_prepare, List.mem_cons, or_comm]
    refine or_congr_right ⟨?_, ?_⟩
    · rintro rfl
      exact ⟨made, rfl⟩
    · rintro ⟨_, hsame⟩
      cases hsame
      rfl
  | _ => exact (or_iff_left (by rintro ⟨_, hsame⟩; cases hsame)).symm

/-- **The references that were handed out are those that were allocated.** -/
theorem mem_handed_replay (log : List (HeapEvent F)) :
    r ∈ (ideal.replay log).handed ↔ r ∈ ideal.handed ∨ ∃ made, .alloc made r ∈ log := by
  induction log generalizing ideal with
  | nil => simp [IdealHeap.replay]
  | cons event log ih =>
    show r ∈ ((ideal.apply event).replay log).handed ↔ _
    rw [ih, mem_handed_apply, or_assoc, ← exists_or]
    simp only [List.mem_cons, eq_comm]

end IdealHeap

/-! ## Runs of the heap -/

/-- The event leads from one heap to another. -/
def Heap.Does (h : Heap F) : HeapEvent F → Heap F → Prop
  | .alloc made r, h' => h.alloc made.object = (r, h')
  | .define name value, h' => (h.define name value).2 = h'
  | .undefine name, h' => (h.undefine name).2 = h'
  | .collect, h' => h.collect.2 = h'
  | .pin r, h' => h.pin r = h'
  | .unpin r, h' => h.unpin r = h'
  | .repoint r buffer, h' => h.repoint r buffer = .ok h'
  | .retire r, h' => h.retire r = h'
  | .enter, h' => h.openScope = h'
  | .leave, h' => h.closeScope = h'

/-- The events lead from one heap to another, the earliest first. -/
def Heap.Runs (h : Heap F) : List (HeapEvent F) → Heap F → Prop
  | [], h' => h = h'
  | event :: log, h' => ∃ m, h.Does event m ∧ m.Runs log h'

namespace Heap

variable {h h' m : Heap F} {event : HeapEvent F} {log log' : List (HeapEvent F)}

/-- One event is a run. -/
theorem Does.runs (hdoes : h.Does event h') : h.Runs [event] h' := ⟨h', hdoes, rfl⟩

/-- Runs follow each other. -/
theorem Runs.append (hruns : h.Runs log m) (hlater : m.Runs log' h') :
    h.Runs (log ++ log') h' := by
  induction log generalizing h with
  | nil => exact hruns ▸ hlater
  | cons event log ih =>
    obtain ⟨u, hdoes, hruns⟩ := hruns
    exact ⟨u, hdoes, ih hruns⟩

/-- No event brings a reference back to life. -/
theorem Does.evolves (hdoes : h.Does event h') :
    h.table.Evolves HeapEntry.fixedSorts h'.table := by
  cases event with
  | alloc made r =>
    have hafter : (h.alloc made.object).2 = h' := congrArg Prod.snd hdoes
    rw [← hafter]
    exact evolves_alloc h trivial
  | repoint r buffer => exact evolves_repoint hdoes
  | collect => exact hdoes ▸ evolves_collect _ h
  | pin r => exact hdoes ▸ h.evolves_pin HeapEntry.fixedSorts_pins r
  | unpin r => exact hdoes ▸ h.evolves_unpin HeapEntry.fixedSorts_pins r
  | retire r => exact hdoes ▸ h.evolves_retire r
  | define name value => exact hdoes ▸ .refl _
  | undefine name => exact hdoes ▸ .refl _
  | enter => exact hdoes ▸ .refl _
  | leave => exact hdoes ▸ .refl _

/-- No run brings a reference back to life. -/
theorem Runs.evolves (hruns : h.Runs log h') :
    h.table.Evolves HeapEntry.fixedSorts h'.table := by
  induction log generalizing h with
  | nil =>
    have hsame : h = h' := hruns
    rw [hsame]
    exact .refl _
  | cons event log ih =>
    obtain ⟨m, hdoes, hruns⟩ := hruns
    exact hdoes.evolves.trans (ih hruns)

end Heap

/-! ## Realization -/

/-- The entry is one of the object that the ideal heap has. -/
inductive IdealObject.Describes : IdealObject F → HeapEntry F → Prop where
  /-- An array. -/
  | array {values : List Binary64} {attached : Option Buffer} {pins : Nat} :
      Describes ⟨.array values, attached, pins⟩ ⟨.array values, pins⟩
  /-- A text. -/
  | text {content : String} {attached : Option Buffer} {pins : Nat} :
      Describes ⟨.text content, attached, pins⟩ ⟨.text content, pins⟩
  /-- A function. -/
  | function {f : NativeFunction F} {attached : Option Buffer} {pins : Nat} :
      Describes ⟨.function f, attached, pins⟩ ⟨.function f, pins⟩
  /-- A view that is attached to a buffer. -/
  | attached {first buffer : Buffer} {pins : Nat} :
      Describes ⟨.view first, some buffer, pins⟩ ⟨.view (.ofBuffer buffer), pins⟩
  /-- A view that is detached. -/
  | detached {first : Buffer} {shape : ViewShape} {pins : Nat} :
      Describes ⟨.view first, none, pins⟩ ⟨.view ⟨none, shape⟩, pins⟩

namespace IdealObject.Describes

variable {object : IdealObject F} {e : HeapEntry F}

/-- A new object is described as what it was made as. -/
theorem of_made (made : Made F) : Describes ⟨made, made.attached, 0⟩ ⟨made.object, 0⟩ := by
  cases made with
  | array values => exact .array
  | text content => exact .text
  | function f => exact .function
  | view buffer => exact .attached

theorem pins_eq (h : object.Describes e) : e.pins = object.pins := by
  cases h <;> rfl

/-- Pins come and go without a change of the object. -/
theorem withPins (h : object.Describes e) (pins : Nat) :
    Describes { object with pins } { e with pins } := by
  cases h with
  | array => exact .array
  | text => exact .text
  | function => exact .function
  | attached => exact .attached
  | detached => exact .detached

/-- A view can be attached to another buffer. -/
theorem repoint {view : ArrayView} {pins : Nat} (h : object.Describes ⟨.view view, pins⟩)
    (buffer : Buffer) :
    Describes { object with attached := some buffer } ⟨.view (.ofBuffer buffer), pins⟩ := by
  cases h <;> exact .attached

/-- A view can be detached. -/
theorem retire {view : ArrayView} {pins : Nat} (h : object.Describes ⟨.view view, pins⟩) :
    Describes { object with attached := none } ⟨.view view.retire, pins⟩ := by
  cases h <;> exact .detached

/-- Nothing else can be detached. -/
theorem retire_of_ne (h : object.Describes e) (hother : ∀ view, e.object ≠ .view view) :
    Describes { object with attached := none } e := by
  cases h with
  | array => exact .array
  | text => exact .text
  | function => exact .function
  | attached => exact (hother _ rfl).elim
  | detached => exact .detached

end IdealObject.Describes

/-- The heap is one that the ideal heap describes. -/
structure Heap.Realizes (h : Heap F) (ideal : IdealHeap F) : Prop where
  /-- References do not come back to life. -/
  sound : h.table.Sound
  /-- No reference was handed out twice. -/
  nodup : ideal.handed.Nodup
  /-- What was handed out was handed out by the table. -/
  issued : ∀ r ∈ ideal.handed, h.table.Issued r
  /-- Each reference leads to what it stands for. -/
  objects : ∀ r, Option.Rel IdealObject.Describes (ideal.objects r) (h.entry? r)
  /-- The namespaces are the same. -/
  globals : ideal.globals = h.globals
  /-- The calls in progress are the same. -/
  scopes : ideal.scopes = h.scopes
  /-- The settings are the same. -/
  config : ideal.config = h.config
  /-- The numbers of allocations are the same. -/
  allocations : ideal.allocations = h.stats.allocations

namespace Heap.Realizes

variable {h h' : Heap F} {ideal : IdealHeap F}

/-- An empty heap realizes the empty ideal one. -/
theorem ofConfig (config : HeapConfig) :
    (Heap.ofConfig config : Heap F).Realizes (IdealHeap.ofConfig config) where
  sound := Table.sound_empty
  nodup := .nil
  issued := by simp [IdealHeap.ofConfig]
  objects _ := .none
  globals := rfl
  scopes := rfl
  config := rfl
  allocations := rfl

/-- A reference leads to an object and to its entry, or to nothing. -/
theorem objects_cases (hrealizes : h.Realizes ideal) (r : ObjRef) :
    (ideal.objects r = none ∧ h.entry? r = none) ∨
      ∃ object e, ideal.objects r = some object ∧ h.entry? r = some e ∧ object.Describes e := by
  have hobject := hrealizes.objects r
  generalize ideal.objects r = object at hobject ⊢
  generalize h.entry? r = found at hobject ⊢
  cases hobject with
  | none => exact Or.inl ⟨rfl, rfl⟩
  | some hdescribes => exact Or.inr ⟨_, _, rfl, rfl, hdescribes⟩

/-- Only the table and what roots its entries matter, beside settings and counters. -/
theorem of_table_eq (hrealizes : h.Realizes ideal) {globals : NameMap ObjRef}
    {scopes : List (List ObjRef)} (htable : h'.table = h.table) (hglobals : h'.globals = globals)
    (hscopes : h'.scopes = scopes) (hconfig : h'.config = h.config)
    (hallocations : h'.stats.allocations = h.stats.allocations) :
    h'.Realizes { ideal with globals, scopes } where
  sound := htable ▸ hrealizes.sound
  nodup := hrealizes.nodup
  issued r hr := htable ▸ hrealizes.issued r hr
  objects r := by
    unfold entry?
    rw [htable]
    exact hrealizes.objects r
  globals := hglobals.symm
  scopes := hscopes.symm
  config := hrealizes.config.trans hconfig.symm
  allocations := hrealizes.allocations.trans hallocations.symm

/-- Both keep the same objects. -/
theorem isRooted_eq (hrealizes : h.Realizes ideal) {r : ObjRef} {object : IdealObject F}
    {e : HeapEntry F} (hdescribes : object.Describes e) :
    ideal.isRooted r object = h.isRooted r e := by
  unfold IdealHeap.isRooted Heap.isRooted Heap.roots
  rw [hdescribes.pins_eq, hrealizes.globals, hrealizes.scopes]

/-- A collection gives up what the ideal heap gives up. -/
theorem collect (hrealizes : h.Realizes ideal) : h.collect.2.Realizes ideal.collect where
  sound := by
    rw [table_collect]
    exact hrealizes.sound.sweep _
  nodup := hrealizes.nodup
  issued r hr := by
    rw [table_collect]
    exact (hrealizes.issued r hr).sweep _
  objects r := by
    show Option.Rel _ ((ideal.objects r).filter (ideal.isRooted r)) (Heap.entry? h.collect.2 r)
    rw [entry?_collect]
    rcases hrealizes.objects_cases r with
      ⟨hobject, hentry⟩ | ⟨object, e, hobject, hentry, hdescribes⟩
    · rw [hobject, hentry]
      exact .none
    · rw [hobject, hentry]
      simp only [Option.filter, hrealizes.isRooted_eq hdescribes]
      split
      · exact .some hdescribes
      · exact .none
  globals := hrealizes.globals
  scopes := hrealizes.scopes
  config := hrealizes.config
  allocations := hrealizes.allocations

/-- Both are due for a collection at the same allocations. -/
theorem prepare (hrealizes : h.Realizes ideal) : h.prepare.Realizes ideal.prepare := by
  have hcounted : Realizes
      { h with stats := { h.stats with allocations := h.stats.allocations + 1 } }
      { ideal with allocations := ideal.allocations + 1 } :=
    { hrealizes with allocations := congrArg (· + 1) hrealizes.allocations }
  unfold Heap.prepare IdealHeap.prepare
  by_cases hdue : h.config.collectEvery > 0 ∧
      (h.stats.allocations + 1) % h.config.collectEvery = 0
  · have hdue' := hdue
    rw [← hrealizes.config, ← hrealizes.allocations] at hdue'
    simp only [if_pos hdue, if_pos hdue']
    exact hcounted.collect
  · have hdue' := hdue
    rw [← hrealizes.config, ← hrealizes.allocations] at hdue'
    simp only [if_neg hdue, if_neg hdue']
    exact hcounted

/-- **A new reference stands for what was put in**, and for nothing before. -/
theorem put (hrealizes : h.Realizes ideal) {made : Made F} {r : ObjRef}
    {table : Table (HeapEntry F)} (hinsert : h.table.insert ⟨made.object, 0⟩ = (r, table))
    (room : table.Addressable) : ({ h with table }.noteLocal r).Realizes (ideal.put made r) := by
  have hs := hrealizes.sound
  have hnew : (h.table.insert ⟨made.object, 0⟩).1 = r := congrArg Prod.fst hinsert
  have htable : (h.table.insert ⟨made.object, 0⟩).2 = table := congrArg Prod.snd hinsert
  rw [← htable] at room
  have hfresh := hs.not_issued_insert room
  refine ⟨?_, ?_, ?_, ?_, ?_, ?_, ?_, ?_⟩
  · rw [table_noteLocal, ← htable]
    exact hs.insert room
  · refine List.nodup_cons.mpr ⟨fun hmem => ?_, hrealizes.nodup⟩
    rw [hnew] at hfresh
    exact hfresh (hrealizes.issued r hmem)
  · intro q hq
    rw [table_noteLocal, ← htable]
    rcases List.mem_cons.mp hq with rfl | hq
    · rw [← hnew]
      exact Table.issued_of_get? (hs.get?_insert_self room)
    · exact hs.issued_insert (hrealizes.issued q hq)
  · intro q
    unfold entry?
    rw [table_noteLocal, ← htable]
    show Option.Rel _ (if q = r then _ else _) _
    by_cases hsame : q = r
    · rw [if_pos hsame, hsame, ← hnew, hs.get?_insert_self room]
      exact .some (.of_made made)
    · rw [← hnew] at hsame
      rw [← hnew, if_neg hsame, hs.get?_insert_of_ne room hsame]
      exact hrealizes.objects q
  · rw [globals_noteLocal]
    exact hrealizes.globals
  · unfold IdealHeap.put noteLocal
    rw [hrealizes.scopes]
    cases hscopes : h.scopes with
    | nil => rfl
    | cons innermost outer => rfl
  · unfold noteLocal
    split <;> exact hrealizes.config
  · unfold noteLocal
    split <;> exact hrealizes.allocations

/-- A change of an entry in place is a change of what its reference stands for. -/
theorem change (hrealizes : h.Realizes ideal) {r : ObjRef} {f : IdealObject F → IdealObject F}
    {g : HeapEntry F → HeapEntry F} {table : Table (HeapEntry F)}
    (htable : table = h.table.modify r g)
    (hchange : ∀ object e, h.entry? r = some e → object.Describes e → (f object).Describes (g e)) :
    ({ h with table } : Heap F).Realizes (ideal.change r f) where
  sound := htable ▸ hrealizes.sound.modify r g
  nodup := hrealizes.nodup
  issued q hq := htable ▸ (hrealizes.issued q hq).modify r g
  objects q := by
    unfold entry?
    show Option.Rel _ (if q = r then _ else _) (table.get? q)
    rw [htable, Table.get?_modify]
    by_cases hsame : q = r
    · rw [if_pos hsame, if_pos hsame]
      change Option.Rel _ _ (Option.map g (h.entry? r))
      rcases hrealizes.objects_cases r with
        ⟨hobject, hentry⟩ | ⟨object, e, hobject, hentry, hdescribes⟩
      · rw [hobject, hentry]
        exact .none
      · rw [hobject, hentry]
        exact .some (hchange object e hentry hdescribes)
    · rw [if_neg hsame, if_neg hsame]
      exact hrealizes.objects q
  globals := hrealizes.globals
  scopes := hrealizes.scopes
  config := hrealizes.config
  allocations := hrealizes.allocations

/-- A view is detached, and nothing else is. -/
theorem retire (hrealizes : h.Realizes ideal) (r : ObjRef) :
    (h.retire r).Realizes (ideal.change r fun object => { object with attached := none }) := by
  rcases h.retire_cases r with ⟨view, pins, hentry, -⟩ | ⟨hother, hsame⟩
  · have hdetached : (h.setObject r (.view view.retire)).Realizes
        (ideal.change r fun object => { object with attached := none }) :=
      hrealizes.change rfl fun object e he hdescribes => by
        cases hentry.symm.trans he
        exact hdescribes.retire
    unfold Heap.retire
    rw [hentry]
    exact { hdetached with }
  · rw [hsame]
    refine { hrealizes with objects := fun q => ?_ }
    show Option.Rel _ (if q = r then _ else _) _
    by_cases hq : q = r
    · subst hq
      rw [if_pos rfl]
      rcases hrealizes.objects_cases q with
        ⟨hobject, hentry⟩ | ⟨object, e, hobject, hentry, hdescribes⟩
      · rw [hobject, hentry]
        exact .none
      · rw [hobject, hentry]
        exact .some (hdescribes.retire_of_ne (hother e hentry))
    · rw [if_neg hq]
      exact hrealizes.objects q

/-- **Each event keeps the heap in step with the ideal one.** -/
theorem apply (hrealizes : h.Realizes ideal) {event : HeapEvent F} (hdoes : h.Does event h')
    (room : h'.table.Addressable) : h'.Realizes (ideal.apply event) := by
  cases event with
  | alloc made r =>
    obtain ⟨rfl, rfl⟩ := Prod.mk.inj hdoes
    rw [table_noteLocal] at room
    exact hrealizes.prepare.put rfl room
  | define name value =>
    cases hdoes
    exact hrealizes.of_table_eq rfl (by rw [hrealizes.globals]; rfl) hrealizes.scopes.symm rfl rfl
  | undefine name =>
    cases hdoes
    exact hrealizes.of_table_eq rfl (by rw [hrealizes.globals]; rfl) hrealizes.scopes.symm rfl rfl
  | collect => exact hdoes ▸ hrealizes.collect
  | pin r =>
    cases hdoes
    exact hrealizes.change rfl fun object e _ hdescribes => by
      rw [← hdescribes.pins_eq]
      exact hdescribes.withPins _
  | unpin r =>
    cases hdoes
    exact hrealizes.change rfl fun object e _ hdescribes => by
      rw [← hdescribes.pins_eq]
      exact hdescribes.withPins _
  | repoint r buffer =>
    obtain ⟨⟨view, pins, hentry⟩, rfl⟩ := repoint_eq_ok hdoes
    refine hrealizes.change rfl fun object e he hdescribes => ?_
    cases hentry.symm.trans he
    exact hdescribes.repoint buffer
  | retire r => exact hdoes ▸ hrealizes.retire r
  | enter =>
    cases hdoes
    exact hrealizes.of_table_eq rfl hrealizes.globals.symm (by rw [hrealizes.scopes]; rfl) rfl rfl
  | leave =>
    cases hdoes
    exact hrealizes.of_table_eq rfl hrealizes.globals.symm (by rw [hrealizes.scopes]; rfl) rfl rfl

/-- **Every run keeps the heap in step with the ideal one.** -/
theorem replay (hrealizes : h.Realizes ideal) {log : List (HeapEvent F)} (hruns : h.Runs log h')
    (room : h'.table.Addressable) : h'.Realizes (ideal.replay log) := by
  induction log generalizing h ideal with
  | nil => exact hruns ▸ hrealizes
  | cons event log ih =>
    obtain ⟨m, hdoes, hruns⟩ := hruns
    exact ih (hrealizes.apply hdoes (hruns.evolves.addressable room)) hruns

end Heap.Realizes

/-! ## What is seen through references -/

/-- Through the reference the object is seen for what it is. -/
structure Heap.Presents (h : Heap F) (r : ObjRef) (object : IdealObject F) : Prop where
  /-- Its kind is that of what it was made as. -/
  kind : h.kind? r = some object.made.kind
  /-- Its pins are counted. -/
  pinCount : h.pinCount? r = some object.pins
  /-- It reads as what it was made as, or as what the buffer shows to which it is attached. -/
  read : ∀ m, h.read m r = object.reads m
  /-- A function is the one that was made. -/
  function : ∀ f, object.made = .function f → h.function r = .ok f
  /-- A text is the one that was made. -/
  text : ∀ content, object.made = .text content → h.text? r = some content

/-- The reference is stale: whoever looks through it is told so, and nothing is changed through
it. -/
structure Heap.Stale (h : Heap F) (r : ObjRef) : Prop where
  /-- There is no kind. -/
  kind : h.kind? r = none
  /-- There is no number of pins. -/
  pinCount : h.pinCount? r = none
  /-- It cannot be read. -/
  read : ∀ m, h.read m r = .error (.staleReference r.text)
  /-- There is no text. -/
  text : h.text? r = none
  /-- It cannot be attached to a buffer. -/
  repoint : ∀ buffer, h.repoint r buffer = .error (.staleReference r.text)
  /-- It cannot be called. -/
  call : ∀ {ω : Type} (run : Runner F ω) (args : StateViews ObjRef) (w : HeapWorld F ω),
    w.heap = h → (HeapWorld.call run r args).start w = (.error (.error (.staleReference r.text)), w)
  /-- It cannot be passed to a function: the call tells of the first argument that is stale. -/
  argument : ∀ {ω : Type} (run : Runner F ω) (f : ObjRef) (args : StateViews ObjRef)
    (w : HeapWorld F ω) (function : NativeFunction F), w.heap = h → h.function f = .ok function →
    r ∈ args.toList → ∃ arg ∈ args.toList, h.isLive arg = false ∧
      (HeapWorld.call run f args).start w = (.error (.error (.staleReference arg.text)), w)
  /-- It cannot be pinned. -/
  pin : h.pin r = h
  /-- No pin can be undone. -/
  unpin : h.unpin r = h
  /-- Nothing can be detached. -/
  retire : h.retire r = h

namespace Heap

variable {h h' : Heap F} {ideal : IdealHeap F} {r : ObjRef}

/-- An object that is described is seen for what it is. -/
theorem presents_of_describes {object : IdealObject F} {e : HeapEntry F}
    (hentry : h.entry? r = some e) (hdescribes : object.Describes e) : h.Presents r object := by
  cases hdescribes with
  | function =>
    refine ⟨by simp [kind?, hentry, Made.kind, Object.kind], by simp [pinCount?, hentry],
      fun m => ?_, ?_, by rintro content ⟨⟩⟩
    · simp only [Heap.read, entry, hentry]
      rfl
    · rintro f ⟨⟩
      simp only [Heap.function, entry, hentry]
      rfl
  | text =>
    refine ⟨by simp [kind?, hentry, Made.kind, Object.kind], by simp [pinCount?, hentry],
      fun m => ?_, by rintro f ⟨⟩, ?_⟩
    · simp only [Heap.read, entry, hentry]
      rfl
    · rintro content ⟨⟩
      simp only [text?, hentry]
  | _ =>
    refine ⟨by simp [kind?, hentry, Made.kind, Object.kind], by simp [pinCount?, hentry],
      fun m => ?_, by rintro f ⟨⟩, by rintro content ⟨⟩⟩
    simp only [Heap.read, entry, hentry]
    rfl

/-- What leads to nothing is stale. -/
theorem stale_of_eq_none (hnone : h.entry? r = none) : h.Stale r := by
  have hfunction : h.function r = .error (.staleReference r.text) := by
    simp only [Heap.function, entry, hnone]
    rfl
  have hdead : h.isLive r = false := by simp [isLive, hnone]
  refine ⟨by simp [kind?, hnone], by simp [pinCount?, hnone], fun m => ?_, ?_,
    fun buffer => ?_, ?_, ?_, ?_, ?_, ?_⟩
  · simp only [Heap.read, entry, hnone]
    rfl
  · simp only [text?, hnone]
  · simp only [Heap.repoint, entry, hnone]
    rfl
  · rintro ω run args w rfl
    exact HeapWorld.start_call_of_error run args hfunction
  · rintro ω run f args w function rfl hf hr
    rcases HeapWorld.call_cases run f args w with
      ⟨e, hno, -⟩ | ⟨arg, harg, hgone, hcall⟩ | ⟨-, -, hargs⟩
    · cases hf.symm.trans hno
    · exact ⟨arg, harg, hgone, hcall⟩
    · rw [hargs r hr] at hdead
      cases hdead
  · unfold Heap.pin
    rw [Table.modify_of_eq_none hnone]
  · unfold Heap.unpin
    rw [Table.modify_of_eq_none hnone]
  · unfold Heap.retire
    rw [hnone]

/-- **Whoever looks at the heap sees the ideal one.** -/
structure Agrees (h : Heap F) (ideal : IdealHeap F) : Prop where
  /-- No reference is handed out twice. -/
  once : ideal.handed.Nodup
  /-- Names lead to what they are bound to, as long as that is there. -/
  lookup : ∀ name, h.lookup name =
    (ideal.globals.find? name).filter fun r => (ideal.objects r).isSome
  /-- Until it is collected, an object is seen for what it is. -/
  present : ∀ {r object}, ideal.objects r = some object → h.Presents r object
  /-- From then on its reference is stale, whatever is done to the heap. -/
  gone : ∀ {r}, r ∈ ideal.handed → ideal.objects r = none → ∀ {log h'}, h.Runs log h' →
    h'.table.Addressable → h'.Stale r

/-- What leads to nothing and was handed out leads to nothing ever after. -/
theorem Runs.entry?_eq_none {log : List (HeapEvent F)} (hruns : h.Runs log h')
    (room : h'.table.Addressable) (hs : h.table.Sound) (hissued : h.table.Issued r)
    (hnone : h.entry? r = none) : h'.entry? r = none := by
  cases hlater : h'.entry? r with
  | none => rfl
  | some e =>
    obtain ⟨old, hold, -⟩ := hruns.evolves.inherited room hs hissued hlater
    cases hnone.symm.trans hold

/-- **A heap in step with an ideal one is seen as that.** -/
theorem Realizes.agrees (hrealizes : h.Realizes ideal) : h.Agrees ideal where
  once := hrealizes.nodup
  lookup name := by
    unfold Heap.lookup
    rw [hrealizes.globals]
    refine congrArg (h.globals.find? name).filter (funext fun r => ?_)
    unfold isLive
    rcases hrealizes.objects_cases r with ⟨hobject, hentry⟩ | ⟨object, e, hobject, hentry, -⟩
    · rw [hobject, hentry]
      rfl
    · rw [hobject, hentry]
      rfl
  present := by
    intro r object hobject
    rcases hrealizes.objects_cases r with ⟨hnone, -⟩ | ⟨object', e, hsome, hentry, hdescribes⟩
    · cases hobject.symm.trans hnone
    · cases hobject.symm.trans hsome
      exact presents_of_describes hentry hdescribes
  gone := by
    intro r hr hobject log h' hruns room
    rcases hrealizes.objects_cases r with ⟨-, hentry⟩ | ⟨object, e, hsome, -, -⟩
    · exact stale_of_eq_none
        (hruns.entry?_eq_none room hrealizes.sound (hrealizes.issued r hr) hentry)
    · cases hobject.symm.trans hsome

end Heap

end CallbackBridge
