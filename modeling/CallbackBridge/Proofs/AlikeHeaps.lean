/-
# Heaps that show the same

Two heaps whose views alias different memory are alike if they have the same objects, but for
where views point, and each view of the one shows in its memory what the view in the same place
of the other one shows there (`Heap.Alike`).  Whatever is done to both leaves them alike, and gives
the same.  There may be pending views that do not show the same; nothing must read them until they
have been pointed elsewhere.

Where the two aliased memories are at different addresses, views that were made of them differ
until they are retired.  `Heap.Alike` has a list of the references to such views, and what is not
behind one of them is equal.  So if all of them are retired, the heaps are equal
(`Heap.Alike.eq_of_retired`).

* `Table.Matches` says that two tables have related objects in the same places.
* `HeapEntry.Alike` says when two objects show the same.
-/
import CallbackBridge.Heap.Program
import CallbackBridge.Proofs.HeapSteps
import Mathlib.Data.List.Forall2
namespace CallbackBridge

/-! ## Tables with related objects -/

/-- The reference names the place with this number, in this generation. -/
def ObjRef.At (r : ObjRef) (place : Nat) (gen : UInt32) : Prop :=
  r.slot.toNat = place ∧ r.generation = gen

/-- Only one reference names a place in a generation. -/
theorem ObjRef.At.eq {r q : ObjRef} (h : q.At r.slot.toNat r.generation) : q = r := by
  obtain ⟨slot, gen⟩ := r
  obtain ⟨slot', gen'⟩ := q
  obtain ⟨hslot, hgen⟩ := h
  cases UInt32.toNat_inj.mp hslot
  cases hgen
  rfl

/-- Two places of the same generation that are both empty, or hold related objects. -/
structure Slot.Matches {α : Type} (rel : UInt32 → α → α → Prop) (slot slot' : Slot α) : Prop where
  /-- They have been freed as often. -/
  generation : slot.generation = slot'.generation
  /-- The objects are related, if there are any. -/
  data : Option.Rel (rel slot.generation) slot.data slot'.data

theorem Slot.Matches.imp {α : Type} {rel rel' : UInt32 → α → α → Prop} {slot slot' : Slot α}
    (h : slot.Matches rel slot')
    (hrel : ∀ gen v v', slot = ⟨gen, some v⟩ → slot' = ⟨gen, some v'⟩ → rel gen v v' →
      rel' gen v v') : slot.Matches rel' slot' := by
  obtain ⟨gen, data⟩ := slot
  obtain ⟨gen', data'⟩ := slot'
  obtain ⟨hgen, hdata⟩ := h
  cases hgen
  refine ⟨rfl, ?_⟩
  cases hdata with
  | none => exact .none
  | some hv => exact .some (hrel _ _ _ rfl rfl hv)

namespace Table

variable {α : Type} {rel rel' : Nat → UInt32 → α → α → Prop} {t t' : Table α}

/-- What is in a place is behind the reference that names it. -/
theorem get?_of_at {r : ObjRef} {i : Nat} {gen : UInt32} {data : Option α} (hr : r.At i gen)
    (hslot : t.slots[i]? = some ⟨gen, data⟩) : t.get? r = data := by
  obtain ⟨rfl, rfl⟩ := hr
  rw [get?_of_place hslot, if_pos rfl]

/-- Places still match after one of them was filled with related objects. -/
theorem matches_set {places places' : List (Slot α)} {place : Nat} {gen : UInt32} {v v' : α}
    (hv : rel place gen v v')
    (hother : ∀ {i slot slot'}, place ≠ i → places[i]? = some slot →
      places'[i]? = some slot' → slot.Matches (rel i) slot')
    {i : Nat} {slot slot' : Slot α}
    (hslot : (places.set place ⟨gen, some v⟩)[i]? = some slot)
    (hslot' : (places'.set place ⟨gen, some v'⟩)[i]? = some slot') :
    slot.Matches (rel i) slot' := by
  by_cases hi : place = i
  · subst hi
    rw [List.getElem?_set_self'] at hslot hslot'
    obtain ⟨-, -, rfl⟩ := Option.map_eq_some_iff.mp hslot
    obtain ⟨-, -, rfl⟩ := Option.map_eq_some_iff.mp hslot'
    exact ⟨rfl, .some hv⟩
  · rw [List.getElem?_set_ne hi] at hslot hslot'
    exact hother hi hslot hslot'

/-- Two tables with related objects in the same places. -/
structure Matches (rel : Nat → UInt32 → α → α → Prop) (t t' : Table α) : Prop where
  /-- The same places are free. -/
  free : t.free = t'.free
  /-- There are as many objects. -/
  live : t.live = t'.live
  /-- There are as many places. -/
  length : t.slots.length = t'.slots.length
  /-- Places of the same number match. -/
  slots : ∀ {i : Nat} {slot slot' : Slot α}, t.slots[i]? = some slot → t'.slots[i]? = some slot' →
    slot.Matches (rel i) slot'

/-- Two places of the same number that match. -/
def NumberedMatch (rel : Nat → UInt32 → α → α → Prop) (entry entry' : Slot α × Nat) : Prop :=
  entry.2 = entry'.2 ∧ entry.1.Matches (rel entry.2) entry'.1

namespace Matches

/-- Of related objects it is known which places they are in. -/
theorem imp (h : t.Matches rel t')
    (hrel : ∀ i gen v v', t.slots[i]? = some ⟨gen, some v⟩ → t'.slots[i]? = some ⟨gen, some v'⟩ →
      rel i gen v v' → rel' i gen v v') : t.Matches rel' t' := by
  refine ⟨h.free, h.live, h.length, fun {i slot slot'} hslot hslot' => ?_⟩
  refine (h.slots hslot hslot').imp fun gen v v' hv hv' => ?_
  subst hv
  subst hv'
  exact hrel i gen v v' hslot hslot'

theorem mono (h : t.Matches rel t') (hrel : ∀ i gen v v', rel i gen v v' → rel' i gen v v') :
    t.Matches rel' t' :=
  h.imp fun i gen v v' _ _ => hrel i gen v v'

/-- At each number there are two places that match, or none. -/
theorem cases_slot (h : t.Matches rel t') (i : Nat) :
    (t.slots[i]? = none ∧ t'.slots[i]? = none) ∨
      ∃ slot slot', t.slots[i]? = some slot ∧ t'.slots[i]? = some slot' ∧
        slot.Matches (rel i) slot' := by
  by_cases hi : i < t.slots.length
  · have hi' : i < t'.slots.length := h.length ▸ hi
    have hslot := List.getElem?_eq_getElem hi
    have hslot' := List.getElem?_eq_getElem hi'
    exact Or.inr ⟨_, _, hslot, hslot', h.slots hslot hslot'⟩
  · have hi' : ¬ i < t'.slots.length := h.length ▸ hi
    exact Or.inl ⟨List.getElem?_eq_none (by omega), List.getElem?_eq_none (by omega)⟩

/-- The same references lead to objects, and to related ones. -/
theorem cases_get? (h : t.Matches rel t') (r : ObjRef) :
    (t.get? r = none ∧ t'.get? r = none) ∨
      ∃ v v', t.get? r = some v ∧ t'.get? r = some v' ∧ rel r.slot.toNat r.generation v v' := by
  rcases h.cases_slot r.slot.toNat with
    ⟨hnone, hnone'⟩ | ⟨⟨gen, data⟩, ⟨gen', data'⟩, hslot, hslot', hgen, hdata⟩
  · refine Or.inl ⟨?_, ?_⟩
    · simp only [Table.get?, hnone]
    · simp only [Table.get?, hnone']
  · cases hgen
    rw [get?_of_place hslot, get?_of_place hslot']
    by_cases hsame : gen = r.generation
    · subst hsame
      rw [if_pos rfl, if_pos rfl]
      cases hdata with
      | none => exact Or.inl ⟨rfl, rfl⟩
      | some hv => exact Or.inr ⟨_, _, rfl, rfl, hv⟩
    · rw [if_neg hsame, if_neg hsame]
      exact Or.inl ⟨rfl, rfl⟩

/-- Related objects are put into the same place.  The new reference names it, unless references
have run out. -/
theorem insert (h : t.Matches rel t') {v v' : α}
    (hv : ∀ i gen, ((t.insert v).2.Addressable → (t.insert v).1.At i gen) → rel i gen v v') :
    (t.insert v).1 = (t'.insert v').1 ∧ (t.insert v).2.Matches rel (t'.insert v').2 := by
  unfold Table.insert at hv ⊢
  rw [← h.free]
  cases hfree : t.free with
  | nil =>
    rw [hfree] at hv
    rw [← h.length]
    refine ⟨rfl, rfl, congrArg (· + 1) h.live, ?_, fun {i slot slot'} hslot hslot' => ?_⟩
    · rw [List.length_append, List.length_append, h.length]
      rfl
    · dsimp only at hslot hslot'
      by_cases hi : i < t.slots.length
      · rw [List.getElem?_append_left hi] at hslot
        rw [List.getElem?_append_left (h.length ▸ hi)] at hslot'
        exact h.slots hslot hslot'
      · have hlast : i = t.slots.length := by
          have hlt := (List.getElem?_eq_some_iff.mp hslot).1
          rw [List.length_append, List.length_singleton] at hlt
          omega
        rw [hlast, List.getElem?_concat_length] at hslot
        rw [hlast, h.length, List.getElem?_concat_length] at hslot'
        cases hslot
        cases hslot'
        refine ⟨rfl, .some (hv i 0 fun room => ⟨?_, rfl⟩)⟩
        have hroom : t.slots.length + 1 ≤ UInt32.size := by
          simpa only [Table.Addressable, List.length_append, List.length_singleton] using room
        rw [hlast]
        exact toNat_ofNat_of_lt hroom
  | cons place free =>
    rw [hfree] at hv
    dsimp only at hv ⊢
    have hgen : (t.slots[place.toNat]?).map Slot.generation =
        (t'.slots[place.toNat]?).map Slot.generation := by
      rcases h.cases_slot place.toNat with ⟨hnone, hnone'⟩ | ⟨slot, slot', hslot, hslot', hmatch⟩
      · rw [hnone, hnone']
      · rw [hslot, hslot']
        exact congrArg some hmatch.generation
    rw [← hgen]
    refine ⟨rfl, rfl, congrArg (· + 1) h.live, ?_,
      matches_set (hv _ _ fun _ => ⟨rfl, rfl⟩) fun _ => h.slots⟩
    rw [List.length_set, List.length_set, h.length]

/-- Objects behind the same reference are changed to related ones, and the objects in other
places are related as they were. -/
theorem modify (h : t.Matches rel t') {r : ObjRef} {f f' : α → α}
    (hf : ∀ v v', rel r.slot.toNat r.generation v v' →
      rel' r.slot.toNat r.generation (f v) (f' v'))
    (hrest : ∀ i gen v v', ¬ r.At i gen → rel i gen v v' → rel' i gen v v') :
    (t.modify r f).Matches rel' (t'.modify r f') := by
  have hother : ∀ {i slot slot'}, t.slots[i]? = some slot → t'.slots[i]? = some slot' →
      (t.get? r = none ∨ r.slot.toNat ≠ i) → slot.Matches (rel' i) slot' := by
    intro i slot slot' hslot hslot' hplace
    refine (h.slots hslot hslot').imp fun gen v v' hv _ => hrest i gen v v' fun hr => ?_
    subst hv
    rcases hplace with hnone | hne
    · rw [get?_of_at hr hslot] at hnone
      cases hnone
    · exact hne hr.1
  unfold Table.modify
  rcases h.cases_get? r with ⟨hnone, hnone'⟩ | ⟨v, v', hv, hv', hrel⟩
  · rw [hnone, hnone']
    exact ⟨h.free, h.live, h.length, fun hs hs' => hother hs hs' (Or.inl hnone)⟩
  · rw [hv, hv']
    refine ⟨h.free, h.live, ?_, matches_set (hf v v' hrel) fun hi hs hs' =>
      hother hs hs' (Or.inr hi)⟩
    rw [List.length_set, List.length_set, h.length]

/-- The numbered places of the tables match one by one. -/
theorem forall₂_zipIdx (h : t.Matches rel t') :
    List.Forall₂ (NumberedMatch rel) t.slots.zipIdx t'.slots.zipIdx := by
  refine List.forall₂_iff_get.mpr ⟨?_, fun i hi hi' => ?_⟩
  · rw [List.length_zipIdx, List.length_zipIdx, h.length]
  · rw [List.length_zipIdx] at hi hi'
    have hmatch := h.slots (List.getElem?_eq_getElem hi) (List.getElem?_eq_getElem hi')
    simpa [NumberedMatch] using hmatch

/-- Related objects are swept alike, if they are to be kept alike. -/
theorem sweep (h : t.Matches rel t') {keep keep' : ObjRef → α → Bool}
    (hkeep : ∀ {i gen v v'}, rel i gen v v' → ∀ r, keep r v = keep' r v') :
    (t.sweep keep).1 = (t'.sweep keep').1 ∧
      (t.sweep keep).2.Matches rel (t'.sweep keep').2 := by
  have hdooms : ∀ {i : Nat} {slot slot' : Slot α}, slot.Matches (rel i) slot' →
      dooms keep i slot = dooms keep' i slot' := by
    rintro i ⟨gen, data⟩ ⟨gen', data'⟩ ⟨hgen, hdata⟩
    cases hgen
    cases hdata with
    | none => rfl
    | some hv => exact congrArg (!·) (hkeep hv _)
  -- so the same places are emptied, and the same of them can be taken again
  have hdoomed : List.Forall₂ (NumberedMatch rel)
      (t.slots.zipIdx.filter fun entry => dooms keep entry.2 entry.1)
      (t'.slots.zipIdx.filter fun entry => dooms keep' entry.2 entry.1) := by
    refine List.rel_filter (fun entry entry' hmatch => ?_) h.forall₂_zipIdx
    dsimp only
    rw [hdooms hmatch.2, hmatch.1]
  have hrecyclable : List.Forall₂ (NumberedMatch rel)
      ((t.slots.zipIdx.filter fun entry => dooms keep entry.2 entry.1).filter
        fun entry => (vacate entry.1).generation ≠ 0)
      ((t'.slots.zipIdx.filter fun entry => dooms keep' entry.2 entry.1).filter
        fun entry => (vacate entry.1).generation ≠ 0) := by
    refine List.rel_filter (fun entry entry' hmatch => ?_) hdoomed
    have hgen : (vacate entry.1).generation = (vacate entry'.1).generation :=
      congrArg (· + 1) hmatch.2.generation
    simp only [hgen]
  have hplaces : List.Forall₂ Eq
      (List.map (fun entry : Slot α × Nat => UInt32.ofNat entry.2) _)
      (List.map (fun entry : Slot α × Nat => UInt32.ofNat entry.2) _) :=
    List.rel_map (fun entry entry' hmatch => congrArg UInt32.ofNat hmatch.1) hrecyclable
  rw [List.forall₂_eq_eq_eq] at hplaces
  refine ⟨hdoomed.length_eq, ?_, ?_, ?_, fun {i slot slot'} hslot hslot' => ?_⟩
  · show _ ++ t.free = _ ++ t'.free
    rw [hplaces, h.free]
  · show t.live - _ = t'.live - _
    rw [h.live, hdoomed.length_eq]
  · rw [length_sweep, length_sweep, h.length]
  · rw [getElem?_sweep] at hslot hslot'
    obtain ⟨old, hold, rfl⟩ := Option.map_eq_some_iff.mp hslot
    obtain ⟨old', hold', rfl⟩ := Option.map_eq_some_iff.mp hslot'
    have hmatch := h.slots hold hold'
    rw [← hdooms hmatch]
    split
    · exact ⟨congrArg (· + 1) hmatch.generation, .none⟩
    · exact hmatch

end Matches

end Table

/-! ## Objects and buffers that show the same -/

variable {F : Type} {m m' : Memory} {moved unread : Prop}

/-- Two objects of which user code is shown the same: views of the same shape, each of which shows
in its memory what the other one shows there, or twice the same object that is no view.  Views that
are left unread need not show the same. -/
inductive Object.Alike (m m' : Memory) (unread : Prop) : Object F → Object F → Prop where
  /-- Views of the same shape, on the same elements. -/
  | view {v v' : ArrayView} (hshape : v.shape = v'.shape)
    (hread : unread ∨ v.read m = v'.read m') : Alike m m' unread (.view v) (.view v')
  /-- An array is shown as it is. -/
  | array (values : List Binary64) : Alike m m' unread (.array values) (.array values)
  /-- A function is shown as it is. -/
  | function (f : NativeFunction F) : Alike m m' unread (.function f) (.function f)
  /-- A text is shown as it is. -/
  | text (text : String) : Alike m m' unread (.text text) (.text text)

theorem Object.Alike.mono {unread' : Prop} {object object' : Object F}
    (h : object.Alike m m' unread object') (hunread : unread → unread') :
    object.Alike m m' unread' object' := by
  cases h with
  | view hshape hread => exact .view hshape (hread.imp_left hunread)
  | array values => exact .array values
  | function f => exact .function f
  | text text => exact .text text

/-- Two objects that are shown alike, with as many pins; they may differ only if they are
apart. -/
structure HeapEntry.Alike (m m' : Memory) (unread apart : Prop) (e e' : HeapEntry F) : Prop where
  /-- User code is shown the same. -/
  object : e.object.Alike m m' unread e'.object
  /-- There are as many pins. -/
  pins : e.pins = e'.pins
  /-- What is not apart is equal. -/
  eq : apart ∨ e = e'

theorem HeapEntry.Alike.mono {apart apart' unread' : Prop} {e e' : HeapEntry F}
    (h : e.Alike m m' unread apart e') (hunread : unread → unread') (hapart : apart → apart') :
    e.Alike m m' unread' apart' e' :=
  ⟨h.object.mono hunread, h.pins, h.eq.imp_left hapart⟩

/-- Two windows of the same shape onto the same elements; if nothing has moved, they are at the
same address. -/
structure Buffer.Alike (m m' : Memory) (moved : Prop) (b b' : Buffer) : Prop where
  /-- They were passed as the same argument. -/
  role : b.role = b'.role
  /-- They have the same length. -/
  len : b.len = b'.len
  /-- They show the same. -/
  values : b.values m = b'.values m'
  /-- They are at the same address if nothing has moved. -/
  region : moved ∨ b.region = b'.region

/-- Views of such windows are shown alike. -/
theorem Buffer.Alike.view {b b' : Buffer} (h : b.Alike m m' moved b') :
    Object.Alike (F := F) m m' False (.view (.ofBuffer b)) (.view (.ofBuffer b')) := by
  refine .view ?_ (Or.inr (congrArg Except.ok h.values))
  unfold ArrayView.ofBuffer Buffer.shape
  rw [h.role, h.len]

/-- If nothing has moved, the windows are the same one. -/
theorem Buffer.Alike.moved_or_eq {b b' : Buffer} (h : b.Alike m m' moved b') : moved ∨ b = b' := by
  refine h.region.imp_right fun hregion => ?_
  obtain ⟨role, region, len⟩ := b
  obtain ⟨role', region', len'⟩ := b'
  cases h.role
  cases h.len
  cases hregion
  rfl

/-! ## Heaps that show the same -/

/-- Nothing reads what is in the place: all references that name it are pending. -/
def ObjRef.Unread (pending : List ObjRef) (i : Nat) (gen : UInt32) : Prop :=
  ∀ r : ObjRef, r.At i gen → r ∈ pending

/-- What is in the place may be apart: something has moved, and one of the given views is there.
Where references have run out, nothing is known. -/
def Table.Apart {α : Type} (moved : Prop) (views : List ObjRef) (t : Table α) (i : Nat)
    (gen : UInt32) : Prop :=
  moved ∧ (t.Addressable → ∃ r ∈ views, r.At i gen)

theorem Table.Apart.mono {α : Type} {views views' : List ObjRef} {t t' : Table α} {i : Nat}
    {gen : UInt32} (h : t.Apart moved views i gen) (hroom : t'.Addressable → t.Addressable)
    (hviews : ∀ r ∈ views, r.At i gen → r ∈ views') : t'.Apart moved views' i gen := by
  refine ⟨h.1, fun room => ?_⟩
  obtain ⟨r, hr, hplace⟩ := h.2 (hroom room)
  exact ⟨r, hviews r hr hplace, hplace⟩

/-- Two heaps that show the same, each in its memory, but for the pending views, and are equal but
for the given views. -/
structure Heap.Alike (m m' : Memory) (moved : Prop) (pending views : List ObjRef)
    (h h' : Heap F) : Prop where
  /-- The same references lead to objects that are shown alike. -/
  table : h.table.Matches (fun i gen => HeapEntry.Alike m m' (ObjRef.Unread pending i gen)
    (h.table.Apart moved views i gen)) h'.table
  /-- The same names are bound, and to the same. -/
  globals : h.globals = h'.globals
  /-- The same was allocated in the calls in progress. -/
  scopes : h.scopes = h'.scopes
  /-- The settings are the same. -/
  config : h.config = h'.config
  /-- The counters are the same. -/
  stats : h.stats = h'.stats

namespace Heap.Alike

variable {pending pending' views views' : List ObjRef} {h h' : Heap F}

theorem mono (halike : h.Alike m m' moved pending views h') (hviews : views ⊆ views') :
    h.Alike m m' moved pending views' h' :=
  ⟨halike.table.mono fun _ _ _ _ he => he.mono id fun hapart =>
      hapart.mono id fun _ hr _ => hviews hr,
    halike.globals, halike.scopes, halike.config, halike.stats⟩

/-! ### Looking at objects -/

theorem cases_entry? (halike : h.Alike m m' moved pending views h') (r : ObjRef) :
    (h.entry? r = none ∧ h'.entry? r = none) ∨
      ∃ e e', h.entry? r = some e ∧ h'.entry? r = some e' ∧
        e.Alike m m' (r ∈ pending) (h.table.Apart moved views r.slot.toNat r.generation) e' := by
  refine (halike.table.cases_get? r).imp_right ?_
  rintro ⟨e, e', he, he', hentry⟩
  exact ⟨e, e', he, he', hentry.mono (fun hunread => hunread r ⟨rfl, rfl⟩) id⟩

theorem isLive (halike : h.Alike m m' moved pending views h') (r : ObjRef) :
    h.isLive r = h'.isLive r := by
  unfold Heap.isLive
  rcases halike.cases_entry? r with ⟨hnone, hnone'⟩ | ⟨e, e', he, he', -⟩
  · rw [hnone, hnone']
  · rw [he, he']
    rfl

/-- User code gets to see the same of an object. -/
theorem inspect (halike : h.Alike m m' moved pending views h') (r : ObjRef) :
    h.inspect r = h'.inspect r := by
  unfold Heap.inspect Heap.kind? Heap.pinCount? Heap.text?
  rcases halike.cases_entry? r with
    ⟨hnone, hnone'⟩ | ⟨⟨object, pins⟩, ⟨object', pins'⟩, he, he', hobject, hpins, -⟩
  · rw [hnone, hnone']
  · rw [he, he']
    cases hpins
    cases hobject <;> rfl

theorem kind? (halike : h.Alike m m' moved pending views h') (r : ObjRef) :
    h.kind? r = h'.kind? r :=
  congrArg Inspection.kind (halike.inspect r)

/-- The same is read of an object, unless it is pending. -/
theorem read (halike : h.Alike m m' moved pending views h') {r : ObjRef} (hr : r ∉ pending) :
    h.read m r = h'.read m' r := by
  unfold Heap.read Heap.entry
  rcases halike.cases_entry? r with
    ⟨hnone, hnone'⟩ | ⟨⟨object, pins⟩, ⟨object', pins'⟩, he, he', hobject, -, -⟩
  · rw [hnone, hnone']
    rfl
  · rw [he, he']
    cases hobject with
    | view hshape hread => exact hread.resolve_left hr
    | _ => rfl

theorem function (halike : h.Alike m m' moved pending views h') (r : ObjRef) :
    h.function r = h'.function r := by
  unfold Heap.function Heap.entry
  rcases halike.cases_entry? r with
    ⟨hnone, hnone'⟩ | ⟨⟨object, pins⟩, ⟨object', pins'⟩, he, he', hobject, -, -⟩
  · rw [hnone, hnone']
  · rw [he, he']
    cases hobject <;> rfl

theorem lookup (halike : h.Alike m m' moved pending views h') (name : String) :
    h.lookup name = h'.lookup name := by
  unfold Heap.lookup
  rw [halike.globals, funext halike.isLive]

/-! ### Collecting and allocating -/

theorem collect (halike : h.Alike m m' moved pending views h') :
    h.collect.1 = h'.collect.1 ∧ h.collect.2.Alike m m' moved pending views h'.collect.2 := by
  have hroots : h.rootSet = h'.rootSet := by
    unfold Heap.rootSet Heap.roots
    rw [halike.globals, halike.scopes]
  have hkeep : ∀ {i gen} {e e' : HeapEntry F},
      e.Alike m m' (ObjRef.Unread pending i gen) (h.table.Apart moved views i gen) e' →
        ∀ r, (e.pins > 0 || h.rootSet.contains r) = (e'.pins > 0 || h'.rootSet.contains r) := by
    intro i gen e e' he r
    rw [he.pins, hroots]
  obtain ⟨hfreed, htable⟩ := halike.table.sweep hkeep
  refine ⟨hfreed, htable.mono fun i gen e e' he => he.mono id fun hapart => ?_, halike.globals,
    halike.scopes, halike.config, ?_⟩
  · refine hapart.mono (fun room => ?_) fun _ hr _ => hr
    unfold Table.Addressable at room ⊢
    rwa [table_collect, Table.length_sweep] at room
  · unfold Heap.collect
    dsimp only
    rw [halike.stats, hfreed]

theorem prepare (halike : h.Alike m m' moved pending views h') :
    h.prepare.Alike m m' moved pending views h'.prepare := by
  obtain ⟨table, globals, scopes, config, stats⟩ := h
  obtain ⟨table', globals', scopes', config', stats'⟩ := h'
  obtain ⟨htable, hglobals, hscopes, hconfig, hstats⟩ := halike
  cases hglobals
  cases hscopes
  cases hconfig
  cases hstats
  unfold Heap.prepare
  dsimp only
  split
  · refine (collect ?_).2
    exact ⟨htable, rfl, rfl, rfl, rfl⟩
  · exact ⟨htable, rfl, rfl, rfl, rfl⟩

theorem noteLocal (halike : h.Alike m m' moved pending views h') (r : ObjRef) :
    (h.noteLocal r).Alike m m' moved pending views (h'.noteLocal r) := by
  have hscopes := halike.scopes
  unfold Heap.noteLocal
  rw [← hscopes]
  cases h.scopes with
  | nil => exact halike
  | cons innermost outer =>
    exact ⟨halike.table, halike.globals, rfl, halike.config, halike.stats⟩

/-- Objects that are shown alike are allocated in the same place.  If they differ, the new reference
has to be among the views. -/
theorem alloc (halike : h.Alike m m' moved pending views h') {object object' : Object F}
    (hobject : object.Alike m m' False object') (hviews : views ⊆ views')
    (hnew : (moved ∧ (h.alloc object).1 ∈ views') ∨ object = object') :
    (h.alloc object).1 = (h'.alloc object').1 ∧
      (h.alloc object).2.Alike m m' moved pending views' (h'.alloc object').2 := by
  have hprepared := halike.prepare
  have hgrows := Table.length_le_length_insert h.prepare.table ⟨object, 0⟩
  have htable : Table.Matches (fun i gen => HeapEntry.Alike m m' (ObjRef.Unread pending i gen)
      ((h.prepare.table.insert ⟨object, 0⟩).2.Apart moved views' i gen))
      h.prepare.table h'.prepare.table :=
    hprepared.table.mono fun i gen e e' he => he.mono id fun hapart =>
      hapart.mono (Nat.le_trans hgrows) fun _ hr _ => hviews hr
  have hentry : ∀ i gen, ((h.prepare.table.insert ⟨object, 0⟩).2.Addressable →
      (h.prepare.table.insert ⟨object, 0⟩).1.At i gen) →
      HeapEntry.Alike m m' (ObjRef.Unread pending i gen)
        ((h.prepare.table.insert ⟨object, 0⟩).2.Apart moved views' i gen) ⟨object, 0⟩
        ⟨object', 0⟩ := by
    intro i gen hplace
    refine ⟨hobject.mono False.elim, rfl, ?_⟩
    rcases hnew with ⟨hmoved, hmem⟩ | heq
    · exact Or.inl ⟨hmoved, fun room => ⟨_, hmem, hplace room⟩⟩
    · exact Or.inr (by rw [heq])
  obtain ⟨hr, hinserted⟩ := htable.insert hentry
  refine ⟨hr, ?_⟩
  have hfilled : Heap.Alike m m' moved pending views'
      { h.prepare with table := (h.prepare.table.insert ⟨object, 0⟩).2 }
      { h'.prepare with table := (h'.prepare.table.insert ⟨object', 0⟩).2 } :=
    ⟨hinserted, hprepared.globals, hprepared.scopes, hprepared.config, hprepared.stats⟩
  unfold Heap.alloc
  dsimp only
  rw [← hr]
  exact hfilled.noteLocal _

/-! ### The namespace and calls -/

theorem define (halike : h.Alike m m' moved pending views h') (name : String) (value : ObjRef) :
    (h.define name value).1 = (h'.define name value).1 ∧
      (h.define name value).2.Alike m m' moved pending views (h'.define name value).2 := by
  unfold Heap.define
  rw [← halike.globals]
  exact ⟨rfl, halike.table, rfl, halike.scopes, halike.config, halike.stats⟩

theorem undefine (halike : h.Alike m m' moved pending views h') (name : String) :
    (h.undefine name).1 = (h'.undefine name).1 ∧
      (h.undefine name).2.Alike m m' moved pending views (h'.undefine name).2 := by
  unfold Heap.undefine
  rw [← halike.globals]
  exact ⟨rfl, halike.table, rfl, halike.scopes, halike.config, halike.stats⟩

theorem openScope (halike : h.Alike m m' moved pending views h') :
    h.openScope.Alike m m' moved pending views h'.openScope :=
  ⟨halike.table, halike.globals, congrArg ([] :: ·) halike.scopes, halike.config, halike.stats⟩

theorem closeScope (halike : h.Alike m m' moved pending views h') :
    h.closeScope.Alike m m' moved pending views h'.closeScope :=
  ⟨halike.table, halike.globals, congrArg List.tail halike.scopes, halike.config, halike.stats⟩

/-! ### Changing objects in place -/

/-- Objects behind one reference are changed to others that are shown alike. -/
theorem modify (halike : h.Alike m m' moved pending views h') {r : ObjRef}
    {f f' : HeapEntry F → HeapEntry F} (hpending : ∀ q ∈ pending, q ≠ r → q ∈ pending')
    (hviews : ∀ q ∈ views, q ≠ r → q ∈ views')
    (hf : ∀ e e', e.Alike m m' (r ∈ pending) (moved ∧ (h.table.Addressable → r ∈ views)) e' →
      (f e).Alike m m' (r ∈ pending') (moved ∧ (h.table.Addressable → r ∈ views')) (f' e')) :
    Heap.Alike m m' moved pending' views' { h with table := h.table.modify r f }
      { h' with table := h'.table.modify r f' } := by
  have hroom : (h.table.modify r f).Addressable → h.table.Addressable := Table.addressable_of_modify
  refine ⟨halike.table.modify (fun e e' he => ?_) (fun i gen e e' hplace he => ?_), halike.globals,
    halike.scopes, halike.config, halike.stats⟩
  · have hbefore : e.Alike m m' (r ∈ pending) (moved ∧ (h.table.Addressable → r ∈ views)) e' := by
      refine he.mono (fun hunread => hunread r ⟨rfl, rfl⟩) fun hapart => ⟨hapart.1, fun room => ?_⟩
      obtain ⟨q, hq, hplace⟩ := hapart.2 room
      rwa [← hplace.eq]
    refine (hf e e' hbefore).mono (fun hunread q hplace => ?_) fun hapart =>
      ⟨hapart.1, fun room => ⟨r, hapart.2 (hroom room), rfl, rfl⟩⟩
    rwa [hplace.eq]
  · have hne : ∀ q : ObjRef, q.At i gen → q ≠ r := by
      rintro q hq rfl
      exact hplace hq
    exact he.mono (fun hunread q hq => hpending q (hunread q hq) (hne q hq)) fun hapart =>
      hapart.mono hroom fun q hq hqplace => hviews q hq (hne q hqplace)

theorem pin (halike : h.Alike m m' moved pending views h') (r : ObjRef) :
    (h.pin r).Alike m m' moved pending views (h'.pin r) :=
  halike.modify (fun _ hq _ => hq) (fun _ hq _ => hq) fun _ _ he =>
    ⟨he.object, congrArg (· + 1) he.pins, he.eq.imp_right fun heq => by rw [heq]⟩

theorem unpin (halike : h.Alike m m' moved pending views h') (r : ObjRef) :
    (h.unpin r).Alike m m' moved pending views (h'.unpin r) :=
  halike.modify (fun _ hq _ => hq) (fun _ hq _ => hq) fun _ _ he =>
    ⟨he.object, congrArg (· - 1) he.pins, he.eq.imp_right fun heq => by rw [heq]⟩

/-- A view is not pending any more when it has been pointed elsewhere.  If the windows differ, the
reference has to be among the views. -/
theorem repoint (halike : h.Alike m m' moved pending views h') (r : ObjRef) {b b' : Buffer}
    (hbuffer : b.Alike m m' moved b') (hpending : ∀ q ∈ pending, q ≠ r → q ∈ pending')
    (hviews : views ⊆ views') (hnew : (moved ∧ r ∈ views') ∨ b = b') :
    (∃ e, h.repoint r b = .error e ∧ h'.repoint r b' = .error e) ∨
      ∃ k k', h.repoint r b = .ok k ∧ h'.repoint r b' = .ok k' ∧
        k.Alike m m' moved pending' views' k' := by
  unfold Heap.repoint Heap.entry
  rcases halike.cases_entry? r with
    ⟨hnone, hnone'⟩ | ⟨⟨object, pins⟩, ⟨object', pins'⟩, he, he', hobject, -, -⟩
  · rw [hnone, hnone']
    exact Or.inl ⟨_, rfl, rfl⟩
  · rw [he, he']
    cases hobject with
    | view hshape hread =>
      refine Or.inr ⟨_, _, rfl, rfl, halike.modify hpending (fun _ hq _ => hviews hq) ?_⟩
      intro e e' hentry
      refine ⟨hbuffer.view.mono False.elim, hentry.pins, ?_⟩
      refine hnew.imp (fun hmoved => ⟨hmoved.1, fun _ => hmoved.2⟩) fun heq => ?_
      rw [heq, hentry.pins]
    | _ => exact Or.inl ⟨_, rfl, rfl⟩

/-- What is retired is equal. -/
theorem retire {r : ObjRef} (halike : h.Alike m m' moved pending (r :: views) h') :
    (h.retire r).Alike m m' moved pending views (h'.retire r) := by
  have hother : ∀ q ∈ r :: views, q ≠ r → q ∈ views := fun q hq hne =>
    (List.mem_cons.mp hq).resolve_left hne
  have hequal : (∀ e e', h.entry? r = some e → h'.entry? r = some e' → e = e') →
      h.Alike m m' moved pending views h' := by
    intro hequal
    refine ⟨halike.table.imp fun i gen e e' hslot hslot' he => ⟨he.object, he.pins, ?_⟩,
      halike.globals, halike.scopes, halike.config, halike.stats⟩
    by_cases hplace : r.At i gen
    · have heq := hequal e e' (Table.get?_of_at hplace hslot) (Table.get?_of_at hplace hslot')
      exact Or.inr heq
    · refine he.eq.imp_left fun hapart => hapart.mono id fun q hq hqplace => hother q hq ?_
      rintro rfl
      exact hplace hqplace
  unfold Heap.retire
  rcases halike.cases_entry? r with
    ⟨hnone, hnone'⟩ | ⟨⟨object, pins⟩, ⟨object', pins'⟩, he, he', hobject, hpins, -⟩
  · rw [hnone, hnone']
    refine hequal fun e e' he => ?_
    rw [hnone] at he
    cases he
  · cases hpins
    rw [he, he']
    cases hobject with
    | @view v v' hshape hread =>
      have hretired : v.retire = v'.retire := by
        unfold ArrayView.retire
        rw [hshape]
      have hset : Heap.Alike m m' moved pending views (h.setObject r (.view v.retire))
          (h'.setObject r (.view v'.retire)) := by
        refine halike.modify (fun _ hq _ => hq) hother fun e e' he => ⟨?_, he.pins, Or.inr ?_⟩
        · exact .view (congrArg ArrayView.shape hretired) (Or.inr rfl)
        · rw [hretired, he.pins]
      refine ⟨hset.table, hset.globals, hset.scopes, hset.config, ?_⟩
      dsimp only
      rw [halike.stats]
    | _ =>
      refine hequal fun e e' hr hr' => ?_
      rw [he] at hr
      rw [he'] at hr'
      cases hr
      cases hr'
      rfl

/-! ### From the same heap to the same heap -/

/-- Where all views are retired that may be apart, the heaps are equal. -/
theorem eq_of_retired (halike : h.Alike m m' moved pending [] h')
    (hroom : moved → h.table.Addressable) : h = h' := by
  have hslots : h.table.slots = h'.table.slots := by
    refine List.ext_getElem? fun i => ?_
    rcases halike.table.cases_slot i with
      ⟨hnone, hnone'⟩ | ⟨⟨gen, data⟩, ⟨gen', data'⟩, hslot, hslot', hgen, hdata⟩
    · rw [hnone, hnone']
    · rw [hslot, hslot']
      cases hgen
      cases hdata with
      | none => rfl
      | some he =>
        rcases he.eq with hapart | heq
        · obtain ⟨r, hr, -⟩ := hapart.2 (hroom hapart.1)
          cases hr
        · rw [heq]
  obtain ⟨⟨slots, free, live⟩, globals, scopes, config, stats⟩ := h
  obtain ⟨⟨slots', free', live'⟩, globals', scopes', config', stats'⟩ := h'
  cases hslots
  cases halike.table.free
  cases halike.table.live
  cases halike.globals
  cases halike.scopes
  cases halike.config
  cases halike.stats
  rfl

end Heap.Alike

/-- Each view on the heap shows in both memories the same, but for the hidden ones. -/
def Heap.ShowsSame (h : Heap F) (m m' : Memory) (hidden : List ObjRef) : Prop :=
  ∀ r ∉ hidden, ∀ view pins, h.entry? r = some ⟨.view view, pins⟩ → view.read m = view.read m'

/-- Such a heap shows the same in both memories. -/
theorem Heap.ShowsSame.alike {h : Heap F} {hidden : List ObjRef}
    (hshows : h.ShowsSame m m' hidden) (moved : Prop) : h.Alike m m' moved hidden [] h := by
  refine ⟨⟨rfl, rfl, rfl, fun {i slot slot'} hslot hslot' => ?_⟩, rfl, rfl, rfl, rfl⟩
  rw [hslot] at hslot'
  cases hslot'
  obtain ⟨gen, data⟩ := slot
  refine ⟨rfl, ?_⟩
  cases data with
  | none => exact .none
  | some e =>
    obtain ⟨object, pins⟩ := e
    refine .some ⟨?_, rfl, Or.inr rfl⟩
    cases object with
    | array values => exact .array values
    | view view =>
      -- what no reference names is not read either
      refine .view rfl (or_iff_not_imp_left.mpr fun hunread => ?_)
      unfold ObjRef.Unread at hunread
      push Not at hunread
      obtain ⟨r, hplace, hr⟩ := hunread
      exact hshows r hr view pins (Table.get?_of_at hplace hslot)
    | function f => exact .function f
    | text text => exact .text text

end CallbackBridge
