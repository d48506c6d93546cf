/-
# What the operations of the heap leave alone

Operations of the heap are compared by what they leave of the entries that are there.  A
collection takes away only what nothing roots, an allocation adds one unpinned entry,
and the namespace does not touch entries at all.

* `Spares names h h'` says what every piece of code leaves alone that neither pins nor
  unpins, neither points a view elsewhere nor detaches one, and does not bind the given
  names: entries are as they were or gone, and gone only if no pin, no call in progress
  and none of the names keeps them.
* `SameScopes h h'` says that the calls in progress are the same, where the innermost one
  may have allocated.
-/
import CallbackBridge.Heap.Basic
import CallbackBridge.Proofs.References
namespace CallbackBridge

/-! ## Names -/

namespace NameMap

variable {α : Type} {m : NameMap α} {name other : String}

/-- Binding a name does not change what another name is bound to. -/
theorem find?_insert_of_ne (hne : other ≠ name) (value : α) :
    (m.insert name value).find? other = m.find? other := by
  have hother : (other == name) = false := beq_false_of_ne hne
  have hgo : ∀ entries : List (String × α),
      (insert.go name value entries).lookup other = entries.lookup other := by
    intro entries
    induction entries with
    | nil => simp [insert.go, List.lookup_cons, hother]
    | cons entry rest ih =>
      obtain ⟨key, old⟩ := entry
      unfold insert.go
      split
      · next hkey => simp [List.lookup_cons, hkey, hother]
      · simp only [List.lookup_cons, ih]
  exact hgo m.entries

/-- Unbinding a name does not change what another name is bound to. -/
theorem find?_erase_of_ne (hne : other ≠ name) : (m.erase name).find? other = m.find? other := by
  have hother : (other == name) = false := beq_false_of_ne hne
  unfold erase find?
  induction m.entries with
  | nil => rfl
  | cons entry rest ih =>
    obtain ⟨key, old⟩ := entry
    by_cases hkey : key = name
    · rw [List.filter_cons_of_neg (by simp [hkey]), ih, List.lookup_cons, hkey, hother]
    · rw [List.filter_cons_of_pos (by simp [hkey]), List.lookup_cons, List.lookup_cons, ih]

/-- What a name is bound to is among the bound values. -/
theorem mem_values_of_find? {value : α} (h : m.find? name = some value) : value ∈ m.values := by
  have hgo : ∀ entries : List (String × α), entries.lookup name = some value →
      value ∈ entries.map Prod.snd := by
    intro entries hfound
    induction entries with
    | nil => cases hfound
    | cons entry rest ih =>
      obtain ⟨key, old⟩ := entry
      rw [List.lookup_cons] at hfound
      split at hfound
      · cases hfound
        exact List.mem_cons_self
      · exact List.mem_cons_of_mem _ (ih hfound)
  exact hgo m.entries h

end NameMap

/-! ## Regimes of entries -/

/-- The object may have become the other one: views may be pointed elsewhere or detached,
and all other objects stay what they are. -/
def Object.Remains {F : Type} : Object F → Object F → Prop
  | .view _, object => ∃ view, object = .view view
  | object, object' => object' = object

/-- An object may stay what it is. -/
theorem Object.Remains.refl {F : Type} (object : Object F) : object.Remains object := by
  cases object with
  | view view => exact ⟨view, rfl⟩
  | _ => rfl

theorem Object.Remains.trans {F : Type} {a b c : Object F} (h : a.Remains b)
    (h' : b.Remains c) : a.Remains c := by
  cases a with
  | view view =>
    obtain ⟨view', rfl⟩ := h
    exact h'
  | _ =>
    cases h
    exact h'

namespace HeapEntry

variable {F : Type}

/-- Objects stay what they are; pins may come and go. -/
def fixedObjects : Table.Regime (HeapEntry F) where
  change e e' := e'.object = e.object
  fresh _ := True
  refl _ := rfl
  trans h h' := h'.trans h
  inherit _ _ := trivial

/-- Entries stay as they are, and new ones have no pin. -/
def fixedEntries : Table.Regime (HeapEntry F) where
  change e e' := e' = e
  fresh e := e.pins = 0
  refl _ := rfl
  trans h h' := h'.trans h
  inherit h h' := by
    rw [h']
    exact h

/-- Objects remain what they are but for where views are pointed. -/
def fixedSorts : Table.Regime (HeapEntry F) where
  change e e' := e.object.Remains e'.object
  fresh _ := True
  refl _ := .refl _
  trans h h' := h.trans h'
  inherit _ _ := trivial

/-- Pins come and go without a change of the object. -/
theorem fixedSorts_pins (e : HeapEntry F) (pins : Nat) : fixedSorts.change e { e with pins } :=
  Object.Remains.refl e.object

end HeapEntry

namespace Heap

variable {F : Type} {h h' h'' : Heap F}

/-- What leads to an entry is there. -/
theorem isLive_of_eq_some {r : ObjRef} {e : HeapEntry F} (hr : h.entry? r = some e) :
    h.isLive r := by
  rw [isLive, hr]
  rfl

/-! ## Collecting and allocating -/

/-- The table after a collection. -/
theorem table_collect (h : Heap F) : h.collect.2.table = (h.table.sweep h.isRooted).2 := by
  rw [← keep_eq_isRooted]
  rfl

/-- A collection takes away exactly what is not rooted. -/
theorem entry?_collect (h : Heap F) (r : ObjRef) :
    Heap.entry? h.collect.2 r = (h.entry? r).filter (h.isRooted r) := by
  unfold entry?
  rw [table_collect, Table.get?_sweep]

/-- A pin, a call in progress or one of the names keeps the object. -/
def Keeps (h : Heap F) (names : List String) (r : ObjRef) (e : HeapEntry F) : Prop :=
  0 < e.pins ∨ r ∈ h.scopes.flatten ∨ ∃ name ∈ names, h.globals.find? name = some r

/-- What is kept is rooted. -/
theorem Keeps.isRooted {names : List String} {r : ObjRef} {e : HeapEntry F}
    (hr : h.Keeps names r e) : h.isRooted r e := by
  unfold Heap.isRooted roots
  rcases hr with hpins | hlocal | ⟨name, -, hname⟩
  · simp [hpins]
  · simp [List.mem_append, hlocal]
  · simp [List.mem_append, NameMap.mem_values_of_find? hname]

/-- Before an allocation the table is as it was, or just collected. -/
theorem table_prepare (h : Heap F) :
    h.prepare.table = h.table ∨ h.prepare.table = (h.table.sweep h.isRooted).2 := by
  unfold prepare
  simp only
  split
  · exact Or.inr (table_collect _)
  · exact Or.inl rfl

@[simp] theorem scopes_prepare (h : Heap F) : h.prepare.scopes = h.scopes := by
  unfold prepare
  simp only
  split <;> rfl

@[simp] theorem globals_prepare (h : Heap F) : h.prepare.globals = h.globals := by
  unfold prepare
  simp only
  split <;> rfl

@[simp] theorem table_noteLocal (h : Heap F) (r : ObjRef) : (h.noteLocal r).table = h.table := by
  unfold noteLocal
  split <;> rfl

@[simp] theorem globals_noteLocal (h : Heap F) (r : ObjRef) :
    (h.noteLocal r).globals = h.globals := by
  unfold noteLocal
  split <;> rfl

/-- The table after an allocation. -/
theorem table_alloc (h : Heap F) (object : Object F) :
    (h.alloc object).2.table = (h.prepare.table.insert ⟨object, 0⟩).2 :=
  table_noteLocal _ _

@[simp] theorem globals_alloc (h : Heap F) (object : Object F) :
    (h.alloc object).2.globals = h.globals := by
  unfold alloc
  simp

/-- Preparing an allocation keeps to every regime. -/
theorem evolves_prepare (regime : Table.Regime (HeapEntry F)) (h : Heap F) :
    h.table.Evolves regime h.prepare.table := by
  rcases table_prepare h with heq | heq
  · rw [heq]
    exact .refl _
  · rw [heq]
    exact .sweep _ _

/-- An allocation keeps to every regime under which its object may be put in. -/
theorem evolves_alloc {regime : Table.Regime (HeapEntry F)} (h : Heap F) {object : Object F}
    (hfresh : regime.fresh ⟨object, 0⟩) :
    h.table.Evolves regime (h.alloc object).2.table := by
  rw [table_alloc]
  exact (evolves_prepare regime h).trans (.insert _ hfresh)

/-- A collection keeps to every regime. -/
theorem evolves_collect (regime : Table.Regime (HeapEntry F)) (h : Heap F) :
    h.table.Evolves regime h.collect.2.table := by
  rw [table_collect]
  exact .sweep _ _

/-- What is rooted when an allocation begins is there before the object is put in. -/
theorem entry?_prepare {r : ObjRef} {e : HeapEntry F} (hr : h.entry? r = some e)
    (hroot : h.isRooted r e) : h.prepare.entry? r = some e := by
  unfold entry?
  rcases table_prepare h with heq | heq
  · rw [heq]
    exact hr
  · rw [heq, Table.get?_sweep]
    exact Option.filter_eq_some_iff.mpr ⟨hr, hroot⟩

/-- What is rooted survives an allocation. -/
theorem entry?_alloc_of_rooted {object : Object F} (room : (h.alloc object).2.table.Addressable)
    (hs : h.table.Sound) {r : ObjRef} {e : HeapEntry F} (hr : h.entry? r = some e)
    (hroot : h.isRooted r e) : Heap.entry? (h.alloc object).2 r = some e := by
  have hprepared := entry?_prepare hr hroot
  unfold entry? at hprepared ⊢
  rw [table_alloc] at room ⊢
  have hs' : h.prepare.table.Sound :=
    (evolves_prepare HeapEntry.fixedSorts h).sound
      (Nat.le_trans (Table.length_le_length_insert _ _) room) hs
  have hne : r ≠ (h.prepare.table.insert ⟨object, 0⟩).1 := fun hc =>
    hs'.not_issued_insert room (hc ▸ Table.issued_of_get? hprepared)
  rw [hs'.get?_insert_of_ne room hne]
  exact hprepared

/-- What an allocation gives leads to the object, and was never handed out before. -/
theorem entry?_alloc_self {object : Object F} (room : (h.alloc object).2.table.Addressable)
    (hs : h.table.Sound) :
    Heap.entry? (h.alloc object).2 (h.alloc object).1 = some ⟨object, 0⟩ ∧
      ¬ h.table.Issued (h.alloc object).1 := by
  unfold entry?
  rw [table_alloc] at room ⊢
  have hroom' := Nat.le_trans (Table.length_le_length_insert _ _) room
  have hs' : h.prepare.table.Sound :=
    (evolves_prepare HeapEntry.fixedSorts h).sound hroom' hs
  refine ⟨hs'.get?_insert_self room, fun hissued => ?_⟩
  exact hs'.not_issued_insert room
    ((evolves_prepare HeapEntry.fixedSorts h).issued hroom' hs hissued)

/-! ## Changing objects in place -/

/-- What is changed in place is not taken away. -/
theorem isLive_of_modify {r : ObjRef} {f : HeapEntry F → HeapEntry F}
    (htable : h'.table = h.table.modify r f) (q : ObjRef) : h'.isLive q = h.isLive q := by
  unfold isLive entry?
  rw [htable, Table.get?_modify]
  by_cases hsame : q = r
  · rw [if_pos hsame, Option.isSome_map, hsame]
  · rw [if_neg hsame]

/-- A pin takes nothing away. -/
theorem isLive_pin (h : Heap F) (r q : ObjRef) : (h.pin r).isLive q = h.isLive q :=
  isLive_of_modify rfl q

/-- What references lead to after an object was replaced. -/
theorem entry?_setObject (h : Heap F) (r q : ObjRef) (object : Object F) :
    Heap.entry? (h.setObject r object) q =
      if q = r then (h.entry? r).map fun entry => { entry with object } else h.entry? q :=
  Table.get?_modify _ _ _ _

/-- What references lead to after a pin. -/
theorem entry?_pin (h : Heap F) (r q : ObjRef) :
    Heap.entry? (h.pin r) q =
      if q = r then (h.entry? r).map fun entry => { entry with pins := entry.pins + 1 }
      else h.entry? q :=
  Table.get?_modify _ _ _ _

/-- Pins do not change what is read. -/
theorem read_pin (h : Heap F) (m : Memory) (r q : ObjRef) :
    (h.pin r).read m q = h.read m q := by
  unfold read entry
  rw [entry?_pin]
  by_cases hsame : q = r
  · subst hsame
    rw [if_pos rfl]
    cases h.entry? q <;> rfl
  · rw [if_neg hsame]

/-- What references lead to after a pin was undone. -/
theorem entry?_unpin (h : Heap F) (r q : ObjRef) :
    Heap.entry? (h.unpin r) q =
      if q = r then (h.entry? r).map fun entry => { entry with pins := entry.pins - 1 }
      else h.entry? q :=
  Table.get?_modify _ _ _ _

/-- A view was pointed at a buffer if it was there. -/
theorem repoint_eq_ok {r : ObjRef} {buffer : Buffer} (hok : h.repoint r buffer = .ok h') :
    (∃ view pins, h.entry? r = some ⟨.view view, pins⟩) ∧
      h' = h.setObject r (.view (.ofBuffer buffer)) := by
  unfold repoint entry at hok
  cases hentry : h.entry? r with
  | none =>
    rw [hentry] at hok
    cases hok
  | some e =>
    obtain ⟨object, pins⟩ := e
    rw [hentry] at hok
    cases object with
    | view view =>
      cases hok
      exact ⟨⟨view, pins, rfl⟩, rfl⟩
    | _ => cases hok

/-- Retiring detaches a view, and does nothing to anything else. -/
theorem retire_cases (h : Heap F) (r : ObjRef) :
    (∃ view pins, h.entry? r = some ⟨.view view, pins⟩ ∧
      (h.retire r).table = (h.setObject r (.view view.retire)).table) ∨
    ((∀ e, h.entry? r = some e → ∀ view, e.object ≠ .view view) ∧ h.retire r = h) := by
  unfold retire
  split
  · next view pins hentry => exact Or.inl ⟨view, pins, hentry, rfl⟩
  · next hother =>
    refine Or.inr ⟨fun e he view hobject => ?_, rfl⟩
    obtain ⟨object, pins⟩ := e
    cases hobject
    exact hother view pins he

@[simp] theorem globals_retire (h : Heap F) (r : ObjRef) :
    (h.retire r).globals = h.globals := by
  unfold retire
  split <;> rfl

/-- Pointing a view elsewhere leaves a view. -/
theorem evolves_repoint {r : ObjRef} {buffer : Buffer} (hok : h.repoint r buffer = .ok h') :
    h.table.Evolves HeapEntry.fixedSorts h'.table := by
  obtain ⟨⟨view, pins, hentry⟩, rfl⟩ := repoint_eq_ok hok
  refine .modify _ _ fun e he => ?_
  cases hentry.symm.trans he
  exact ⟨_, rfl⟩

/-- Retiring leaves a view. -/
theorem evolves_retire (h : Heap F) (r : ObjRef) :
    h.table.Evolves HeapEntry.fixedSorts (h.retire r).table := by
  rcases h.retire_cases r with ⟨view, pins, hentry, htable⟩ | ⟨-, heq⟩
  · rw [htable]
    refine .modify _ _ fun e he => ?_
    cases hentry.symm.trans he
    exact ⟨_, rfl⟩
  · rw [heq]
    exact .refl _

/-- Pinning keeps to every regime that does not look at pins. -/
theorem evolves_pin {regime : Table.Regime (HeapEntry F)}
    (hpins : ∀ (e : HeapEntry F) pins, regime.change e { e with pins }) (h : Heap F)
    (r : ObjRef) : h.table.Evolves regime (h.pin r).table :=
  .modify _ _ fun e _ => hpins e _

/-- So does undoing a pin. -/
theorem evolves_unpin {regime : Table.Regime (HeapEntry F)}
    (hpins : ∀ (e : HeapEntry F) pins, regime.change e { e with pins }) (h : Heap F)
    (r : ObjRef) : h.table.Evolves regime (h.unpin r).table :=
  .modify _ _ fun e _ => hpins e _

/-! ## Scopes -/

/-- The scopes after the innermost call has allocated some more. -/
def extendScope (new : List ObjRef) : List (List ObjRef) → List (List ObjRef)
  | [] => []
  | innermost :: outer => (new ++ innermost) :: outer

/-- The same calls are in progress, and only the innermost one has allocated. -/
def SameScopes (h h' : Heap F) : Prop := ∃ new, h'.scopes = extendScope new h.scopes

namespace SameScopes

theorem refl (h : Heap F) : h.SameScopes h :=
  ⟨[], by cases hscopes : h.scopes <;> rfl⟩

theorem of_eq (heq : h'.scopes = h.scopes) : h.SameScopes h' := by
  obtain ⟨new, hnew⟩ := refl h
  exact ⟨new, heq.trans hnew⟩

theorem trans (h₁ : h.SameScopes h') (h₂ : h'.SameScopes h'') : h.SameScopes h'' := by
  obtain ⟨new, hnew⟩ := h₁
  obtain ⟨newer, hnewer⟩ := h₂
  refine ⟨newer ++ new, ?_⟩
  rw [hnewer, hnew]
  cases h.scopes with
  | nil => rfl
  | cons innermost outer => simp [extendScope]

/-- What a call in progress has allocated stays listed. -/
theorem mem_flatten (hsame : h.SameScopes h') {r : ObjRef} (hr : r ∈ h.scopes.flatten) :
    r ∈ h'.scopes.flatten := by
  obtain ⟨new, hnew⟩ := hsame
  rw [hnew]
  cases hscopes : h.scopes with
  | nil => simp [hscopes] at hr
  | cons innermost outer =>
    rw [hscopes, List.flatten_cons, List.mem_append] at hr
    simp only [extendScope, List.flatten_cons, List.mem_append]
    exact hr.imp Or.inr id

/-- Closing the scope of a call that is over restores the scopes from before it. -/
theorem closeScope (hsame : h.openScope.SameScopes h') : h'.closeScope.scopes = h.scopes := by
  obtain ⟨new, hnew⟩ := hsame
  simp only [Heap.closeScope, hnew]
  rfl

theorem alloc (h : Heap F) (object : Object F) : h.SameScopes (h.alloc object).2 := by
  unfold Heap.alloc noteLocal
  simp only
  split
  · next heq => exact of_eq (by rw [← scopes_prepare h])
  · next innermost outer heq =>
    rw [scopes_prepare] at heq
    exact ⟨[_], by rw [heq]; rfl⟩

end SameScopes

/-! ## What well-behaved code leaves alone -/

/-- The heap `h'` comes from `h` by code that neither pins nor unpins, neither points a
view elsewhere nor detaches one, and binds none of the names. -/
structure Spares (names : List String) (h h' : Heap F) : Prop where
  /-- Entries stay as they are, as long as they stay. -/
  evolves : h.table.Evolves HeapEntry.fixedEntries h'.table
  /-- What is kept stays. -/
  kept : h'.table.Addressable → h.table.Sound → ∀ {r e}, h.entry? r = some e →
    h.Keeps names r e → h'.entry? r = some e
  /-- What a call in progress has allocated stays listed. -/
  locals : ∀ {r}, r ∈ h.scopes.flatten → r ∈ h'.scopes.flatten
  /-- The names are bound to what they were bound to. -/
  bound : ∀ name ∈ names, h'.globals.find? name = h.globals.find? name

namespace Spares

variable {names : List String}

/-- What is kept goes on being kept. -/
theorem keeps (hspares : Spares names h h') {r : ObjRef} {e : HeapEntry F}
    (hr : h.Keeps names r e) : h'.Keeps names r e := by
  rcases hr with hpins | hlocal | ⟨name, hmem, hname⟩
  · exact Or.inl hpins
  · exact Or.inr (Or.inl (hspares.locals hlocal))
  · exact Or.inr (Or.inr ⟨name, hmem, (hspares.bound name hmem).trans hname⟩)

theorem of_table_eq (htable : h'.table = h.table)
    (hlocals : ∀ {r}, r ∈ h.scopes.flatten → r ∈ h'.scopes.flatten)
    (hbound : ∀ name ∈ names, h'.globals.find? name = h.globals.find? name) :
    Spares names h h' where
  evolves := by
    rw [htable]
    exact .refl _
  kept := by
    intro _ _ r e hr _
    unfold entry?
    rw [htable]
    exact hr
  locals := hlocals
  bound := hbound

theorem refl (h : Heap F) : Spares names h h := of_table_eq rfl id fun _ _ => rfl

theorem trans (h₁ : Spares names h h') (h₂ : Spares names h' h'') : Spares names h h'' where
  evolves := h₁.evolves.trans h₂.evolves
  kept := by
    intro room hs r e hr hkeeps
    have room' := h₂.evolves.addressable room
    have hr' := h₁.kept room' hs hr hkeeps
    exact h₂.kept room (h₁.evolves.sound room' hs) hr' (h₁.keeps hkeeps)
  locals hr := h₂.locals (h₁.locals hr)
  bound name hname := (h₂.bound name hname).trans (h₁.bound name hname)

theorem alloc (h : Heap F) (object : Object F) : Spares names h (h.alloc object).2 where
  evolves := evolves_alloc h rfl
  kept room hs _ _ hr hkeeps := entry?_alloc_of_rooted room hs hr hkeeps.isRooted
  locals hr := (SameScopes.alloc h object).mem_flatten hr
  bound name _ := by rw [globals_alloc]

theorem collect (h : Heap F) : Spares names h h.collect.2 where
  evolves := evolves_collect _ h
  kept := by
    intro _ _ r e hr hkeeps
    rw [entry?_collect]
    exact Option.filter_eq_some_iff.mpr ⟨hr, hkeeps.isRooted⟩
  locals hr := hr
  bound _ _ := rfl

/-- Binding another name. -/
theorem define (h : Heap F) {name : String} (hname : name ∉ names) (value : ObjRef) :
    Spares names h (h.define name value).2 :=
  of_table_eq rfl id fun _ hmem =>
    NameMap.find?_insert_of_ne (ne_of_mem_of_not_mem hmem hname) value

/-- Unbinding another name. -/
theorem undefine (h : Heap F) {name : String} (hname : name ∉ names) :
    Spares names h (h.undefine name).2 :=
  of_table_eq rfl id fun _ hmem =>
    NameMap.find?_erase_of_ne (ne_of_mem_of_not_mem hmem hname)

theorem openScope (h : Heap F) : Spares names h h.openScope :=
  of_table_eq rfl (fun hr => by simpa [Heap.openScope] using hr) fun _ _ => rfl

end Spares

/-! ## What a reference leads to -/

/-- The reference was handed out, and what it leads to, if anything, is as described. -/
structure Leads (h : Heap F) (P : Object F → Prop) (r : ObjRef) : Prop where
  /-- It was handed out. -/
  issued : h.table.Issued r
  /-- It leads to an object as described, or to nothing any more. -/
  object : ∀ e, h.entry? r = some e → P e.object

namespace Leads

variable {P Q : Object F → Prop} {r : ObjRef}

/-- What is there leads to what it is. -/
theorem of_eq_some {e : HeapEntry F} (hr : h.entry? r = some e) (hP : P e.object) :
    h.Leads P r where
  issued := Table.issued_of_get? hr
  object e' he' := by
    cases hr.symm.trans he'
    exact hP

theorem mono (hr : h.Leads P r) (hPQ : ∀ object, P object → Q object) : h.Leads Q r where
  issued := hr.issued
  object e he := hPQ _ (hr.object e he)

/-- Objects are in the table. -/
theorem of_table_eq (hr : h.Leads P r) (htable : h'.table = h.table) : h'.Leads P r where
  issued := htable ▸ hr.issued
  object e he := by
    unfold Heap.entry? at he
    rw [htable] at he
    exact hr.object e he

/-- What no change under a regime can spoil goes on being true. -/
theorem evolves {regime : Table.Regime (HeapEntry F)} (hr : h.Leads P r)
    (hev : h.table.Evolves regime h'.table) (room : h'.table.Addressable) (hs : h.table.Sound)
    (hP : ∀ {e e'}, regime.change e e' → P e.object → P e'.object) : h'.Leads P r where
  issued := hev.issued room hs hr.issued
  object e he := by
    obtain ⟨old, hold, hchange⟩ := hev.inherited room hs hr.issued he
    exact hP hchange (hr.object old hold)

end Leads

end Heap

end CallbackBridge
