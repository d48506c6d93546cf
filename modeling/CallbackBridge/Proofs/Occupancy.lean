/-
# What is there beside what was there at first

`Heap.Occupied` compares a heap with one that it comes from.  Of what has been allocated since then
only what is owed has pins, and nothing is kept for a name or a call; so a collection leaves what
was there at first and what is owed (`Heap.Occupied.taken_sweep_le`).

* What allocates nothing leaves no more objects (`Heap.Occupied.does`).
* An allocation finds room for its object, as long as references to three objects are owed at most
  (`Heap.Occupied.alloc`): either a collection comes before it, or there is one more allocation
  since the last that could come with one.
-/
import CallbackBridge.Proofs.Accounts
import CallbackBridge.Proofs.CallScopes
import CallbackBridge.Proofs.Collections
import CallbackBridge.Proofs.Counters
import Mathlib.Data.List.Perm.Subperm
namespace CallbackBridge

variable {F : Type}

/-! ## What a table holds -/

namespace Table

variable {α : Type} {t : Table α}

/-- The references to all that is there. -/
def refs (t : Table α) : List ObjRef := t.swept fun _ _ => false

/-- There are as many as there are places that hold an object. -/
theorem length_refs (t : Table α) : t.refs.length = t.taken := by
  have hdooms : ∀ entry ∈ t.slots.zipIdx,
      dooms (fun _ _ => false) entry.2 entry.1 = entry.1.data.isSome := by
    intro entry _
    unfold dooms
    cases entry.1.data <;> rfl
  unfold refs swept taken
  rw [List.length_map, List.filter_congr hdooms, ← List.countP_eq_length_filter]
  conv_rhs => rw [← List.zipIdx_map_fst 0 t.slots, List.countP_map]
  rfl

/-- What is listed is there. -/
theorem mem_refs_iff (h : t.Addressable) {r : ObjRef} : r ∈ t.refs ↔ ∃ v, t.get? r = some v := by
  unfold refs
  simp [mem_swept_iff h]

/-- **If all that is there is known, no more is there than is known.** -/
theorem taken_le_length (h : t.Addressable) {known : List ObjRef}
    (hknown : ∀ r v, t.get? r = some v → r ∈ known) : t.taken ≤ known.length := by
  have hsubset : t.refs ⊆ known := by
    intro r hr
    obtain ⟨v, hv⟩ := (mem_refs_iff h).mp hr
    exact hknown r v hv
  rw [← length_refs]
  exact (List.Nodup.subperm (nodup_swept h _) hsubset).length_le

end Table

/-! ## Allocations -/

namespace Heap

/-- An allocation leaves the settings. -/
theorem config_alloc (h : Heap F) (object : Object F) :
    (h.alloc object).2.config = h.config := by
  unfold alloc noteLocal prepare
  dsimp only
  split <;> split <;> rfl

/-- An allocation is counted. -/
theorem allocations_alloc (h : Heap F) (object : Object F) :
    (h.alloc object).2.stats.allocations = h.stats.allocations + 1 := by
  unfold alloc noteLocal prepare
  dsimp only
  split <;> split <;> rfl

/-- If no collection is due, there is one more allocation since the last that could come with
one. -/
theorem mod_succ_of_not_due {n every : Nat} (hdue : ¬ (0 < every ∧ (n + 1) % every = 0)) :
    (n + 1) % every = n % every + 1 := by
  have hdvd : ¬ every ∣ n + 1 := fun hdvd =>
    hdue ⟨Nat.pos_of_dvd_of_pos hdvd (Nat.succ_pos n), Nat.mod_eq_zero_of_dvd hdvd⟩
  have hquotient : (n + 1) / every = n / every := by
    rw [Nat.succ_div, if_neg hdvd, Nat.add_zero]
  have hbefore := Nat.div_add_mod n every
  have hafter := Nat.div_add_mod (n + 1) every
  rw [hquotient] at hafter
  omega

end Heap

/-! ## Heaps that go on -/

/-- The event allocates nothing, binds no name, and neither begins nor ends a call. -/
def HeapEvent.SparesRoom : HeapEvent F → Prop
  | .alloc _ _ => False
  | .define _ _ => False
  | .enter => False
  | .leave => False
  | _ => True

/-- What is owed after an event. -/
def HeapEvent.owes (owed : List ObjRef) : HeapEvent F → List ObjRef
  | .pin r => r :: owed
  | .unpin r => owed.erase r
  | _ => owed

namespace Heap

/-- Names, calls in progress, settings and the number of allocations are the same. -/
structure SameBooks (h h' : Heap F) : Prop where
  /-- The names are bound to the same. -/
  globals : h'.globals = h.globals
  /-- The same is kept for the same calls. -/
  scopes : h'.scopes = h.scopes
  /-- The settings are the same. -/
  config : h'.config = h.config
  /-- As much has been allocated. -/
  allocations : h'.stats.allocations = h.stats.allocations

/-- The heap comes from `base`, and beside what was there in `base` it holds what is owed and a few
objects that the next collection frees. -/
structure Occupied (h base : Heap F) (owed : List ObjRef) : Prop where
  /-- The first heap is sound. -/
  sound : base.table.Sound
  /-- The objects of the first heap are counted. -/
  counted : base.table.taken = base.liveObjects
  /-- No reference comes back to life. -/
  evolves : base.table.Evolves HeapEntry.fixedSorts h.table
  /-- The settings are the same. -/
  config : h.config = base.config
  /-- No call is in progress. -/
  scopes : h.scopes = []
  /-- Names lead where they led. -/
  bound : ∀ name r, h.globals.find? name = some r → base.globals.find? name = some r
  /-- Names lead to what the first heap had handed out. -/
  named : ∀ r ∈ h.globals.values, base.table.Issued r
  /-- All objects are counted. -/
  exact : h.table.taken = h.liveObjects
  /-- Each pin on a new object is owed. -/
  pins : ∀ r e, h.entry? r = some e → ¬ base.table.Issued r → e.pins ≤ owed.count r
  /-- There are three more objects than at first, and one for each allocation since the last that
  could come with a collection, that one included. -/
  bounded : h.liveObjects ≤
    base.liveObjects + 4 + h.stats.allocations % base.config.collectEvery

namespace Occupied

variable {base h h' : Heap F} {owed owed' few : List ObjRef} {event : HeapEvent F} {r : ObjRef}

/-- More may be owed. -/
theorem of_count_le (hocc : h.Occupied base owed) (hle : ∀ r, owed.count r ≤ owed'.count r) :
    h.Occupied base owed' :=
  { hocc with pins := fun r e he hnew => Nat.le_trans (hocc.pins r e he hnew) (hle r) }

/-- The order in which references are owed does not matter. -/
theorem of_perm (hocc : h.Occupied base owed) (hperm : owed.Perm owed') :
    h.Occupied base owed' :=
  hocc.of_count_le fun r => Nat.le_of_eq (hperm.count_eq r)

/-- The heap is sound. -/
theorem sound_now (hocc : h.Occupied base owed) (room : h.table.Addressable) : h.table.Sound :=
  hocc.evolves.sound room hocc.sound

/-- What is changed in place stays what it was counted as, if its pins are owed. -/
theorem of_modify {f : HeapEntry F → HeapEntry F} (hocc : h.Occupied base owed)
    (hdoes : h.Does event h') (room : h'.table.Addressable)
    (htable : h'.table = h.table.modify r f) (hbooks : h.SameBooks h')
    (hpins : ∀ e, e.pins ≤ owed.count r → (f e).pins ≤ owed'.count r)
    (howed : ∀ q, q ≠ r → owed.count q ≤ owed'.count q) : h'.Occupied base owed' where
  sound := hocc.sound
  counted := hocc.counted
  evolves := hocc.evolves.trans hdoes.evolves
  config := hbooks.config.trans hocc.config
  scopes := hbooks.scopes.trans hocc.scopes
  bound := by
    rw [hbooks.globals]
    exact hocc.bound
  named := by
    rw [hbooks.globals]
    exact hocc.named
  exact := hdoes.taken_eq room (hocc.sound_now (hdoes.evolves.addressable room)) hocc.exact
  pins q e he hnew := by
    unfold entry? at he
    rw [htable, Table.get?_modify] at he
    by_cases hq : q = r
    · subst hq
      rw [if_pos rfl] at he
      obtain ⟨old, hold, rfl⟩ := Option.map_eq_some_iff.mp he
      exact hpins old (hocc.pins q old hold hnew)
    · rw [if_neg hq] at he
      exact Nat.le_trans (hocc.pins q e he hnew) (howed q hq)
  bounded := by
    have hlive := (h.table.taken_live_modify r f).2
    unfold liveObjects
    rw [htable, hlive, hbooks.allocations]
    exact hocc.bounded

/-- A collection only takes away. -/
theorem collect (hocc : h.Occupied base owed) (room : h.collect.2.table.Addressable) :
    h.collect.2.Occupied base owed := by
  have hdoes : h.Does .collect h.collect.2 := rfl
  have hs := hocc.sound_now (hdoes.evolves.addressable room)
  refine ⟨hocc.sound, hocc.counted, hocc.evolves.trans hdoes.evolves, hocc.config, hocc.scopes,
    hocc.bound, hocc.named, hdoes.taken_eq room hs hocc.exact, fun r e he hnew => ?_, ?_⟩
  · rw [entry?_collect] at he
    exact hocc.pins r e (Option.filter_eq_some_iff.mp he).1 hnew
  · exact Nat.le_trans (Nat.sub_le _ _) hocc.bounded

/-- **What allocates nothing leaves no more objects.** -/
theorem does (hocc : h.Occupied base owed) (hdoes : h.Does event h')
    (hspares : event.SparesRoom) (room : h'.table.Addressable) :
    h'.Occupied base (event.owes owed) := by
  cases event with
  | pin r =>
    have htable : h'.table = h.table.modify r _ := congrArg Heap.table hdoes.symm
    refine hocc.of_modify hdoes room htable (hdoes ▸ ⟨rfl, rfl, rfl, rfl⟩) (fun e hle => ?_)
      fun q _ => List.count_le_count_cons
    show e.pins + 1 ≤ (r :: owed).count r
    rw [List.count_cons_self]
    exact Nat.succ_le_succ hle
  | unpin r =>
    have htable : h'.table = h.table.modify r _ := congrArg Heap.table hdoes.symm
    refine hocc.of_modify hdoes room htable (hdoes ▸ ⟨rfl, rfl, rfl, rfl⟩) (fun e hle => ?_)
      fun q hq => Nat.le_of_eq (List.count_erase_of_ne hq).symm
    show e.pins - 1 ≤ (owed.erase r).count r
    rw [List.count_erase_self]
    exact Nat.sub_le_sub_right hle 1
  | collect =>
    cases hdoes
    exact hocc.collect room
  | undefine name =>
    cases hdoes
    refine { hocc with bound := fun other r hr => ?_, named := fun r hr => ?_ }
    · by_cases hname : other = name
      · rw [hname] at hr
        cases (NameMap.find?_erase_self h.globals name).symm.trans hr
      · exact hocc.bound other r ((NameMap.find?_erase_of_ne hname).symm.trans hr)
    · obtain ⟨entry, hentry, rfl⟩ := List.mem_map.mp hr
      exact hocc.named _ (List.mem_map_of_mem (List.mem_filter.mp hentry).1)
  | repoint r buffer =>
    have hafter := (repoint_eq_ok hdoes).2
    have htable : h'.table = h.table.modify r _ := congrArg Heap.table hafter
    exact hocc.of_modify hdoes room htable (hafter ▸ ⟨rfl, rfl, rfl, rfl⟩) (fun _ => id)
      fun q _ => Nat.le_refl _
  | retire r =>
    have hafter : h.retire r = h' := hdoes
    rcases h.retire_cases r with ⟨view, pins, -, htable⟩ | ⟨-, hsame⟩
    · have hbooks : h.SameBooks (h.retire r) := by
        unfold Heap.retire
        split <;> exact ⟨rfl, rfl, rfl, rfl⟩
      rw [hafter] at htable hbooks
      exact hocc.of_modify hdoes room htable hbooks (fun _ => id) fun q _ => Nat.le_refl _
    · rw [← hafter, hsame]
      exact hocc
  | _ => exact hspares.elim

/-- What is pinned is owed. -/
theorem pin (hocc : h.Occupied base owed) (r : ObjRef) (room : (h.pin r).table.Addressable) :
    (h.pin r).Occupied base (r :: owed) :=
  hocc.does (show h.Does (.pin r) (h.pin r) from rfl) trivial room

/-- A pin that is undone is owed no more. -/
theorem unpin (hocc : h.Occupied base (r :: owed)) (room : (h.unpin r).table.Addressable) :
    (h.unpin r).Occupied base owed := by
  have hafter := hocc.does (show h.Does (.unpin r) (h.unpin r) from rfl) trivial room
  rwa [show HeapEvent.owes (r :: owed) (.unpin r : HeapEvent F) = owed from
    List.erase_cons_head r owed] at hafter

/-- What changes no pins leaves the pins of new objects owed. -/
theorem pins_evolves (hocc : h.Occupied base owed)
    (hev : h.table.Evolves HeapEntry.fixedPins h'.table) (room : h'.table.Addressable) {e}
    (he : h'.entry? r = some e) (hnew : ¬ base.table.Issued r) : e.pins ≤ owed.count r := by
  have hs := hocc.sound_now (hev.addressable room)
  by_cases hissued : h.table.Issued r
  · obtain ⟨old, hold, hsame⟩ := hev.inherited room hs hissued he
    rw [show e.pins = old.pins from hsame]
    exact hocc.pins r old hold hnew
  · rw [show e.pins = 0 from hev.made room hs hissued he]
    exact Nat.zero_le _

/-- What the first heap had handed out and is there now was there at first. -/
theorem mem_refs (hocc : h.Occupied base owed) (room : h.table.Addressable) {e}
    (he : h.entry? r = some e) (hissued : base.table.Issued r) : r ∈ base.table.refs := by
  obtain ⟨old, hold, -⟩ := hocc.evolves.inherited room hocc.sound hissued he
  exact (Table.mem_refs_iff hocc.sound.addressable).mpr ⟨old, hold⟩

/-- What is rooted was handed out at first, or is owed. -/
theorem issued_or_owed (hocc : h.Occupied base owed) {e} (he : h.entry? r = some e)
    (hrooted : h.isRooted r e) : base.table.Issued r ∨ r ∈ owed := by
  by_cases hissued : base.table.Issued r
  · exact Or.inl hissued
  · refine Or.inr (List.count_pos_iff.mp ?_)
    unfold isRooted roots at hrooted
    rw [hocc.scopes, List.flatten_nil, List.append_nil, Bool.or_eq_true, decide_eq_true_iff,
      List.contains_iff_mem] at hrooted
    rcases hrooted with hpinned | hnamed
    · exact Nat.lt_of_lt_of_le hpinned (hocc.pins r e he hissued)
    · exact (hissued (hocc.named r hnamed)).elim

/-- **A collection leaves what was there at first, and what is owed.** -/
theorem taken_sweep_le (hocc : h.Occupied base owed) (room : h.table.Addressable)
    (howed : ∀ r ∈ owed, base.table.Issued r ∨ r ∈ few) :
    (h.table.sweep h.isRooted).2.taken ≤ base.liveObjects + few.length := by
  have hroom : (h.table.sweep h.isRooted).2.Addressable := by
    unfold Table.Addressable
    rw [Table.length_sweep]
    exact room
  have hknown : ∀ r e, (h.table.sweep h.isRooted).2.get? r = some e →
      r ∈ base.table.refs ++ few := by
    intro r e he
    rw [Table.get?_sweep] at he
    obtain ⟨he, hrooted⟩ := Option.filter_eq_some_iff.mp he
    rw [List.mem_append]
    rcases (hocc.issued_or_owed he hrooted).elim Or.inl (howed r) with hissued | hmem
    · exact Or.inl (hocc.mem_refs room he hissued)
    · exact Or.inr hmem
  have hle := Table.taken_le_length hroom hknown
  rwa [List.length_append, Table.length_refs, hocc.counted] at hle

/-- **An allocation finds room for its object**: if a collection is due it leaves what was there at
first and what is owed, which is three objects at most. -/
theorem alloc (hocc : h.Occupied base owed) (made : Made F)
    (room : (h.alloc made.object).2.table.Addressable) (hfew : few.length ≤ 3)
    (howed : ∀ r ∈ owed, base.table.Issued r ∨ r ∈ few) :
    (h.alloc made.object).2.Occupied base owed := by
  have hdoes : h.Does (.alloc made (h.alloc made.object).1) (h.alloc made.object).2 := rfl
  have hroom := hdoes.evolves.addressable room
  refine ⟨hocc.sound, hocc.counted, hocc.evolves.trans hdoes.evolves, ?_, ?_, ?_, ?_,
    hdoes.taken_eq room (hocc.sound_now hroom) hocc.exact,
    fun r e => hocc.pins_evolves (evolves_alloc h rfl) room, ?_⟩
  · rw [config_alloc, hocc.config]
  · rw [hdoes.scopes, hocc.scopes]
    rfl
  · rw [globals_alloc]
    exact hocc.bound
  · rw [globals_alloc]
    exact hocc.named
  · -- a collection comes first and the count begins again, or it goes on by one
    rw [liveObjects_alloc, allocations_alloc]
    by_cases hdue : 0 < h.config.collectEvery ∧
        (h.stats.allocations + 1) % h.config.collectEvery = 0
    · have hleft := hocc.taken_sweep_le hroom howed
      rw [← table_prepare_of_due hdue, taken_prepare hocc.exact] at hleft
      omega
    · have hsame : h.prepare.liveObjects = h.liveObjects :=
        congrArg Table.live (table_prepare_of_not_due hdue)
      have hbounded := hocc.bounded
      have hnext := mod_succ_of_not_due hdue
      rw [hocc.config] at hnext
      omega

/-- Where room is left, there are no more objects. -/
theorem runs {log : List (HeapEvent F)} (hocc : h.Occupied base owed) (hruns : h.Runs log h')
    (hspares : ∀ event ∈ log, event.SparesRoom ∧ ∀ r, event ≠ .pin r)
    (room : h'.table.Addressable) : h'.Occupied base owed := by
  induction log generalizing h with
  | nil => exact hruns ▸ hocc
  | cons event log ih =>
    obtain ⟨m, hdoes, hruns⟩ := hruns
    obtain ⟨⟨hevent, hpin⟩, hlater⟩ := List.forall_mem_cons.mp hspares
    have hstep := hocc.does hdoes hevent (hruns.evolves.addressable room)
    refine ih (hstep.of_count_le fun r => ?_) hruns hlater
    cases event with
    | pin r => exact (hpin r rfl).elim
    | unpin q => exact List.Sublist.count_le r List.erase_sublist
    | _ => exact Nat.le_refl _

end Occupied

end Heap

end CallbackBridge
