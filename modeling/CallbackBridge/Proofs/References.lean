/-
# References never come back to life

A reference is a slot and a generation.  As long as every place of a table has a number
of its own, a reference leads to the object it was handed out for until that object is
swept, and to nothing ever after.

* `Sound` is the invariant: the free list holds exactly the empty places whose
  generations are not used up, each once.
* `Issued` says that a reference was handed out at some time.  It is never lost, and an
  insertion hands out a reference that was not issued before.
-/
import CallbackBridge.Heap.Table
import Mathlib.Data.List.Nodup
namespace CallbackBridge

namespace Slot

variable {α : Type}

/-- A place that is empty for good: its generations are used up. -/
def Spent (slot : Slot α) : Prop := slot.generation = 0 ∧ slot.data = none

end Slot

namespace Table

variable {α : Type} {t : Table α} {r : ObjRef} {v : α}

/-! ## The invariant -/

/-- Every place has a number of its own.  Numbers are 32-bit words, so a table with more
places would hand out the same reference twice. -/
def Addressable (t : Table α) : Prop := t.slots.length ≤ UInt32.size

instance (t : Table α) : Decidable t.Addressable := inferInstanceAs (Decidable (_ ≤ _))

/-- The free list holds exactly the empty places that can be taken again. -/
structure Sound (t : Table α) : Prop where
  /-- Every place has a number of its own. -/
  addressable : t.Addressable
  /-- No place is listed twice. -/
  free_nodup : t.free.Nodup
  /-- The listed places are the empty ones, save those that are empty for good. -/
  mem_free_iff : ∀ place, place ∈ t.free ↔
    ∃ slot, t.slots[place.toNat]? = some slot ∧ slot.data = none ∧ slot.generation ≠ 0

/-- The reference was handed out by the table at some time. -/
def Issued (t : Table α) (r : ObjRef) : Prop :=
  ∃ slot, t.slots[r.slot.toNat]? = some slot ∧
    (r.generation < slot.generation ∨
      (r.generation = slot.generation ∧ slot.data.isSome) ∨ slot.Spent)

/-- An empty table is sound. -/
theorem sound_empty : ({} : Table α).Sound where
  addressable := Nat.zero_le _
  free_nodup := List.nodup_nil
  mem_free_iff := by simp

/-- The number of a place leads back to the place. -/
theorem toNat_ofNat_of_lt {i : Nat} (h : i < UInt32.size) : (UInt32.ofNat i).toNat = i := by
  rw [UInt32.toNat_ofNat']
  exact Nat.mod_eq_of_lt h

/-- What a reference leads to, given the place that it names. -/
theorem get?_of_place {slot : Slot α} (h : t.slots[r.slot.toNat]? = some slot) :
    t.get? r = if slot.generation = r.generation then slot.data else none := by
  unfold get?
  rw [h]

/-- A reference leads to an object exactly through a place of its generation. -/
theorem get?_eq_some_iff :
    t.get? r = some v ↔
      ∃ slot, t.slots[r.slot.toNat]? = some slot ∧ slot.generation = r.generation ∧
        slot.data = some v := by
  unfold get?
  cases t.slots[r.slot.toNat]? with
  | none => simp
  | some slot => by_cases h : slot.generation = r.generation <;> simp [h]

/-- A reference that leads to an object was handed out. -/
theorem issued_of_get? (h : t.get? r = some v) : t.Issued r := by
  obtain ⟨slot, hslot, hgen, hdata⟩ := get?_eq_some_iff.mp h
  exact ⟨slot, hslot, Or.inr (Or.inl ⟨hgen.symm, by simp [hdata]⟩)⟩

/-! ## Insertion -/

/-- The number of places only grows. -/
theorem length_le_length_insert (t : Table α) (v : α) :
    t.slots.length ≤ (t.insert v).2.slots.length := by
  unfold insert
  split <;> simp

/-- The two ways of an insertion: it takes the first free place, or makes a new one. -/
theorem Sound.insert_cases (h : t.Sound) (v : α) :
    (∃ place free slot, t.free = place :: free ∧ t.slots[place.toNat]? = some slot ∧
      slot.data = none ∧ slot.generation ≠ 0 ∧
      t.insert v = (⟨place, slot.generation⟩,
        { slots := t.slots.set place.toNat ⟨slot.generation, some v⟩, free,
          live := t.live + 1 })) ∨
    (t.free = [] ∧ t.insert v = (⟨UInt32.ofNat t.slots.length, 0⟩,
      { t with slots := t.slots ++ [⟨0, some v⟩], live := t.live + 1 })) := by
  cases hfree : t.free with
  | nil => exact Or.inr ⟨rfl, by simp [insert, hfree]⟩
  | cons place free =>
    obtain ⟨slot, hslot, hdata, hgen⟩ :=
      (h.mem_free_iff place).mp (by rw [hfree]; exact List.mem_cons_self)
    exact Or.inl ⟨place, free, slot, rfl, hslot, hdata, hgen, by simp [insert, hfree, hslot]⟩

/-- An insertion that stays addressable hands out a place number that is its own. -/
theorem new_place_lt (hfree : t.free = []) (room : (t.insert v).2.Addressable) :
    t.slots.length < UInt32.size := by
  have hlen : (t.insert v).2.slots.length = t.slots.length + 1 := by
    simp [insert, hfree]
  unfold Addressable at room
  omega

/-- A new reference was never handed out before. -/
theorem Sound.not_issued_insert (h : t.Sound) (room : (t.insert v).2.Addressable) :
    ¬ t.Issued (t.insert v).1 := by
  rintro ⟨slot', hslot', hissued⟩
  rcases h.insert_cases v with ⟨place, free, slot, -, hslot, hdata, hgen, heq⟩ | ⟨hfree, heq⟩
  · rw [heq] at hslot' hissued
    have hsame : slot = slot' := Option.some_inj.mp (hslot.symm.trans hslot')
    subst hsame
    -- a free place holds nothing, and its present generation was not handed out
    rcases hissued with hlt | ⟨-, hsome⟩ | hspent
    · exact absurd hlt (UInt32.lt_irrefl _)
    · simp [hdata] at hsome
    · exact hgen hspent.1
  · have hlt := new_place_lt hfree room
    rw [heq] at hslot'
    simp only [toNat_ofNat_of_lt hlt] at hslot'
    simp at hslot'

/-- A new reference leads to the inserted object. -/
theorem Sound.get?_insert_self (h : t.Sound) (room : (t.insert v).2.Addressable) :
    (t.insert v).2.get? (t.insert v).1 = some v := by
  rw [get?_eq_some_iff]
  rcases h.insert_cases v with ⟨place, free, slot, -, hslot, -, -, heq⟩ | ⟨hfree, heq⟩
  · have hlt : place.toNat < t.slots.length := (List.getElem?_eq_some_iff.mp hslot).1
    rw [heq]
    exact ⟨⟨slot.generation, some v⟩, by simp [hlt], rfl, rfl⟩
  · have hlt := new_place_lt hfree room
    rw [heq]
    exact ⟨⟨0, some v⟩, by simp [toNat_ofNat_of_lt hlt], rfl, rfl⟩

/-- No other reference notices an insertion. -/
theorem Sound.get?_insert_of_ne (h : t.Sound) (room : (t.insert v).2.Addressable)
    (hne : r ≠ (t.insert v).1) : (t.insert v).2.get? r = t.get? r := by
  rcases h.insert_cases v with ⟨place, free, slot, -, hslot, hdata, -, heq⟩ | ⟨hfree, heq⟩
  · rw [heq] at hne ⊢
    by_cases hplace : place = r.slot
    · -- same place, so another generation: neither table knows the reference
      subst hplace
      have hlt : r.slot.toNat < t.slots.length := (List.getElem?_eq_some_iff.mp hslot).1
      have hgen : slot.generation ≠ r.generation := by
        intro hgen
        exact hne (by cases r; simp_all)
      rw [get?_of_place hslot, get?_of_place (List.getElem?_set_self hlt), if_neg hgen,
        if_neg hgen]
    · have hindex : place.toNat ≠ r.slot.toNat := fun hc => hplace (UInt32.toNat_inj.mp hc)
      simp [get?, List.getElem?_set_ne hindex]
  · -- a new place: the reference names an old one, this one or none at all
    have hlt := new_place_lt hfree room
    rw [heq] at hne ⊢
    by_cases hold : r.slot.toNat < t.slots.length
    · simp [get?, List.getElem?_append_left hold]
    · by_cases hplace : r.slot.toNat = t.slots.length
      · have hgen : (0 : UInt32) ≠ r.generation := by
          intro hgen
          apply hne
          cases r
          simp only at hplace hgen
          simp [← hplace, ← hgen]
        simp [get?, hplace, hgen]
      · have hnew : (t.slots ++ [⟨0, some v⟩])[r.slot.toNat]? = none := by
          rw [List.getElem?_eq_none_iff]
          simp only [List.length_append, List.length_singleton]
          omega
        have hout : t.slots[r.slot.toNat]? = none := by
          rw [List.getElem?_eq_none_iff]
          omega
        simp [get?, hnew, hout]

/-- An insertion keeps the free list right. -/
theorem Sound.insert (h : t.Sound) (room : (t.insert v).2.Addressable) :
    (t.insert v).2.Sound := by
  refine ⟨room, ?_, ?_⟩
  · rcases h.insert_cases v with ⟨place, free, slot, hfree, -, -, -, heq⟩ | ⟨hfree, heq⟩
    · have hnodup := h.free_nodup
      rw [hfree] at hnodup
      rw [heq]
      exact (List.nodup_cons.mp hnodup).2
    · rw [heq]
      exact h.free_nodup
  · intro other
    rcases h.insert_cases v with ⟨place, free, slot, hfree, hslot, -, -, heq⟩ | ⟨hfree, heq⟩
    · have hlt : place.toNat < t.slots.length := (List.getElem?_eq_some_iff.mp hslot).1
      have hnodup := h.free_nodup
      have hmem := h.mem_free_iff other
      rw [hfree] at hnodup hmem
      rw [heq]
      -- the place that is taken leaves the list, and no other place changes
      by_cases hother : other = place
      · subst hother
        have hnot : other ∉ free := (List.nodup_cons.mp hnodup).1
        simp [hnot, hlt]
      · have hindex : place.toNat ≠ other.toNat :=
          fun hc => hother (UInt32.toNat_inj.mp hc).symm
        rw [List.mem_cons] at hmem
        simp only [hother, false_or] at hmem
        simpa [List.getElem?_set_ne hindex] using hmem
    · have hmem := h.mem_free_iff other
      rw [heq]
      by_cases hold : other.toNat < t.slots.length
      · simpa [List.getElem?_append_left hold] using hmem
      · -- the new place is taken at once
        rw [hfree] at hmem ⊢
        have hnone : ¬ ∃ slot, (t.slots ++ [⟨0, some v⟩])[other.toNat]? = some slot ∧
            slot.data = none ∧ slot.generation ≠ 0 := by
          rintro ⟨slot, hslot, hdata, -⟩
          rw [List.getElem?_append_right (by omega)] at hslot
          simp only [List.getElem?_singleton] at hslot
          split at hslot
          · cases hslot
            simp at hdata
          · simp at hslot
        simpa using hnone

/-- An insertion forgets no reference. -/
theorem Sound.issued_insert (h : t.Sound) (hr : t.Issued r) : (t.insert v).2.Issued r := by
  obtain ⟨slot', hslot', hissued⟩ := hr
  rcases h.insert_cases v with ⟨place, free, slot, -, hslot, hdata, hgen, heq⟩ | ⟨-, heq⟩
  · have hlt : place.toNat < t.slots.length := (List.getElem?_eq_some_iff.mp hslot).1
    rw [heq]
    -- a reference to the place that is taken is older than its generation
    by_cases hplace : place = r.slot
    · subst hplace
      have hsame : slot = slot' := Option.some_inj.mp (hslot.symm.trans hslot')
      subst hsame
      refine ⟨⟨slot.generation, some v⟩, by simp [hlt], ?_⟩
      rcases hissued with hless | ⟨-, hsome⟩ | hspent
      · exact Or.inl hless
      · simp [hdata] at hsome
      · exact absurd hspent.1 hgen
    · have hindex : place.toNat ≠ r.slot.toNat := fun hc => hplace (UInt32.toNat_inj.mp hc)
      exact ⟨slot', by simp [List.getElem?_set_ne hindex, hslot'], hissued⟩
  · have hlt : r.slot.toNat < t.slots.length := (List.getElem?_eq_some_iff.mp hslot').1
    rw [heq]
    exact ⟨slot', by simp [List.getElem?_append_left hlt, hslot'], hissued⟩

/-! ## Change in place -/

/-- A change in place makes no new places. -/
theorem length_modify (t : Table α) (r : ObjRef) (f : α → α) :
    (t.modify r f).slots.length = t.slots.length := by
  unfold modify
  split <;> simp

/-- A table that was changed in place has as many places as before. -/
theorem addressable_of_modify {f : α → α} (h : (t.modify r f).Addressable) : t.Addressable := by
  unfold Addressable at h ⊢
  rwa [length_modify] at h

/-- A change in place through a reference that leads to nothing is none. -/
theorem modify_of_eq_none {r : ObjRef} (hnone : t.get? r = none) (f : α → α) :
    t.modify r f = t := by
  unfold modify
  rw [hnone]

/-- A change in place is seen through its own reference only. -/
theorem get?_modify (t : Table α) (r q : ObjRef) (f : α → α) :
    (t.modify r f).get? q = if q = r then (t.get? r).map f else t.get? q := by
  unfold modify
  cases hget : t.get? r with
  | none =>
    by_cases hsame : q = r
    · rw [if_pos hsame, hsame, Option.map_none]
      exact hget
    · rw [if_neg hsame]
  | some value =>
    obtain ⟨slot, hslot, hgen, -⟩ := get?_eq_some_iff.mp hget
    have hlt : r.slot.toNat < t.slots.length := (List.getElem?_eq_some_iff.mp hslot).1
    by_cases hplace : r.slot = q.slot
    · by_cases hsame : q = r
      · subst hsame
        simp [get?, hlt]
      · have hother : r.generation ≠ q.generation := by
          intro hc
          exact hsame (by cases r; cases q; simp_all)
        rw [hplace] at hslot hlt
        rw [if_neg hsame, get?_of_place hslot, hplace,
          get?_of_place (List.getElem?_set_self hlt), if_neg hother, hgen, if_neg hother]
    · have hne : q ≠ r := fun hc => hplace (by rw [hc])
      have hindex : r.slot.toNat ≠ q.slot.toNat := fun hc => hplace (UInt32.toNat_inj.mp hc)
      rw [if_neg hne]
      simp [get?, List.getElem?_set_ne hindex]

/-- After a change in place, a place is empty, and of which generation, as before. -/
theorem getElem?_modify (t : Table α) (r : ObjRef) (f : α → α) (i : Nat) :
    ((t.modify r f).slots[i]?).map (fun slot => (slot.generation, slot.data.isSome)) =
      (t.slots[i]?).map fun slot => (slot.generation, slot.data.isSome) := by
  unfold modify
  cases hget : t.get? r with
  | none => rfl
  | some value =>
    obtain ⟨slot, hslot, hgen, hdata⟩ := get?_eq_some_iff.mp hget
    have hlt : r.slot.toNat < t.slots.length := (List.getElem?_eq_some_iff.mp hslot).1
    by_cases hi : r.slot.toNat = i
    · rw [← hi, hslot, List.getElem?_set_self hlt]
      simp [hgen, hdata]
    · simp [List.getElem?_set_ne hi]

/-- A place after a change in place, for what does not depend on the object in it. -/
theorem exists_place_modify {f : α → α} {i : Nat} {slot : Slot α}
    (h : (t.modify r f).slots[i]? = some slot) :
    ∃ old, t.slots[i]? = some old ∧ old.generation = slot.generation ∧
      old.data.isSome = slot.data.isSome := by
  have hmap := getElem?_modify t r f i
  rw [h] at hmap
  obtain ⟨old, hold, heq⟩ := Option.map_eq_some_iff.mp hmap.symm
  simp only [Prod.mk.injEq] at heq
  exact ⟨old, hold, heq.1, heq.2⟩

/-- The other way round: each place is still there after a change in place. -/
theorem exists_place_of_modify {f : α → α} {i : Nat} {slot : Slot α}
    (h : t.slots[i]? = some slot) :
    ∃ new, (t.modify r f).slots[i]? = some new ∧ new.generation = slot.generation ∧
      new.data.isSome = slot.data.isSome := by
  have hmap := getElem?_modify t r f i
  rw [h] at hmap
  obtain ⟨new, hnew, heq⟩ := Option.map_eq_some_iff.mp hmap
  simp only [Prod.mk.injEq] at heq
  exact ⟨new, hnew, heq.1, heq.2⟩

/-- A change in place leaves the free list alone. -/
theorem free_modify (t : Table α) (r : ObjRef) (f : α → α) : (t.modify r f).free = t.free := by
  unfold modify
  split <;> rfl

/-- A change in place keeps the free list right. -/
theorem Sound.modify (h : t.Sound) (r : ObjRef) (f : α → α) : (t.modify r f).Sound := by
  refine ⟨?_, ?_, ?_⟩
  · unfold Addressable
    rw [length_modify]
    exact h.addressable
  · rw [free_modify]
    exact h.free_nodup
  · intro place
    rw [free_modify, h.mem_free_iff place]
    constructor
    · rintro ⟨slot, hslot, hdata, hgen⟩
      obtain ⟨new, hnew, hgen', hdata'⟩ := exists_place_of_modify (r := r) (f := f) hslot
      exact ⟨new, hnew, by simpa [hdata] using hdata', hgen' ▸ hgen⟩
    · rintro ⟨slot, hslot, hdata, hgen⟩
      obtain ⟨old, hold, hgen', hdata'⟩ := exists_place_modify hslot
      exact ⟨old, hold, by simpa [hdata] using hdata', hgen' ▸ hgen⟩

/-- A change in place forgets no reference. -/
theorem Issued.modify {q : ObjRef} (hq : t.Issued q) (r : ObjRef) (f : α → α) :
    (t.modify r f).Issued q := by
  obtain ⟨slot, hslot, hissued⟩ := hq
  obtain ⟨new, hnew, hgen, hdata⟩ := exists_place_of_modify (r := r) (f := f) hslot
  refine ⟨new, hnew, ?_⟩
  rcases hissued with hlt | ⟨hsame, hsome⟩ | ⟨hzero, hnone⟩
  · exact Or.inl (hgen ▸ hlt)
  · exact Or.inr (Or.inl ⟨hgen ▸ hsame, hdata ▸ hsome⟩)
  · exact Or.inr (Or.inr ⟨hgen ▸ hzero, by simpa [hnone] using hdata⟩)

/-! ## Sweeping -/

variable {keep : ObjRef → α → Bool}

/-- A sweep makes no new places. -/
theorem length_sweep (t : Table α) (keep : ObjRef → α → Bool) :
    (t.sweep keep).2.slots.length = t.slots.length := by
  simp [sweep]

/-- A place after a sweep. -/
theorem getElem?_sweep (t : Table α) (keep : ObjRef → α → Bool) (i : Nat) :
    (t.sweep keep).2.slots[i]? =
      (t.slots[i]?).map fun slot => if dooms keep i slot then vacate slot else slot := by
  simp [sweep]

/-- A sweep keeps exactly the objects it is told to keep. -/
theorem get?_sweep (t : Table α) (keep : ObjRef → α → Bool) (r : ObjRef) :
    (t.sweep keep).2.get? r = (t.get? r).filter (keep r) := by
  cases hslot : t.slots[r.slot.toNat]? with
  | none => simp [get?, getElem?_sweep, hslot]
  | some slot =>
    have hnew := getElem?_sweep t keep r.slot.toNat
    rw [hslot, Option.map_some] at hnew
    rw [get?_of_place hslot, get?_of_place hnew]
    cases hdata : slot.data with
    | none => simp [dooms, hdata]
    | some value =>
      have hname : dooms keep r.slot.toNat slot = !keep ⟨r.slot, slot.generation⟩ value := by
        simp [dooms, hdata]
      rw [hname]
      by_cases hgen : slot.generation = r.generation
      · rw [hgen]
        cases hkeep : keep r value <;> simp [Option.filter, hkeep, hgen, hdata, vacate]
      · cases hkeep : keep ⟨r.slot, slot.generation⟩ value <;> simp [hgen, vacate]

/-- The places that a sweep puts on the free list. -/
theorem mem_free_sweep_iff (h : t.Addressable) (place : UInt32) :
    place ∈ (t.sweep keep).2.free ↔
      place ∈ t.free ∨ ∃ slot, t.slots[place.toNat]? = some slot ∧
        dooms keep place.toNat slot ∧ (vacate slot).generation ≠ 0 := by
  simp only [sweep, List.mem_append, List.mem_reverse, List.mem_map, List.mem_filter]
  rw [or_comm]
  refine or_congr_right ?_
  constructor
  · rintro ⟨⟨slot, i⟩, ⟨⟨hmem, hdoomed⟩, hgen⟩, rfl⟩
    have hslot := List.mem_zipIdx_iff_getElem?.mp hmem
    have hlt : i < t.slots.length := (List.getElem?_eq_some_iff.mp hslot).1
    have hindex : (UInt32.ofNat i).toNat = i := toNat_ofNat_of_lt (Nat.lt_of_lt_of_le hlt h)
    rw [hindex]
    exact ⟨slot, hslot, hdoomed, by simpa using hgen⟩
  · rintro ⟨slot, hslot, hdoomed, hgen⟩
    exact ⟨(slot, place.toNat),
      ⟨⟨List.mem_zipIdx_iff_getElem?.mpr hslot, hdoomed⟩, by simpa using hgen⟩,
      UInt32.ofNat_toNat⟩

/-- Each place is numbered once. -/
theorem nodup_zipIdx (t : Table α) : t.slots.zipIdx.Nodup := by
  have hindices : (t.slots.zipIdx.map Prod.snd).Nodup := by
    rw [List.zipIdx_map_snd]
    exact List.nodup_range'
  exact hindices.of_map _

/-- Places with equal numbers are equal, as long as there are numbers enough. -/
theorem Addressable.eq_of_number_eq (h : t.Addressable) {entry entry' : Slot α × Nat}
    (hentry : entry ∈ t.slots.zipIdx) (hentry' : entry' ∈ t.slots.zipIdx)
    (heq : UInt32.ofNat entry.2 = UInt32.ofNat entry'.2) : entry = entry' := by
  obtain ⟨slot, i⟩ := entry
  obtain ⟨slot', j⟩ := entry'
  have hi := List.mem_zipIdx_iff_getElem?.mp hentry
  have hj := List.mem_zipIdx_iff_getElem?.mp hentry'
  have hlti : i < UInt32.size := Nat.lt_of_lt_of_le (List.getElem?_eq_some_iff.mp hi).1 h
  have hltj : j < UInt32.size := Nat.lt_of_lt_of_le (List.getElem?_eq_some_iff.mp hj).1 h
  have hij : i = j := by
    rw [← toNat_ofNat_of_lt hlti, ← toNat_ofNat_of_lt hltj]
    exact congrArg UInt32.toNat heq
  simp only at hi hj
  rw [hij, hj] at hi
  rw [hij, Option.some_inj.mp hi]

/-- A sweep lists each place that it frees once. -/
theorem nodup_recyclable (h : t.Addressable) (keep : ObjRef → α → Bool) :
    (((t.slots.zipIdx.filter fun entry => dooms keep entry.2 entry.1).filter
      fun entry => (vacate entry.1).generation ≠ 0).map fun entry =>
        UInt32.ofNat entry.2).Nodup := by
  refine List.Nodup.map_on ?_ ((t.nodup_zipIdx.filter _).filter _)
  intro entry hentry entry' hentry' heq
  exact h.eq_of_number_eq (List.mem_filter.mp (List.mem_filter.mp hentry).1).1
    (List.mem_filter.mp (List.mem_filter.mp hentry').1).1 heq

/-- A sweep keeps the free list right. -/
theorem Sound.sweep (h : t.Sound) (keep : ObjRef → α → Bool) : (t.sweep keep).2.Sound := by
  refine ⟨?_, ?_, ?_⟩
  · unfold Addressable
    rw [length_sweep]
    exact h.addressable
  · simp only [Table.sweep]
    rw [List.nodup_append]
    refine ⟨List.nodup_reverse.mpr (nodup_recyclable h.addressable keep), h.free_nodup, ?_⟩
    -- a place that is freed was taken, and a listed place was empty
    rintro place hfreed _ hlisted rfl
    simp only [List.mem_reverse, List.mem_map, List.mem_filter] at hfreed
    obtain ⟨⟨slot, i⟩, ⟨⟨hmem, hdoomed⟩, -⟩, rfl⟩ := hfreed
    have hslot := List.mem_zipIdx_iff_getElem?.mp hmem
    have hlt : i < UInt32.size :=
      Nat.lt_of_lt_of_le (List.getElem?_eq_some_iff.mp hslot).1 h.addressable
    obtain ⟨slot', hslot', hdata, -⟩ := (h.mem_free_iff _).mp hlisted
    rw [toNat_ofNat_of_lt hlt] at hslot'
    have hsame : slot = slot' := Option.some_inj.mp (hslot.symm.trans hslot')
    simp [dooms, hsame, hdata] at hdoomed
  · intro place
    rw [mem_free_sweep_iff h.addressable, h.mem_free_iff, getElem?_sweep]
    cases hslot : t.slots[place.toNat]? with
    | none => simp
    | some slot =>
      cases hdata : slot.data with
      | none => simp [dooms, hdata]
      | some value =>
        cases hdoomed : dooms keep place.toNat slot <;> simp [hdoomed, hdata, vacate]

/-- The next generation is greater, unless the generations are used up. -/
theorem lt_add_one_of_le {a b : UInt32} (h : a ≤ b) (hwrap : b + 1 ≠ 0) : a < b + 1 := by
  have hnat : (b + 1).toNat = (b.toNat + 1) % 4294967296 := UInt32.toNat_add b 1
  have hne : (b + 1).toNat ≠ 0 := fun hc => hwrap (UInt32.toNat_inj.mp hc)
  have hlt : b.toNat < 4294967296 := b.toNat_lt_size
  rw [UInt32.le_iff_toNat_le] at h
  rw [UInt32.lt_iff_toNat_lt]
  omega

/-- A sweep forgets no reference. -/
theorem Issued.sweep (hr : t.Issued r) (keep : ObjRef → α → Bool) :
    (t.sweep keep).2.Issued r := by
  obtain ⟨slot, hslot, hissued⟩ := hr
  refine ⟨_, by rw [getElem?_sweep, hslot, Option.map_some], ?_⟩
  cases hdoomed : dooms keep r.slot.toNat slot with
  | false => simpa using hissued
  | true =>
    -- the place goes to its next generation, or has none left
    by_cases hwrap : slot.generation + 1 = 0
    · exact Or.inr (Or.inr ⟨hwrap, rfl⟩)
    · refine Or.inl ?_
      have hle : r.generation ≤ slot.generation := by
        rcases hissued with hlt | ⟨hsame, -⟩ | ⟨-, hnone⟩
        · exact UInt32.le_of_lt hlt
        · exact UInt32.le_of_eq hsame
        · simp [dooms, hnone] at hdoomed
      exact lt_add_one_of_le hle hwrap

/-! ## Evolution

What a run of steps can have done to a table, given what each step may do to an object. -/

/-- What may happen to the objects of a table. -/
structure Regime (α : Type) where
  /-- An object may become another one in the same place. -/
  change : α → α → Prop
  /-- An object may be put in. -/
  fresh : α → Prop
  /-- An object may stay as it is. -/
  refl : ∀ a, change a a
  /-- Changes may follow each other. -/
  trans : ∀ {a b c}, change a b → change b c → change a c
  /-- A new object may be changed later. -/
  inherit : ∀ {a b}, fresh a → change a b → fresh b

/-- The table `t'` comes from `t` by steps that keep to a regime.  Nothing is said once
there are more places than numbers. -/
structure Evolves (regime : Regime α) (t t' : Table α) : Prop where
  /-- Places are not given up. -/
  grows : t.slots.length ≤ t'.slots.length
  /-- The free list stays right. -/
  sound : t'.Addressable → t.Sound → t'.Sound
  /-- Issued references stay issued. -/
  issued : t'.Addressable → t.Sound → ∀ {r}, t.Issued r → t'.Issued r
  /-- What an issued reference leads to was there before. -/
  inherited : t'.Addressable → t.Sound → ∀ {r v'}, t.Issued r → t'.get? r = some v' →
    ∃ v, t.get? r = some v ∧ regime.change v v'
  /-- What a later reference leads to was put in since. -/
  made : t'.Addressable → t.Sound → ∀ {r v'}, ¬ t.Issued r → t'.get? r = some v' →
    regime.fresh v'

namespace Evolves

variable {regime : Regime α} {t' t'' : Table α}

/-- An evolved table that is addressable comes from an addressable one. -/
theorem addressable (h : t.Evolves regime t') (room : t'.Addressable) : t.Addressable :=
  Nat.le_trans h.grows room

/-- An object that is still there has changed only as the regime allows. -/
theorem exists_change (h : t.Evolves regime t') (room : t'.Addressable) (hs : t.Sound)
    (hr : t.get? r = some v) (hsome : (t'.get? r).isSome) :
    ∃ v', t'.get? r = some v' ∧ regime.change v v' := by
  obtain ⟨v', hv'⟩ := Option.isSome_iff_exists.mp hsome
  obtain ⟨old, hold, hchange⟩ := h.inherited room hs (issued_of_get? hr) hv'
  cases hr.symm.trans hold
  exact ⟨v', hv', hchange⟩

/-- Doing nothing keeps to every regime. -/
theorem refl (t : Table α) : t.Evolves regime t where
  grows := Nat.le_refl _
  sound _ h := h
  issued _ _ _ h := h
  inherited _ _ _ _ _ h := ⟨_, h, regime.refl _⟩
  made _ _ _ _ hnot h := absurd (issued_of_get? h) hnot

/-- Evolutions follow each other. -/
theorem trans (h : t.Evolves regime t') (h' : t'.Evolves regime t'') :
    t.Evolves regime t'' where
  grows := Nat.le_trans h.grows h'.grows
  sound room hs := h'.sound room (h.sound (h'.addressable room) hs)
  issued room hs _ hr :=
    h'.issued room (h.sound (h'.addressable room) hs) (h.issued (h'.addressable room) hs hr)
  inherited := by
    intro room hs r v'' hr hget
    have hs' := h.sound (h'.addressable room) hs
    have hr' := h.issued (h'.addressable room) hs hr
    obtain ⟨v', hget', hchange'⟩ := h'.inherited room hs' hr' hget
    obtain ⟨v, hget, hchange⟩ := h.inherited (h'.addressable room) hs hr hget'
    exact ⟨v, hget, regime.trans hchange hchange'⟩
  made := by
    intro room hs r v'' hr hget
    have hs' := h.sound (h'.addressable room) hs
    -- it was put in by the first part and changed since, or put in by the second
    by_cases hr' : t'.Issued r
    · obtain ⟨v', hget', hchange'⟩ := h'.inherited room hs' hr' hget
      exact regime.inherit (h.made (h'.addressable room) hs hr hget') hchange'
    · exact h'.made room hs' hr' hget

/-- What keeps to a regime keeps to every regime that allows more. -/
theorem mono {coarser : Regime α} (h : t.Evolves regime t')
    (hchange : ∀ {v v'}, regime.change v v' → coarser.change v v')
    (hfresh : ∀ {v}, regime.fresh v → coarser.fresh v) : t.Evolves coarser t' where
  grows := h.grows
  sound := h.sound
  issued := h.issued
  inherited := by
    intro room hs r v' hr hget
    obtain ⟨v, hv, hvv'⟩ := h.inherited room hs hr hget
    exact ⟨v, hv, hchange hvv'⟩
  made room hs _ _ hr hget := hfresh (h.made room hs hr hget)

/-- An insertion puts one object in. -/
theorem insert (t : Table α) (hv : regime.fresh v) : t.Evolves regime (t.insert v).2 where
  grows := length_le_length_insert t v
  sound room hs := hs.insert room
  issued _ hs _ hr := hs.issued_insert hr
  inherited := by
    intro room hs r v' hr hget
    have hne : r ≠ (t.insert v).1 := fun hc => hs.not_issued_insert room (hc ▸ hr)
    rw [hs.get?_insert_of_ne room hne] at hget
    exact ⟨v', hget, regime.refl _⟩
  made := by
    intro room hs r v' hr hget
    by_cases hne : r = (t.insert v).1
    · rw [hne, hs.get?_insert_self room] at hget
      exact Option.some_inj.mp hget ▸ hv
    · rw [hs.get?_insert_of_ne room hne] at hget
      exact absurd (issued_of_get? hget) hr

/-- A change in place changes one object. -/
theorem modify (t : Table α) (r : ObjRef) {f : α → α}
    (hf : ∀ v, t.get? r = some v → regime.change v (f v)) :
    t.Evolves regime (t.modify r f) where
  grows := Nat.le_of_eq (length_modify t r f).symm
  sound _ hs := hs.modify r f
  issued _ _ _ hr := hr.modify r f
  inherited := by
    intro _ _ q v' _ hget
    rw [get?_modify] at hget
    by_cases hq : q = r
    · rw [if_pos hq] at hget
      obtain ⟨v, hv, rfl⟩ := Option.map_eq_some_iff.mp hget
      exact ⟨v, hq ▸ hv, hf v hv⟩
    · rw [if_neg hq] at hget
      exact ⟨v', hget, regime.refl _⟩
  made := by
    intro _ _ q v' hq hget
    rw [get?_modify] at hget
    by_cases hsame : q = r
    · rw [if_pos hsame] at hget
      obtain ⟨v, hv, -⟩ := Option.map_eq_some_iff.mp hget
      exact absurd (issued_of_get? (hsame ▸ hv)) hq
    · rw [if_neg hsame] at hget
      exact absurd (issued_of_get? hget) hq

/-- A sweep only takes objects away. -/
theorem sweep (t : Table α) (keep : ObjRef → α → Bool) :
    t.Evolves regime (t.sweep keep).2 where
  grows := Nat.le_of_eq (length_sweep t keep).symm
  sound _ hs := hs.sweep keep
  issued _ _ _ hr := hr.sweep keep
  inherited := by
    intro _ _ r v' _ hget
    rw [get?_sweep] at hget
    exact ⟨v', (Option.filter_eq_some_iff.mp hget).1, regime.refl _⟩
  made := by
    intro _ _ r v' hr hget
    rw [get?_sweep] at hget
    exact absurd (issued_of_get? (Option.filter_eq_some_iff.mp hget).1) hr

end Evolves

end Table

end CallbackBridge
