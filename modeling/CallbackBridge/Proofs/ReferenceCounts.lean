/-
# What reference counts count

An object is alive if a root leads to it, or an object that holds itself; only the references of
living objects count.

* `Store.Leads` says that references lead from one object to another, and `Store.Lives` that an
  object is alive.
* `Store.mem_reachable` and `Store.mem_circular` say that the searches find all such objects: each
  round of a search that finds something new goes through an object that holds something, and there
  are no more of these than objects.
* `Store.references_eq` and `count_flatMap_of_mem` take a count apart.
-/
import Mathlib.Data.List.Nodup
import Mathlib.Logic.Relation
import CallbackBridge.Counted.Store
namespace CallbackBridge

variable {G : Type}

namespace Store

variable {s : Store G} {roots : List ObjId}

/-! ## Living objects -/

/-- References lead from the first object to the second one. -/
def Leads (s : Store G) : ObjId → ObjId → Prop :=
  Relation.ReflTransGen fun holder held => held ∈ s.heldBy holder

/-- The object holds itself, directly or through others. -/
def HoldsItself (s : Store G) (o : ObjId) : Prop := ∃ held ∈ s.heldBy o, s.Leads held o

/-- The object is alive: a root leads to it, or an object that holds itself. -/
def Lives (s : Store G) (roots : List ObjId) (o : ObjId) : Prop :=
  ∃ root, (root ∈ roots ∨ s.HoldsItself root) ∧ s.Leads root o

/-- Roots are alive. -/
theorem lives_of_mem {o : ObjId} (h : o ∈ roots) : s.Lives roots o := ⟨o, Or.inl h, .refl⟩

/-- What living objects lead to is alive. -/
theorem Lives.leads {o o' : ObjId} (h : s.Lives roots o) (hleads : s.Leads o o') :
    s.Lives roots o' := by
  obtain ⟨root, hroot, hlead⟩ := h
  exact ⟨root, hroot, hlead.trans hleads⟩

/-- More roots keep more objects alive. -/
theorem Lives.mono {more : List ObjId} {o : ObjId} (h : s.Lives roots o)
    (hmore : ∀ root ∈ roots, s.Lives more root) : s.Lives more o := by
  obtain ⟨root, hroot | hitself, hleads⟩ := h
  · exact (hmore root hroot).leads hleads
  · exact ⟨root, Or.inr hitself, hleads⟩

/-- What holds something has been made. -/
theorem lt_of_mem_heldBy {o held : ObjId} (h : held ∈ s.heldBy o) :
    o.index < s.objects.size := by
  unfold heldBy get? at h
  cases hget : s.objects[o.index]? with
  | none =>
    rw [hget] at h
    cases h
  | some object => exact (Array.getElem?_eq_some_iff.mp hget).1

/-! ## The search -/

/-- The objects that a round of a search adds. -/
def fresh (s : Store G) (found frontier : List ObjId) : List ObjId :=
  ((frontier.flatMap s.heldBy).filter fun id => !found.contains id).eraseDups

theorem close_succ (s : Store G) (rounds : Nat) (found frontier : List ObjId) :
    s.close (rounds + 1) found frontier =
      if (s.fresh found frontier).isEmpty then found
      else s.close rounds (found ++ s.fresh found frontier) (s.fresh found frontier) := rfl

theorem mem_fresh {found frontier : List ObjId} {o : ObjId} :
    o ∈ s.fresh found frontier ↔ (∃ holder ∈ frontier, o ∈ s.heldBy holder) ∧ o ∉ found := by
  unfold fresh
  rw [List.mem_eraseDups, List.mem_filter, List.mem_flatMap]
  simp

/-- What is found stays found. -/
theorem subset_close (rounds : Nat) (found frontier : List ObjId) :
    ∀ o ∈ found, o ∈ s.close rounds found frontier := by
  induction rounds generalizing found frontier with
  | zero => exact fun o ho => ho
  | succ rounds ih =>
    intro o ho
    rw [close_succ]
    split
    · exact ho
    · exact ih _ _ o (List.mem_append_left _ ho)

/-- A search finds only what references lead to. -/
theorem leads_of_mem_close {rounds : Nat} {found frontier : List ObjId} {o : ObjId}
    (hfound : ∀ o ∈ found, ∃ root ∈ roots, s.Leads root o) (hfrontier : ∀ o ∈ frontier, o ∈ found)
    (h : o ∈ s.close rounds found frontier) : ∃ root ∈ roots, s.Leads root o := by
  induction rounds generalizing found frontier with
  | zero => exact hfound o h
  | succ rounds ih =>
    rw [close_succ] at h
    split at h
    · exact hfound o h
    · refine ih ?_ (fun o ho => List.mem_append_right _ ho) h
      intro o ho
      rcases List.mem_append.mp ho with ho | ho
      · exact hfound o ho
      · obtain ⟨⟨holder, hholder, hheld⟩, -⟩ := mem_fresh.mp ho
        obtain ⟨root, hroot, hleads⟩ := hfound holder (hfrontier holder hholder)
        exact ⟨root, hroot, hleads.tail hheld⟩

/-- Erasing duplicates leaves none. -/
theorem nodup_eraseDups {α : Type} [DecidableEq α] (l : List α) : l.eraseDups.Nodup := by
  induction hlength : l.length using Nat.strongRecOn generalizing l with
  | ind n ih =>
    cases l with
    | nil => simp
    | cons a rest =>
      rw [List.eraseDups_cons, List.nodup_cons, List.mem_eraseDups]
      refine ⟨by simp, ih _ ?_ _ rfl⟩
      rw [← hlength, List.length_cons]
      exact Nat.lt_succ_of_le (List.length_filter_le _ rest)

/-- A search finds each object once. -/
theorem nodup_close {rounds : Nat} {found frontier : List ObjId} (h : found.Nodup) :
    (s.close rounds found frontier).Nodup := by
  induction rounds generalizing found frontier with
  | zero => exact h
  | succ rounds ih =>
    rw [close_succ]
    split
    · exact h
    · refine ih (List.nodup_append.mpr ⟨h, nodup_eraseDups _, ?_⟩)
      rintro o ho _ hfresh rfl
      exact (mem_fresh.mp hfresh).2 ho

/-- A search finds whatever the found objects hold, if it has as many rounds as there are objects
with references that it has not gone through. -/
theorem heldBy_subset_close {rounds : Nat} {found frontier pending : List ObjId}
    (hrounds : pending.length ≤ rounds)
    (hpending : ∀ o, s.heldBy o ≠ [] → (o ∈ found ∧ o ∉ frontier) ∨ o ∈ pending)
    (hfrontier : ∀ o ∈ frontier, o ∈ found)
    (hdone : ∀ o ∈ found, o ∉ frontier → ∀ held ∈ s.heldBy o, held ∈ found)
    {o : ObjId} (ho : o ∈ s.close rounds found frontier) :
    ∀ held ∈ s.heldBy o, held ∈ s.close rounds found frontier := by
  induction rounds generalizing found frontier pending with
  | zero =>
    -- no object with references is left
    intro held hheld
    obtain rfl := List.length_eq_zero_iff.mp (Nat.le_zero.mp hrounds)
    rcases hpending o (List.ne_nil_of_mem hheld) with ⟨hfound, hgone⟩ | hnone
    · exact hdone o hfound hgone held hheld
    · cases hnone
  | succ rounds ih =>
    rw [close_succ] at ho ⊢
    split at ho
    · next hempty =>
      rw [if_pos hempty]
      intro held hheld
      by_cases hlast : o ∈ frontier
      · by_contra hnew
        have hfresh : held ∈ s.fresh found frontier :=
          mem_fresh.mpr ⟨⟨o, hlast, hheld⟩, hnew⟩
        rw [List.isEmpty_iff.mp hempty] at hfresh
        cases hfresh
      · exact hdone o ho hlast held hheld
    · next hmore =>
      rw [if_neg hmore]
      -- the round went through an object with references, which is not pending any more
      obtain ⟨new, hnew⟩ := List.exists_mem_of_ne_nil _ fun h => hmore (List.isEmpty_iff.mpr h)
      obtain ⟨⟨holder, hholder, hheld⟩, -⟩ := mem_fresh.mp hnew
      have hmem : holder ∈ pending := by
        refine (hpending holder (List.ne_nil_of_mem hheld)).resolve_left ?_
        exact fun h => h.2 hholder
      have hlength : (pending.erase holder).length ≤ rounds := by
        rw [List.length_erase_of_mem hmem]
        omega
      refine ih hlength ?_ (fun o' ho' => List.mem_append_right _ ho') ?_ ho
      · intro o' ho'
        by_cases hfound : o' ∈ found
        · refine Or.inl ⟨List.mem_append_left _ hfound, fun h => ?_⟩
          exact (mem_fresh.mp h).2 hfound
        · refine Or.inr ((List.mem_erase_of_ne ?_).mpr
            ((hpending o' ho').resolve_left fun h => hfound h.1))
          rintro rfl
          exact hfound (hfrontier _ hholder)
      · intro o' ho' hfresh held hheld'
        have hfound := (List.mem_append.mp ho').resolve_right hfresh
        by_cases hgone : o' ∈ frontier
        · by_cases hold : held ∈ found
          · exact List.mem_append_left _ hold
          · exact List.mem_append_right _ (mem_fresh.mpr ⟨⟨o', hgone, hheld'⟩, hold⟩)
        · exact List.mem_append_left _ (hdone o' hfound hgone held hheld')

/-- The search finds exactly what the given objects lead to. -/
theorem mem_reachable {o : ObjId} :
    o ∈ s.reachable roots ↔ ∃ root ∈ roots, s.Leads root o := by
  unfold reachable
  extract_lets start
  have hstart : ∀ o, o ∈ start ↔ o ∈ roots := fun o => List.mem_eraseDups
  constructor
  · intro h
    refine leads_of_mem_close (fun o ho => ?_) (fun o ho => ho) h
    exact ⟨o, (hstart o).mp ho, .refl⟩
  · rintro ⟨root, hroot, hleads⟩
    have hpending : ∀ o, s.heldBy o ≠ [] →
        (o ∈ start ∧ o ∉ start) ∨ o ∈ (List.range s.objects.size).map ObjId.mk := by
      intro o ho
      obtain ⟨held, hheld⟩ := List.exists_mem_of_ne_nil _ ho
      exact Or.inr (List.mem_map.mpr ⟨o.index, List.mem_range.mpr (lt_of_mem_heldBy hheld), rfl⟩)
    induction hleads with
    | refl => exact subset_close _ _ _ _ ((hstart root).mpr hroot)
    | tail _ hheld ih =>
      exact heldBy_subset_close (by simp) hpending (fun o ho => ho) (fun o ho h => absurd ho h) ih
        _ hheld

instance (s : Store G) (o o' : ObjId) : Decidable (s.Leads o o') :=
  decidable_of_iff (o' ∈ s.reachable [o]) (by simp [mem_reachable])

/-- The search finds each object once. -/
theorem nodup_reachable (s : Store G) (roots : List ObjId) : (s.reachable roots).Nodup :=
  nodup_close (nodup_eraseDups roots)

/-- The objects that hold themselves are found. -/
theorem mem_circular {o : ObjId} : o ∈ s.circular ↔ s.HoldsItself o := by
  have hcircular : s.isCircular o = true ↔ s.HoldsItself o := by
    unfold isCircular HoldsItself
    rw [List.contains_iff_mem, mem_reachable]
  unfold circular
  rw [List.mem_filter, hcircular, and_iff_right_iff_imp]
  rintro ⟨held, hheld, -⟩
  exact List.mem_map.mpr ⟨o.index, List.mem_range.mpr (lt_of_mem_heldBy hheld), rfl⟩

/-- All living objects are found. -/
theorem mem_reachable_circular {o : ObjId} :
    o ∈ s.reachable (roots ++ s.circular) ↔ s.Lives roots o := by
  rw [mem_reachable]
  simp only [List.mem_append, mem_circular, Lives]

/-! ## Taking a count apart -/

/-- References are those of the roots and those of living objects. -/
theorem references_eq (s : Store G) (others : List ObjId) (id : ObjId) :
    s.references others id = (s.assigned.values ++ s.kept ++ others).count id +
      ((s.reachable (s.assigned.values ++ s.kept ++ others ++ s.circular)).flatMap
        s.heldBy).count id :=
  List.count_append

end Store

/-- The share of one of the holders in a count can be taken out. -/
theorem count_flatMap_of_mem {holders : List ObjId} {held : ObjId → List ObjId} {r : ObjId}
    (h : r ∈ holders) (v : ObjId) :
    (holders.flatMap held).count v =
      (held r).count v + ((holders.erase r).flatMap held).count v := by
  have hperm := (List.perm_cons_erase h).flatMap_right held
  rw [hperm.count_eq, List.flatMap_cons, List.count_append]

/-- What one of the holders holds is counted. -/
theorem count_flatMap_pos {holders : List ObjId} {held : ObjId → List ObjId} {o v : ObjId}
    (ho : o ∈ holders) (hv : v ∈ held o) : 0 < (holders.flatMap held).count v :=
  List.count_pos_iff.mpr (List.mem_flatMap.mpr ⟨o, ho, hv⟩)

/-- What no holder holds is not counted. -/
theorem count_flatMap_eq_zero {holders : List ObjId} {held : ObjId → List ObjId} {v : ObjId}
    (h : ∀ o ∈ holders, v ∉ held o) : (holders.flatMap held).count v = 0 := by
  rw [List.count_eq_zero, List.mem_flatMap]
  rintro ⟨o, ho, hv⟩
  exact h o ho hv

end CallbackBridge
