/-
# Counts and tables of the ledger

What each operation on a tally does to the counts of all keys, and what taking an entry out of a
table leaves.
-/
import CallbackBridge.Counted.Ledger
namespace CallbackBridge

variable {α β : Type} [DecidableEq α]

/-! ## Tables -/

/-- A key is not found in the entry of another one. -/
theorem lookup_cons_of_ne {key other : α} (h : other ≠ key) (b : β) (entries : List (α × β)) :
    ((key, b) :: entries).lookup other = entries.lookup other := by
  rw [List.lookup_cons, beq_eq_false_iff_ne.mpr h]

/-- In the part of a table that certain keys make up these keys are found as before, and no
others. -/
theorem lookup_filter (p : α → Bool) (entries : List (α × β)) (key : α) :
    (entries.filter fun entry => p entry.1).lookup key =
      if p key then entries.lookup key else none := by
  induction entries with
  | nil => simp
  | cons entry rest ih =>
    obtain ⟨k, b⟩ := entry
    rw [List.filter_cons]
    by_cases hfirst : key = k
    · subst hfirst
      cases hkept : p key with
      | true => simp
      | false =>
        rw [hkept] at ih
        simpa using ih
    · rw [lookup_cons_of_ne hfirst, ← ih]
      cases hkept : p k with
      | true => rw [if_pos rfl, lookup_cons_of_ne hfirst]
      | false => rfl

/-- A key whose entry is taken out is not found, and the others are. -/
theorem lookup_filter_ne (entries : List (α × β)) (key other : α) :
    (entries.filter fun entry => entry.1 ≠ key).lookup other =
      if other = key then none else entries.lookup other := by
  rw [lookup_filter fun k => decide (k ≠ key)]
  by_cases hother : other = key <;> simp [hother]

/-- A key whose entry is replaced is found in the new one, and the others are found as before. -/
theorem lookup_cons_filter_ne (entries : List (α × β)) (key other : α) (b : β) :
    ((key, b) :: entries.filter fun entry => entry.1 ≠ key).lookup other =
      if other = key then some b else entries.lookup other := by
  by_cases hother : other = key
  · rw [if_pos hother, hother, List.lookup_cons_self]
  · rw [if_neg hother, lookup_cons_of_ne hother, lookup_filter_ne, if_neg hother]

namespace Tally

variable {t t' : Tally α} {key other : α}

/-! ## Counts -/

/-- A key that is forgotten counts zero. -/
theorem count_erase (t : Tally α) (key other : α) :
    (t.erase key).count other = if other = key then 0 else t.count other := by
  unfold count erase
  rw [lookup_filter_ne]
  split <;> rfl

/-- A key that is put in front of the others has the count it is put there with. -/
theorem count_cons_erase (t : Tally α) (key other : α) (n : Nat) :
    Tally.count ⟨(key, n) :: (t.erase key).entries⟩ other =
      if other = key then n else t.count other := by
  unfold count erase
  rw [lookup_cons_filter_ne]
  split <;> rfl

/-- A key that is counted once more counts one more. -/
theorem count_increment (t : Tally α) (key other : α) :
    (t.increment key).count other = if other = key then t.count key + 1 else t.count other :=
  t.count_cons_erase key other _

/-- There is one to take exactly if the key is counted. -/
theorem decrement?_eq_none : t.decrement? key = none ↔ t.count key = 0 := by
  unfold decrement?
  split <;> simp_all

/-- From a key that is counted one can be taken. -/
theorem exists_decrement? (h : 0 < t.count key) : ∃ t', t.decrement? key = some t' := by
  refine Option.ne_none_iff_exists'.mp fun hnone => ?_
  rw [decrement?_eq_none.mp hnone] at h
  exact Nat.lt_irrefl 0 h

/-- What one is taken from counts one less. -/
theorem count_decrement? (h : t.decrement? key = some t') :
    0 < t.count key ∧
      ∀ other, t'.count other = if other = key then t.count key - 1 else t.count other := by
  unfold decrement? at h
  split at h
  · cases h
  · next hone =>
    cases h
    refine ⟨by omega, fun other => ?_⟩
    rw [t.count_erase, hone]
  · next n hmore =>
    cases h
    refine ⟨by omega, fun other => ?_⟩
    rw [t.count_cons_erase, hmore]
    rfl

/-! ## Keys that occur -/

/-- Every key that occurs is counted. -/
def Positive (t : Tally α) : Prop := ∀ entry ∈ t.entries, 0 < entry.2

omit [DecidableEq α] in
theorem positive_empty : Positive ({} : Tally α) := fun _ h => by cases h

/-- Forgetting a key leaves the others counted. -/
theorem Positive.erase (h : t.Positive) (key : α) : (t.erase key).Positive :=
  fun entry hentry => h entry (List.mem_filter.mp hentry).1

/-- A key that is put in front with a count is counted. -/
theorem Positive.cons_erase (h : t.Positive) (key : α) {n : Nat} (hn : 0 < n) :
    Positive ⟨(key, n) :: (t.erase key).entries⟩ := by
  intro entry hentry
  rcases List.mem_cons.mp hentry with rfl | hentry
  · exact hn
  · exact h.erase key entry hentry

theorem Positive.increment (h : t.Positive) (key : α) : (t.increment key).Positive :=
  h.cons_erase key (Nat.succ_pos _)

theorem Positive.decrement? (h : t.Positive) (ht : t.decrement? key = some t') : t'.Positive := by
  unfold Tally.decrement? at ht
  split at ht
  · cases ht
  · cases ht
    exact h.erase key
  · cases ht
    exact h.cons_erase key (Nat.succ_pos _)

/-- If nothing is counted, no key occurs. -/
theorem Positive.eq_empty (h : t.Positive) (hzero : ∀ key, t.count key = 0) : t = {} := by
  obtain ⟨entries⟩ := t
  cases entries with
  | nil => rfl
  | cons entry rest =>
    obtain ⟨key, n⟩ := entry
    have hfirst : Tally.count ⟨(key, n) :: rest⟩ key = n := by simp [count]
    have hpositive : 0 < n := h (key, n) List.mem_cons_self
    have hnone := hzero key
    omega

end Tally

end CallbackBridge
