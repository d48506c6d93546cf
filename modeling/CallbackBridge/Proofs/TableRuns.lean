/-
# What a run of a table leads to

A table is used by insertions, by sweeps and by changes in place.  A sweep asks its rule about one
place after the other, and the rule may have a state of its own.

* `Table.sweepAsking` is such a sweep, and `Table.sweepAsking_conduct` says that it asks about each
  object that is there once, in the order of the places, and frees those that are rejected.
* `Table.Leads` says that a log of events leads from an empty table to a table.  The log tells what
  each reference leads to (`TableEvent.told`) and how often a place was freed
  (`TableEvent.timesFreed`).
* `Table.Recorded` is what a table has to do with its log.  Each event keeps it
  (`Table.Recorded.does`), and `table_conduct` is what follows for every run.
-/
import CallbackBridge.Proofs.Collections
import CallbackBridge.Proofs.Counters
namespace CallbackBridge

variable {α σ : Type}

/-! ## References as words -/

namespace ObjRef

/-- The upper half of the word is the place, and the lower half is the generation. -/
theorem toNat_toRaw (r : ObjRef) :
    r.toRaw.toNat = r.slot.toNat * UInt32.size + r.generation.toNat := by
  have hslot : r.slot.toNat < UInt32.size := r.slot.toNat_lt_size
  have hgeneration : r.generation.toNat < UInt32.size := r.generation.toNat_lt_size
  have hshift : r.slot.toNat <<< 32 < UInt64.size := by
    rw [Nat.shiftLeft_eq]
    exact (Nat.mul_lt_mul_right (Nat.two_pow_pos 32)).mpr hslot
  unfold toRaw
  rw [UInt64.toNat_or, UInt64.toNat_shiftLeft, UInt32.toNat_toUInt64, UInt32.toNat_toUInt64]
  rw [show (32 : UInt64).toNat % 64 = 32 from rfl, Nat.mod_eq_of_lt hshift,
    ← Nat.shiftLeft_add_eq_or_of_lt hgeneration, Nat.shiftLeft_eq]

/-- Different references are different words. -/
theorem toRaw_injective : Function.Injective toRaw := by
  intro r q h
  have hnat := congrArg UInt64.toNat h
  rw [toNat_toRaw, toNat_toRaw] at hnat
  have hr : r.generation.toNat < UInt32.size := r.generation.toNat_lt_size
  have hq : q.generation.toNat < UInt32.size := q.generation.toNat_lt_size
  rw [show UInt32.size = 4294967296 from rfl] at hnat hr hq
  have hslot : r.slot = q.slot := UInt32.toNat_inj.mp (by omega)
  have hgeneration : r.generation = q.generation := UInt32.toNat_inj.mp (by omega)
  cases r
  cases q
  simp_all

end ObjRef

/-! ## Sweeps that ask -/

/-- A question that a sweep has asked. -/
structure Examined (α : Type) where
  /-- The reference that it was about. -/
  ref : ObjRef
  /-- The object there. -/
  value : α
  /-- The answer. -/
  kept : Bool

namespace Examined

/-- The references that were rejected. -/
def rejected (asked : List (Examined α)) : List ObjRef :=
  (asked.filter fun a => !a.kept).map Examined.ref

/-- A rule with each question noted. -/
def noted (ask : ObjRef → α → σ → Bool × σ) (r : ObjRef) (v : α) (s : σ × List (Examined α)) :
    Bool × (σ × List (Examined α)) :=
  let (kept, next) := ask r v s.1
  (kept, (next, s.2 ++ [⟨r, v, kept⟩]))

/-- A rule that gives the same answers again. -/
def rule (asked : List (Examined α)) (r : ObjRef) (_ : α) : Bool := !(rejected asked).contains r

/-- Where no reference is asked for twice, the rule gives the same answers again. -/
theorem rule_of_mem {asked : List (Examined α)} (hnodup : (asked.map Examined.ref).Nodup)
    {a : Examined α} (ha : a ∈ asked) : rule asked a.ref a.value = a.kept := by
  unfold rule rejected
  cases hkept : a.kept with
  | false =>
    have hmem : a.ref ∈ (asked.filter fun a => !a.kept).map Examined.ref :=
      List.mem_map_of_mem (List.mem_filter.mpr ⟨ha, by simp [hkept]⟩)
    simpa using hmem
  | true =>
    have hnot : a.ref ∉ (asked.filter fun a => !a.kept).map Examined.ref := by
      intro hmem
      obtain ⟨b, hb, href⟩ := List.mem_map.mp hmem
      obtain ⟨hb, hrejected⟩ := List.mem_filter.mp hb
      have hsame : b = a := List.inj_on_of_nodup_map hnodup hb ha href
      subst hsame
      simp [hkept] at hrejected
    simpa using hnot

end Examined

namespace Table

variable {t : Table α} {r : ObjRef} {v : α}

/-- What a sweep has made of the places that it has been to. -/
structure Sweeping (α : Type) where
  /-- The places. -/
  slots : List (Slot α)
  /-- The free places. -/
  free : List UInt32
  /-- The number of objects freed. -/
  freed : Nat

/-- The sweep goes on by one place, which it empties if it is to. -/
def Sweeping.pass (seen : Sweeping α) (entry : Slot α × Nat) (doomed : Bool) : Sweeping α :=
  if doomed then
    { slots := seen.slots ++ [vacate entry.1]
      free := if (vacate entry.1).generation ≠ 0 then UInt32.ofNat entry.2 :: seen.free
        else seen.free
      freed := seen.freed + 1 }
  else { seen with slots := seen.slots ++ [entry.1] }

/-- What a sweep asks about a place. -/
def question (entry : Slot α × Nat) : Option (ObjRef × α) :=
  entry.1.data.map fun v => (⟨UInt32.ofNat entry.2, entry.1.generation⟩, v)

/-- All questions of a sweep. -/
def questions (t : Table α) : List (ObjRef × α) := t.slots.zipIdx.filterMap question

/-- The sweep asks about the next place, if there is something. -/
def examine (ask : ObjRef → α → σ → Bool × σ) (seen : Sweeping α × σ) (entry : Slot α × Nat) :
    Sweeping α × σ :=
  match question entry with
  | none => (seen.1.pass entry false, seen.2)
  | some (r, v) =>
    let (kept, next) := ask r v seen.2
    (seen.1.pass entry !kept, next)

/-- The table after a sweep, and the number of objects freed. -/
def Sweeping.done (after : Sweeping α) (t : Table α) : Nat × Table α :=
  (after.freed, { slots := after.slots, free := after.free, live := t.live - after.freed })

/-- A sweep by a rule with a state of its own. -/
def sweepAsking (t : Table α) (ask : ObjRef → α → σ → Bool × σ) (s : σ) : (Nat × Table α) × σ :=
  let (after, last) := t.slots.zipIdx.foldl (examine ask) (⟨[], t.free, 0⟩, s)
  (after.done t, last)

/-- The sweep goes on by some places. -/
def Sweeping.passAll (keep : ObjRef → α → Bool) (entries : List (Slot α × Nat))
    (seen : Sweeping α) : Sweeping α :=
  entries.foldl (fun seen entry => seen.pass entry (dooms keep entry.2 entry.1)) seen

/-- What becomes of a place is up to the answer. -/
theorem dooms_eq (keep : ObjRef → α → Bool) (entry : Slot α × Nat) :
    dooms keep entry.2 entry.1 =
      match question entry with
      | none => false
      | some (r, v) => !keep r v := by
  unfold dooms question
  cases entry.1.data <;> rfl

/-- Going over places empties those that are doomed, and lists those that can be taken again. -/
theorem Sweeping.passAll_eq (keep : ObjRef → α → Bool) (entries : List (Slot α × Nat))
    (seen : Sweeping α) :
    seen.passAll keep entries =
      { slots := seen.slots ++ entries.map fun entry =>
          if dooms keep entry.2 entry.1 then vacate entry.1 else entry.1
        free := (((entries.filter fun entry => dooms keep entry.2 entry.1).filter fun entry =>
          (vacate entry.1).generation ≠ 0).map fun entry => UInt32.ofNat entry.2).reverse ++
            seen.free
        freed := seen.freed +
          (entries.filter fun entry => dooms keep entry.2 entry.1).length } := by
  induction entries generalizing seen with
  | nil => simp [passAll]
  | cons entry entries ih =>
    show (seen.pass entry (dooms keep entry.2 entry.1)).passAll keep entries = _
    rw [ih]
    cases hdoomed : dooms keep entry.2 entry.1 with
    | false => simp [pass, hdoomed]
    | true =>
      have hcount : ∀ rest, seen.freed + 1 + rest = seen.freed + (rest + 1) := by
        intro rest
        omega
      by_cases hspent : (vacate entry.1).generation = 0
      · simp [pass, hdoomed, hspent, hcount]
      · simp [pass, hdoomed, hspent, hcount]

/-- A sweep goes over all places. -/
theorem done_passAll (t : Table α) (keep : ObjRef → α → Bool) :
    ((⟨[], t.free, 0⟩ : Sweeping α).passAll keep t.slots.zipIdx).done t = t.sweep keep := by
  rw [Sweeping.passAll_eq]
  unfold Sweeping.done sweep
  rw [List.mapIdx_eq_zipIdx_map]
  simp only [List.nil_append, Nat.zero_add]

/-- A sweep makes no new places. -/
theorem length_sweepAsking (t : Table α) (ask : ObjRef → α → σ → Bool × σ) (s : σ) :
    (t.sweepAsking ask s).1.2.slots.length = t.slots.length := by
  have hfold : ∀ (entries : List (Slot α × Nat)) (seen : Sweeping α × σ),
      (entries.foldl (examine ask) seen).1.slots.length =
        seen.1.slots.length + entries.length := by
    intro entries
    induction entries with
    | nil => exact fun _ => rfl
    | cons entry entries ih =>
      intro seen
      have hpass : (examine ask seen entry).1.slots.length = seen.1.slots.length + 1 := by
        unfold examine Sweeping.pass
        split <;> (dsimp only; split <;> simp)
      rw [List.foldl_cons, ih, hpass, List.length_cons]
      omega
  have hall := hfold t.slots.zipIdx (⟨[], t.free, 0⟩, s)
  rw [List.length_zipIdx] at hall
  exact hall.trans (Nat.zero_add _)

/-- A rule without a state of its own makes it the sweep of a table. -/
theorem sweepAsking_of_rule (t : Table α) (keep : ObjRef → α → Bool) (s : σ) :
    t.sweepAsking (fun r v s => (keep r v, s)) s = (t.sweep keep, s) := by
  have hfold : ∀ (entries : List (Slot α × Nat)) (seen : Sweeping α),
      entries.foldl (examine fun r v s => (keep r v, s)) (seen, s) =
        (seen.passAll keep entries, s) := by
    intro entries
    induction entries with
    | nil => exact fun _ => rfl
    | cons entry entries ih =>
      intro seen
      show _ = ((seen.pass entry (dooms keep entry.2 entry.1)).passAll keep entries, s)
      rw [List.foldl_cons, ← ih, dooms_eq]
      unfold examine
      cases question entry <;> rfl
  unfold sweepAsking
  rw [hfold, ← done_passAll]

/-- The places that a sweep goes over, with the questions noted: what becomes of them is what would
become of them by any rule that gives the same answers. -/
theorem foldl_examine (ask : ObjRef → α → σ → Bool × σ) (entries : List (Slot α × Nat))
    (seen : Sweeping α) (s : σ) (log : List (Examined α)) :
    ∃ (last : σ) (asked : List (Examined α)),
      asked.map (fun a => (a.ref, a.value)) = entries.filterMap question ∧
      ∀ keep : ObjRef → α → Bool, (∀ a ∈ asked, keep a.ref a.value = a.kept) →
        entries.foldl (examine ask) (seen, s) = (seen.passAll keep entries, last) ∧
          entries.foldl (examine (Examined.noted ask)) (seen, (s, log)) =
            (seen.passAll keep entries, (last, log ++ asked)) := by
  induction entries generalizing seen s log with
  | nil => exact ⟨s, [], rfl, fun keep _ => ⟨rfl, by rw [List.append_nil]; rfl⟩⟩
  | cons entry entries ih =>
    have hpass : ∀ keep, seen.passAll keep (entry :: entries) =
        (seen.pass entry (dooms keep entry.2 entry.1)).passAll keep entries := fun _ => rfl
    cases hquestion : question entry with
    | none =>
      -- nothing is asked about an empty place
      obtain ⟨last, asked, hasked, hfold⟩ := ih (seen.pass entry false) s log
      refine ⟨last, asked, by rw [List.filterMap_cons, hquestion, hasked], ?_⟩
      intro keep hkeep
      rw [hpass, dooms_eq, hquestion, List.foldl_cons, List.foldl_cons]
      simp only [examine, hquestion]
      exact hfold keep hkeep
    | some about =>
      obtain ⟨r, v⟩ := about
      rcases hanswer : ask r v s with ⟨kept, next⟩
      obtain ⟨last, asked, hasked, hfold⟩ :=
        ih (seen.pass entry !kept) next (log ++ [⟨r, v, kept⟩])
      refine ⟨last, ⟨r, v, kept⟩ :: asked, ?_, ?_⟩
      · rw [List.filterMap_cons, hquestion, List.map_cons, hasked]
      · intro keep hkeep
        obtain ⟨hfirst, hlater⟩ := List.forall_mem_cons.mp hkeep
        have hdooms : dooms keep entry.2 entry.1 = !kept := by
          rw [dooms_eq, hquestion]
          exact congrArg (! ·) hfirst
        obtain ⟨hplain, hnoted⟩ := hfold keep hlater
        rw [hpass, hdooms, List.foldl_cons, List.foldl_cons]
        simp only [examine, hquestion, Examined.noted, hanswer]
        rw [List.append_assoc, List.singleton_append] at hnoted
        exact ⟨hplain, hnoted⟩

/-- Each object that is there is asked about. -/
theorem mem_questions_iff (h : t.Addressable) : (r, v) ∈ t.questions ↔ t.get? r = some v := by
  unfold questions
  rw [List.mem_filterMap]
  constructor
  · rintro ⟨entry, hentry, hquestion⟩
    obtain ⟨value, hvalue, heq⟩ := Option.map_eq_some_iff.mp hquestion
    cases heq
    rw [get?_of_mem_zipIdx h hentry, hvalue]
  · intro hget
    obtain ⟨slot, hslot, hgeneration, hdata⟩ := get?_eq_some_iff.mp hget
    refine ⟨(slot, r.slot.toNat), List.mem_zipIdx_iff_getElem?.mpr hslot, ?_⟩
    unfold question
    rw [hdata, hgeneration, UInt32.ofNat_toNat]
    rfl

/-- The questions are in the order of the places. -/
theorem pairwise_questions (h : t.Addressable) :
    (t.questions.map fun about => about.1.slot).Pairwise (· < ·) := by
  have hindices : t.slots.zipIdx.Pairwise fun entry entry' => entry.2 < entry'.2 := by
    rw [← List.pairwise_map, List.zipIdx_map_snd]
    exact List.pairwise_lt_range'
  unfold questions
  rw [List.pairwise_map, List.pairwise_filterMap]
  refine hindices.imp_of_mem fun {entry entry'} hentry hentry' hlt about habout about' habout' => ?_
  have hbound : ∀ entry ∈ t.slots.zipIdx, entry.2 < UInt32.size := by
    intro entry hentry
    have hplace := List.mem_zipIdx_iff_getElem?.mp hentry
    exact Nat.lt_of_lt_of_le (List.getElem?_eq_some_iff.mp hplace).1 h
  obtain ⟨_, -, rfl⟩ := Option.map_eq_some_iff.mp habout
  obtain ⟨_, -, rfl⟩ := Option.map_eq_some_iff.mp habout'
  rw [UInt32.lt_iff_toNat_lt, toNat_ofNat_of_lt (hbound entry hentry),
    toNat_ofNat_of_lt (hbound entry' hentry')]
  exact hlt

section Answers

variable {asked : List (Examined α)}

/-- The places of the questions are in order. -/
theorem pairwise_asked (h : t.Addressable)
    (hasked : asked.map (fun a => (a.ref, a.value)) = t.questions) :
    (asked.map fun a => a.ref.slot).Pairwise (· < ·) := by
  have hordered := pairwise_questions h
  rw [← hasked, List.map_map] at hordered
  exact hordered

/-- No place is asked about twice. -/
theorem nodup_asked (h : t.Addressable)
    (hasked : asked.map (fun a => (a.ref, a.value)) = t.questions) :
    (asked.map fun a => a.ref.slot).Nodup :=
  (pairwise_asked h hasked).imp fun hlt => UInt32.ne_of_lt hlt

/-- What is asked about is what is there. -/
theorem asked_iff (h : t.Addressable)
    (hasked : asked.map (fun a => (a.ref, a.value)) = t.questions) :
    (∃ a ∈ asked, a.ref = r ∧ a.value = v) ↔ t.get? r = some v := by
  rw [← mem_questions_iff h, ← hasked, List.mem_map]
  simp only [Prod.mk.injEq]

/-- What is rejected is there. -/
theorem exists_of_mem_rejected (h : t.Addressable)
    (hasked : asked.map (fun a => (a.ref, a.value)) = t.questions)
    (hr : r ∈ Examined.rejected asked) : ∃ v, t.get? r = some v := by
  obtain ⟨a, ha, href⟩ := List.mem_map.mp hr
  exact ⟨a.value, (asked_iff h hasked).mp ⟨a, (List.mem_filter.mp ha).1, href, rfl⟩⟩

/-- No place is rejected twice. -/
theorem nodup_rejected (h : t.Addressable)
    (hasked : asked.map (fun a => (a.ref, a.value)) = t.questions) :
    ((Examined.rejected asked).map ObjRef.slot).Nodup := by
  have hnodup := nodup_asked h hasked
  unfold Examined.rejected
  rw [List.map_map]
  exact hnodup.sublist (List.filter_sublist.map _)

/-- What a sweep has emptied is what was rejected. -/
theorem get?_sweep_rule (t : Table α) (asked : List (Examined α)) (r : ObjRef) :
    (t.sweep (Examined.rule asked)).2.get? r =
      if r ∈ Examined.rejected asked then none else t.get? r := by
  rw [get?_sweep]
  unfold Examined.rule
  by_cases hr : r ∈ Examined.rejected asked
  · rw [if_pos hr]
    cases t.get? r <;> simp [hr]
  · rw [if_neg hr]
    cases t.get? r <;> simp [hr]

/-- A sweep says how many were rejected. -/
theorem freed_sweep_rule (h : t.Addressable)
    (hasked : asked.map (fun a => (a.ref, a.value)) = t.questions) :
    (t.sweep (Examined.rule asked)).1 = (Examined.rejected asked).length := by
  have hsame : ∀ r, r ∈ t.swept (Examined.rule asked) ↔ r ∈ Examined.rejected asked := by
    intro r
    rw [mem_swept_iff h]
    unfold Examined.rule
    constructor
    · rintro ⟨v, -, hrule⟩
      simpa using hrule
    · intro hr
      obtain ⟨v, hv⟩ := exists_of_mem_rejected h hasked hr
      exact ⟨v, hv, by simpa using hr⟩
  have hperm := (List.perm_ext_iff_of_nodup (nodup_swept h _)
    (nodup_rejected h hasked).of_map).mpr hsame
  rw [← length_swept, hperm.length_eq]

/-- A place is rejected once if it is emptied, and not at all if it is not. -/
theorem count_rejected (h : t.Addressable)
    (hasked : asked.map (fun a => (a.ref, a.value)) = t.questions) {place : UInt32}
    {slot : Slot α} (hslot : t.slots[place.toNat]? = some slot) :
    ((Examined.rejected asked).map ObjRef.slot).count place =
      if dooms (Examined.rule asked) place.toNat slot then 1 else 0 := by
  have hdooms : place ∈ (Examined.rejected asked).map ObjRef.slot ↔
      dooms (Examined.rule asked) place.toNat slot = true := by
    unfold dooms Examined.rule
    rw [List.mem_map]
    constructor
    · rintro ⟨r, hr, rfl⟩
      obtain ⟨v, hv⟩ := exists_of_mem_rejected h hasked hr
      obtain ⟨slot', hslot', hgeneration, hdata⟩ := get?_eq_some_iff.mp hv
      obtain rfl : slot = slot' := Option.some_inj.mp (hslot.symm.trans hslot')
      simp [hdata, hgeneration, hr]
    · intro hdoomed
      cases hdata : slot.data with
      | none => simp [hdata] at hdoomed
      | some v =>
        have hr : ⟨place, slot.generation⟩ ∈ Examined.rejected asked := by
          simpa [hdata] using hdoomed
        exact ⟨_, hr, rfl⟩
  split
  · next hdoomed => exact List.count_eq_one_of_mem (nodup_rejected h hasked) (hdooms.mpr hdoomed)
  · next hkept => exact List.count_eq_zero_of_not_mem fun hmem => hkept (hdooms.mp hmem)

/-- Where no place is, nothing is rejected. -/
theorem count_rejected_of_none (h : t.Addressable)
    (hasked : asked.map (fun a => (a.ref, a.value)) = t.questions) {place : UInt32}
    (hslot : t.slots[place.toNat]? = none) :
    ((Examined.rejected asked).map ObjRef.slot).count place = 0 := by
  refine List.count_eq_zero_of_not_mem fun hmem => ?_
  obtain ⟨r, hr, rfl⟩ := List.mem_map.mp hmem
  obtain ⟨v, hv⟩ := exists_of_mem_rejected h hasked hr
  obtain ⟨slot, hslot', -⟩ := get?_eq_some_iff.mp hv
  cases hslot.symm.trans hslot'

end Answers

/-- **What a sweep asks, and what it frees.**  It asks about each object that is there once, in the
order of the places, and is the sweep by a rule that gives the same answers again.  To note the
questions changes nothing. -/
theorem sweepAsking_conduct (h : t.Addressable) (ask : ObjRef → α → σ → Bool × σ) (s : σ) :
    ∃ (last : σ) (asked : List (Examined α)),
      asked.map (fun a => (a.ref, a.value)) = t.questions ∧
      t.sweepAsking ask s = (t.sweep (Examined.rule asked), last) ∧
      t.sweepAsking (Examined.noted ask) (s, []) =
        (t.sweep (Examined.rule asked), (last, asked)) := by
  obtain ⟨last, asked, hasked, hfold⟩ := foldl_examine ask t.slots.zipIdx ⟨[], t.free, 0⟩ s []
  have hnodup : (asked.map Examined.ref).Nodup := by
    have hplaces := nodup_asked h hasked
    rw [show (fun a : Examined α => a.ref.slot) = ObjRef.slot ∘ Examined.ref from rfl,
      ← List.map_map] at hplaces
    exact hplaces.of_map
  obtain ⟨hplain, hnoted⟩ := hfold (Examined.rule asked) fun a ha => Examined.rule_of_mem hnodup ha
  refine ⟨last, asked, hasked, ?_, ?_⟩
  · unfold sweepAsking
    rw [hplain, ← done_passAll]
  · unfold sweepAsking
    rw [hnoted, ← done_passAll, List.nil_append]

/-! ## Runs -/

end Table

/-- What happens to a table. -/
inductive TableEvent (α : Type)
  /-- An object is put in, which this reference is handed out for. -/
  | insert (v : α) (r : ObjRef)
  /-- A sweep asks these questions. -/
  | sweep (asked : List (Examined α))
  /-- The object that a reference leads to is changed through it. -/
  | change (r : ObjRef) (f : α → α)

namespace TableEvent

/-- The reference that an event hands out. -/
def issues : TableEvent α → List ObjRef
  | insert _ r => [r]
  | sweep _ => []
  | change _ _ => []

/-- The references that an event rejects. -/
def rejects : TableEvent α → List ObjRef
  | insert _ _ => []
  | sweep asked => Examined.rejected asked
  | change _ _ => []

/-- What a reference leads to after an event. -/
def leads (r : ObjRef) (held : Option α) : TableEvent α → Option α
  | insert v q => if r = q then some v else held
  | sweep asked => if r ∈ Examined.rejected asked then none else held
  | change q f => if r = q then held.map f else held

/-- All references that were handed out. -/
def issued (log : List (TableEvent α)) : List ObjRef := log.flatMap issues

/-- All references that were rejected. -/
def rejected (log : List (TableEvent α)) : List ObjRef := log.flatMap rejects

/-- What a reference leads to: the object that it was handed out for, with the changes made through
it, until it is rejected. -/
def told (log : List (TableEvent α)) (r : ObjRef) : Option α := log.foldl (leads r) none

/-- How often a place was freed. -/
def timesFreed (log : List (TableEvent α)) (place : UInt32) : Nat :=
  ((rejected log).map ObjRef.slot).count place

section Later

variable (log : List (TableEvent α)) (event : TableEvent α)

theorem issued_concat : issued (log ++ [event]) = issued log ++ event.issues := by
  simp [issued]

theorem rejected_concat : rejected (log ++ [event]) = rejected log ++ event.rejects := by
  simp [rejected]

theorem told_concat (r : ObjRef) : told (log ++ [event]) r = event.leads r (told log r) := by
  simp [told]

theorem timesFreed_concat (place : UInt32) : timesFreed (log ++ [event]) place =
    timesFreed log place + (event.rejects.map ObjRef.slot).count place := by
  unfold timesFreed
  rw [rejected_concat, List.map_append, List.count_append]

end Later

end TableEvent

namespace Table

open TableEvent

variable {t t' : Table α} {log : List (TableEvent α)} {event : TableEvent α}

/-- The event makes one table into another. -/
def Does (t : Table α) : TableEvent α → Table α → Prop
  | .insert v r, t' => t.insert v = (r, t')
  | .sweep asked, t' => ∃ (σ : Type) (ask : ObjRef → α → σ → Bool × σ) (s last : σ) (freed : Nat),
    t.sweepAsking (Examined.noted ask) (s, []) = ((freed, t'), (last, asked))
  | .change r f, t' => t.modify r f = t'

/-- The log leads from an empty table to this one. -/
inductive Leads : List (TableEvent α) → Table α → Prop
  | empty : Leads [] {}
  | step (log : List (TableEvent α)) (t : Table α) (event : TableEvent α) (t' : Table α) :
    Leads log t → t.Does event t' → Leads (log ++ [event]) t'

/-- What a table has to do with the log that led to it. -/
structure Recorded (log : List (TableEvent α)) (t : Table α) : Prop where
  /-- The free list is right. -/
  sound : t.Sound
  /-- The counter is right. -/
  counted : t.live = t.taken
  /-- What was handed out is not handed out again. -/
  issued : ∀ r ∈ issued log, t.Issued r
  /-- It was not handed out twice. -/
  nodup : (TableEvent.issued log).Nodup
  /-- What was rejected had been handed out. -/
  rejected : ∀ r ∈ rejected log, r ∈ TableEvent.issued log
  /-- References lead to what the log tells. -/
  get : ∀ r, t.get? r = told log r
  /-- That is something until they are rejected. -/
  live : ∀ r, (told log r).isSome ↔ r ∈ TableEvent.issued log ∧ r ∉ TableEvent.rejected log
  /-- The generation of a place is how often it was freed, as far as a word can tell. -/
  placed : ∀ (place : UInt32) (slot : Slot α), t.slots[place.toNat]? = some slot →
    slot.generation = UInt32.ofNat (timesFreed log place) ∧
      (slot.data.isSome → timesFreed log place < UInt32.size) ∧
      (slot.data = none → 0 < timesFreed log place ∧ timesFreed log place ≤ UInt32.size)
  /-- A place that was never made was never freed. -/
  unplaced : ∀ place : UInt32, t.slots[place.toNat]? = none → timesFreed log place = 0

namespace Recorded

/-- The record of an empty table. -/
theorem empty : Recorded [] ({} : Table α) where
  sound := sound_empty
  counted := rfl
  issued := by simp [TableEvent.issued]
  nodup := List.nodup_nil
  rejected := by simp [TableEvent.rejected]
  get _ := rfl
  live := by simp [told, TableEvent.issued]
  placed := by simp
  unplaced _ _ := rfl

/-- An insertion hands out a reference that was not handed out before. -/
theorem not_mem_issued (h : Recorded log t) {v : α} (room : (t.insert v).2.Addressable) :
    (t.insert v).1 ∉ TableEvent.issued log :=
  fun hr => h.sound.not_issued_insert room (h.issued _ hr)

/-- The places after an insertion: the one that is taken was not freed too often for that. -/
theorem placed_insert (h : Recorded log t) {v : α} (room : (t.insert v).2.Addressable)
    {place : UInt32} {slot : Slot α} (hslot : (t.insert v).2.slots[place.toNat]? = some slot) :
    slot.generation = UInt32.ofNat (timesFreed log place) ∧
      (slot.data.isSome → timesFreed log place < UInt32.size) ∧
      (slot.data = none → 0 < timesFreed log place ∧ timesFreed log place ≤ UInt32.size) := by
  rcases h.sound.insert_cases v with
    ⟨taken, free, old, -, hold, hdata, hunspent, heq⟩ | ⟨hfree, heq⟩
  · rw [heq] at hslot
    by_cases hplace : taken = place
    · subst hplace
      obtain ⟨hgeneration, -, hfreed⟩ := h.placed taken old hold
      have hle := (hfreed hdata).2
      rw [List.getElem?_set_self (List.getElem?_eq_some_iff.mp hold).1] at hslot
      cases hslot
      refine ⟨hgeneration, fun _ => ?_, fun hnone => by cases hnone⟩
      -- a place that was freed as often as there are generations is not taken again
      by_contra hmany
      have hall : timesFreed log taken = UInt32.size := by omega
      rw [hall] at hgeneration
      exact hunspent hgeneration
    · rw [List.getElem?_set_ne fun hc => hplace (UInt32.toNat_inj.mp hc)] at hslot
      exact h.placed place slot hslot
  · have hlt := new_place_lt hfree room
    rw [heq] at hslot
    by_cases hold : place.toNat < t.slots.length
    · rw [List.getElem?_append_left hold] at hslot
      exact h.placed place slot hslot
    · have hnever := h.unplaced place (List.getElem?_eq_none_iff.mpr (Nat.le_of_not_lt hold))
      rw [List.getElem?_append_right (Nat.le_of_not_lt hold), List.getElem?_singleton] at hslot
      split at hslot
      · cases hslot
        rw [hnever]
        exact ⟨rfl, fun _ => by decide, fun hnone => by cases hnone⟩
      · cases hslot

/-- The record after an insertion. -/
theorem insert (h : Recorded log t) {v : α} (room : (t.insert v).2.Addressable) :
    Recorded (log ++ [.insert v (t.insert v).1]) (t.insert v).2 where
  sound := h.sound.insert room
  counted := by rw [live_insert, h.sound.taken_insert, h.counted]
  issued := by
    intro r hr
    rw [issued_concat] at hr
    rcases List.mem_append.mp hr with hr | hr
    · exact h.sound.issued_insert (h.issued r hr)
    · rw [List.mem_singleton.mp hr]
      exact issued_of_get? (h.sound.get?_insert_self room)
  nodup := by
    rw [issued_concat]
    refine h.nodup.append (List.nodup_singleton _) ?_
    intro r hr hnew
    rw [List.mem_singleton.mp hnew] at hr
    exact h.not_mem_issued room hr
  rejected := by
    intro r hr
    rw [rejected_concat, TableEvent.rejects, List.append_nil] at hr
    rw [issued_concat]
    exact List.mem_append_left _ (h.rejected r hr)
  get := by
    intro r
    rw [told_concat, leads]
    split
    · next hr =>
      rw [hr]
      exact h.sound.get?_insert_self room
    · next hne => rw [h.sound.get?_insert_of_ne room hne, h.get]
  live := by
    intro r
    rw [told_concat, leads, issued_concat, rejected_concat, TableEvent.rejects, List.append_nil,
      List.mem_append, TableEvent.issues, List.mem_singleton]
    split
    · next hr =>
      have hkept : r ∉ TableEvent.rejected log := by
        intro hrejected
        have hold := h.rejected r hrejected
        rw [hr] at hold
        exact h.not_mem_issued room hold
      exact iff_of_true rfl ⟨.inr hr, hkept⟩
    · next hne =>
      rw [or_iff_left hne]
      exact h.live r
  placed := by
    intro place slot hslot
    rw [timesFreed_concat]
    exact h.placed_insert room hslot
  unplaced := by
    intro place hslot
    have hle := length_le_length_insert t v
    rw [List.getElem?_eq_none_iff] at hslot
    rw [timesFreed_concat]
    exact h.unplaced place (List.getElem?_eq_none_iff.mpr (Nat.le_trans hle hslot))

/-- The record after a sweep. -/
theorem sweep (h : Recorded log t) {asked : List (Examined α)}
    (hasked : asked.map (fun a => (a.ref, a.value)) = t.questions) :
    Recorded (log ++ [.sweep asked]) (t.sweep (Examined.rule asked)).2 where
  sound := h.sound.sweep _
  counted := by
    have hfreed := t.freed_add_taken_sweep (Examined.rule asked)
    have hcounted := h.counted
    show t.live - (t.sweep (Examined.rule asked)).1 = _
    omega
  issued := by
    intro r hr
    rw [issued_concat, TableEvent.issues, List.append_nil] at hr
    exact (h.issued r hr).sweep _
  nodup := by
    rw [issued_concat, TableEvent.issues, List.append_nil]
    exact h.nodup
  rejected := by
    intro r hr
    rw [issued_concat, TableEvent.issues, List.append_nil]
    rw [rejected_concat] at hr
    rcases List.mem_append.mp hr with hr | hr
    · exact h.rejected r hr
    · obtain ⟨v, hv⟩ := exists_of_mem_rejected h.sound.addressable hasked hr
      rw [h.get] at hv
      exact ((h.live r).mp (Option.isSome_of_mem hv)).1
  get := by
    intro r
    rw [told_concat, leads, get?_sweep_rule, h.get]
  live := by
    intro r
    rw [told_concat, leads, issued_concat, rejected_concat, TableEvent.issues, List.append_nil,
      List.mem_append, TableEvent.rejects]
    split
    · next hr => exact iff_of_false (by simp) fun hkept => hkept.2 (.inr hr)
    · next hne =>
      rw [or_iff_left hne]
      exact h.live r
  placed := by
    intro place slot hslot
    rw [getElem?_sweep] at hslot
    obtain ⟨old, hold, rfl⟩ := Option.map_eq_some_iff.mp hslot
    obtain ⟨hgeneration, hfull, hempty⟩ := h.placed place old hold
    rw [timesFreed_concat, TableEvent.rejects, count_rejected h.sound.addressable hasked hold]
    cases hdoomed : dooms (Examined.rule asked) place.toNat old with
    | false => exact ⟨hgeneration, hfull, hempty⟩
    | true =>
      have hsome : old.data.isSome := by
        unfold dooms at hdoomed
        cases hdata : old.data with
        | none => simp [hdata] at hdoomed
        | some v => rfl
      have hlt := hfull hsome
      rw [if_pos rfl, if_pos rfl]
      refine ⟨?_, fun hfull => absurd hfull Bool.false_ne_true, fun _ => ⟨Nat.succ_pos _, hlt⟩⟩
      show old.generation + 1 = UInt32.ofNat (timesFreed log place + 1)
      rw [hgeneration, UInt32.ofNat_add]
      rfl
  unplaced := by
    intro place hslot
    rw [getElem?_sweep, Option.map_eq_none_iff] at hslot
    rw [timesFreed_concat, TableEvent.rejects,
      count_rejected_of_none h.sound.addressable hasked hslot, h.unplaced place hslot]

/-- The record after a change in place. -/
theorem change (h : Recorded log t) (r : ObjRef) (f : α → α) :
    Recorded (log ++ [.change r f]) (t.modify r f) where
  sound := h.sound.modify r f
  counted := by
    obtain ⟨htaken, hlive⟩ := t.taken_live_modify r f
    rw [hlive, htaken, h.counted]
  issued := by
    intro q hq
    rw [issued_concat, TableEvent.issues, List.append_nil] at hq
    exact (h.issued q hq).modify r f
  nodup := by
    rw [issued_concat, TableEvent.issues, List.append_nil]
    exact h.nodup
  rejected := by
    rw [issued_concat, rejected_concat, TableEvent.issues, TableEvent.rejects, List.append_nil,
      List.append_nil]
    exact h.rejected
  get := by
    intro q
    rw [told_concat, leads, get?_modify, h.get, h.get]
    by_cases hq : q = r
    · rw [if_pos hq, if_pos hq, hq]
    · rw [if_neg hq, if_neg hq]
  live := by
    intro q
    rw [told_concat, leads, issued_concat, rejected_concat, TableEvent.issues, TableEvent.rejects,
      List.append_nil, List.append_nil, ← h.live q]
    split
    · rw [Option.isSome_map]
    · rfl
  placed := by
    intro place slot hslot
    obtain ⟨old, hold, hgeneration, hdata⟩ := exists_place_modify hslot
    obtain ⟨hfreed, hfull, hempty⟩ := h.placed place old hold
    rw [timesFreed_concat, ← hgeneration, ← hdata]
    refine ⟨hfreed, hfull, fun hnone => hempty ?_⟩
    rw [hnone] at hdata
    exact Option.isSome_eq_false_iff.mp hdata |> Option.isNone_iff_eq_none.mp
  unplaced := by
    intro place hslot
    rw [List.getElem?_eq_none_iff, length_modify] at hslot
    rw [timesFreed_concat]
    exact h.unplaced place (List.getElem?_eq_none_iff.mpr hslot)

/-- The record of one more event. -/
theorem does (h : Recorded log t) (hdoes : t.Does event t') (room : t'.Addressable) :
    Recorded (log ++ [event]) t' := by
  cases event with
  | insert v r =>
    obtain rfl : (t.insert v).1 = r := congrArg Prod.fst hdoes
    obtain rfl : (t.insert v).2 = t' := congrArg Prod.snd hdoes
    exact h.insert room
  | sweep asked =>
    obtain ⟨σ, ask, s, last, freed, hsweep⟩ := hdoes
    obtain ⟨last', asked', hasked, -, hnoted⟩ := sweepAsking_conduct h.sound.addressable ask s
    rw [hnoted] at hsweep
    obtain rfl : asked' = asked := congrArg (fun result => result.2.2) hsweep
    obtain rfl : (t.sweep (Examined.rule asked')).2 = t' :=
      congrArg (fun result => result.1.2) hsweep
    exact h.sweep hasked
  | change r f =>
    obtain rfl : t.modify r f = t' := hdoes
    exact h.change r f

/-- A table that comes from another one by an event has at least its places. -/
theorem addressable_of_does (hdoes : t.Does event t') (room : t'.Addressable) : t.Addressable := by
  cases event with
  | insert v r =>
    obtain rfl : (t.insert v).2 = t' := congrArg Prod.snd hdoes
    exact Nat.le_trans (length_le_length_insert t v) room
  | sweep asked =>
    obtain ⟨σ, ask, s, last, freed, hsweep⟩ := hdoes
    obtain rfl : (t.sweepAsking (Examined.noted ask) (s, [])).1.2 = t' := by rw [hsweep]
    exact Nat.le_trans (Nat.le_of_eq (length_sweepAsking t _ _).symm) room
  | change r f =>
    obtain rfl : t.modify r f = t' := hdoes
    exact addressable_of_modify room

/-- The log of every run is on record. -/
theorem of_leads (hleads : Leads log t) (room : t.Addressable) : Recorded log t := by
  induction hleads with
  | empty => exact empty
  | step log t event t' _ hdoes ih => exact (ih (addressable_of_does hdoes room)).does hdoes room

end Recorded

/-! ## What a run leads to -/

/-- What a log has led to. -/
structure Conducted (log : List (TableEvent α)) (t : Table α) : Prop where
  /-- No place is free twice. -/
  free_nodup : t.free.Nodup
  /-- The free places are the empty ones, save those that were freed as often as there are
  generations. -/
  free_iff : ∀ place, place ∈ t.free ↔
    (∃ slot, t.slots[place.toNat]? = some slot ∧ slot.data = none) ∧
      timesFreed log place < UInt32.size
  /-- As long as that happened to no place, the free places are the empty ones. -/
  free_all : (∀ place, timesFreed log place < UInt32.size) → ∀ place, place ∈ t.free ↔
    ∃ slot, t.slots[place.toNat]? = some slot ∧ slot.data = none
  /-- The counter is the number of places that are taken. -/
  live : t.live = t.slots.countP fun slot => slot.data.isSome
  /-- All words that were handed out are different. -/
  distinct : ((issued log).map ObjRef.toRaw).Nodup
  /-- A reference leads to its own object, as the log tells. -/
  get : ∀ r, t.get? r = told log r
  /-- It does so if it was handed out and has not been rejected. -/
  get_iff : ∀ r, (t.get? r).isSome ↔ r ∈ issued log ∧ r ∉ rejected log
  /-- So it does for a change in place, which changes nothing else. -/
  modify : ∀ r f, (told log r = none → t.modify r f = t) ∧
    ∀ q, (t.modify r f).get? q = if q = r then (told log r).map f else told log q
  /-- A sweep asks about what is there, each once and in the order of the places, and frees what is
  rejected; to note the questions changes nothing. -/
  sweep : ∀ {σ : Type} (ask : ObjRef → α → σ → Bool × σ) (s : σ),
    ∃ (after : Table α) (last : σ) (asked : List (Examined α)),
      t.sweepAsking (Examined.noted ask) (s, []) =
        (((Examined.rejected asked).length, after), (last, asked)) ∧
      t.sweepAsking ask s = (((Examined.rejected asked).length, after), last) ∧
      (asked.map fun a => a.ref.slot).Pairwise (· < ·) ∧
      (∀ r v, (∃ a ∈ asked, a.ref = r ∧ a.value = v) ↔ told log r = some v) ∧
      ∀ r, after.get? r = if r ∈ Examined.rejected asked then none else told log r

/-- **What a run of a table leads to.**  In every table that insertions, sweeps and changes in
place lead to, the free places are the empty ones, each once, and the counter is the number of the
others; no reference was handed out twice, and each leads to its own object until it is rejected.
A sweep asks about each object that is there once, in the order of the places, and frees those
that are rejected.

That is as long as each place has a number of its own; a place that was freed as often as there are
generations is empty for good, and not free. -/
theorem table_conduct (hleads : Leads log t) (room : t.Addressable) : t.Conducted log := by
  have h := Recorded.of_leads hleads room
  have hfree : ∀ place, place ∈ t.free ↔
      (∃ slot, t.slots[place.toNat]? = some slot ∧ slot.data = none) ∧
        timesFreed log place < UInt32.size := by
    intro place
    rw [h.sound.mem_free_iff]
    constructor
    · rintro ⟨slot, hslot, hdata, hgeneration⟩
      obtain ⟨hfreed, -, hempty⟩ := h.placed place slot hslot
      refine ⟨⟨slot, hslot, hdata⟩, ?_⟩
      by_contra hmany
      have hall : timesFreed log place = UInt32.size := by
        have hle := (hempty hdata).2
        omega
      rw [hall] at hfreed
      exact hgeneration hfreed
    · rintro ⟨⟨slot, hslot, hdata⟩, hlt⟩
      obtain ⟨hfreed, -, hempty⟩ := h.placed place slot hslot
      refine ⟨slot, hslot, hdata, fun hzero => ?_⟩
      have hpos := (hempty hdata).1
      rw [hzero] at hfreed
      have hnat := congrArg UInt32.toNat hfreed
      rw [toNat_ofNat_of_lt hlt] at hnat
      exact absurd hnat.symm (Nat.ne_of_gt hpos)
  constructor
  case free_nodup => exact h.sound.free_nodup
  case free_iff => exact hfree
  case free_all =>
    intro hfew place
    rw [hfree, and_iff_left (hfew place)]
  case live => exact h.counted
  case distinct => exact h.nodup.map ObjRef.toRaw_injective
  case get => exact h.get
  case get_iff =>
    intro r
    rw [h.get, h.live]
  case modify =>
    intro r f
    refine ⟨fun hnone => modify_of_eq_none ((h.get r).trans hnone) f, fun q => ?_⟩
    rw [get?_modify, h.get, h.get]
  case sweep =>
    intro σ ask s
    obtain ⟨last, asked, hasked, hplain, hnoted⟩ := sweepAsking_conduct room ask s
    have hresult : t.sweep (Examined.rule asked) =
        ((Examined.rejected asked).length, (t.sweep (Examined.rule asked)).2) := by
      rw [← freed_sweep_rule room hasked]
    refine ⟨(t.sweep (Examined.rule asked)).2, last, asked, ?_, ?_, pairwise_asked room hasked, ?_,
      ?_⟩
    · rw [hnoted, ← hresult]
    · rw [hplain, ← hresult]
    · intro r v
      rw [asked_iff room hasked, h.get]
    · intro r
      rw [get?_sweep_rule, h.get]

/-- Two objects are put in, a sweep rejects only what it asks about first, and a third object takes
the place over under the next generation. -/
theorem table_conduct_reused :
    let log : List (TableEvent Nat) := [.insert 10 ⟨0, 0⟩, .insert 20 ⟨1, 0⟩,
      .sweep [⟨⟨0, 0⟩, 10, false⟩, ⟨⟨1, 0⟩, 20, true⟩], .insert 30 ⟨0, 1⟩]
    let t : Table Nat := { slots := [⟨1, some 30⟩, ⟨0, some 20⟩], free := [], live := 2 }
    Leads log t ∧ t.Addressable ∧ t.Conducted log := by
  intro log t
  have hfirst : Leads [.insert 10 ⟨0, 0⟩] { slots := [⟨0, some 10⟩], free := [], live := 1 } :=
    .step [] {} _ _ .empty rfl
  have hsecond : Leads [.insert 10 ⟨0, 0⟩, .insert 20 ⟨1, 0⟩]
      { slots := [⟨0, some 10⟩, ⟨0, some 20⟩], free := [], live := 2 } :=
    .step _ _ (.insert 20 ⟨1, 0⟩) _ hfirst rfl
  have hswept : Leads [.insert 10 ⟨0, 0⟩, .insert 20 ⟨1, 0⟩,
      .sweep [⟨⟨0, 0⟩, 10, false⟩, ⟨⟨1, 0⟩, 20, true⟩]]
      { slots := [⟨1, none⟩, ⟨0, some 20⟩], free := [0], live := 1 } :=
    .step _ _ (.sweep _) _ hsecond ⟨Bool, fun _ _ s => (s, true), false, true, 1, rfl⟩
  have hleads : Leads log t := .step _ _ (.insert 30 ⟨0, 1⟩) _ hswept rfl
  have room : t.Addressable := show 2 ≤ UInt32.size by decide
  exact ⟨hleads, room, table_conduct hleads room⟩

end Table

end CallbackBridge
