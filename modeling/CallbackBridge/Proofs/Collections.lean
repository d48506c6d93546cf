/-
# What a collection frees

A collection frees exactly the objects that have no pin, that no name is bound to, and that were
not allocated directly in a call that is still in progress (`collections_exact`).  References
are matched with their generations, so a name that is bound to what is gone already protects
nothing, also not what has taken its place.

* `Table.swept` lists what a sweep frees, each reference once; a sweep depends on nothing but on
  what it is told of objects that are there (`Table.sweep_congr`), and sweeping twice is
  sweeping once (`Table.sweep_sweep`).
* `NameMap.Proper` says that no name is bound twice, so that what is bound at all can be looked
  up by some name.
-/
import CallbackBridge.Proofs.HeapActors
import CallbackBridge.Proofs.OpenCalls
namespace CallbackBridge

variable {F ω : Type} {I : Interface}

/-! ## What a sweep frees -/

namespace Table

variable {α : Type} {t : Table α} {keep keep' : ObjRef → α → Bool} {r : ObjRef}

/-- The references to what a sweep frees, in the order of the places. -/
def swept (t : Table α) (keep : ObjRef → α → Bool) : List ObjRef :=
  (t.slots.zipIdx.filter fun entry => dooms keep entry.2 entry.1).map fun entry =>
    ⟨UInt32.ofNat entry.2, entry.1.generation⟩

/-- As many are freed as are listed. -/
theorem length_swept (t : Table α) (keep : ObjRef → α → Bool) :
    (t.swept keep).length = (t.sweep keep).1 :=
  List.length_map _

/-- What a place holds is found through the number of the place and its generation. -/
theorem get?_of_mem_zipIdx (h : t.Addressable) {entry : Slot α × Nat}
    (hentry : entry ∈ t.slots.zipIdx) :
    t.get? ⟨UInt32.ofNat entry.2, entry.1.generation⟩ = entry.1.data := by
  have hplace := List.mem_zipIdx_iff_getElem?.mp hentry
  have hlt := (List.getElem?_eq_some_iff.mp hplace).1
  rw [← toNat_ofNat_of_lt (Nat.lt_of_lt_of_le hlt h)] at hplace
  rw [get?_of_place hplace, if_pos rfl]

/-- **A sweep frees exactly the objects that it is not to keep.** -/
theorem mem_swept_iff (h : t.Addressable) :
    r ∈ t.swept keep ↔ ∃ v, t.get? r = some v ∧ keep r v = false := by
  simp only [swept, List.mem_map, List.mem_filter]
  constructor
  · rintro ⟨entry, ⟨hentry, hdoomed⟩, rfl⟩
    rw [get?_of_mem_zipIdx h hentry]
    unfold dooms at hdoomed
    cases hdata : entry.1.data with
    | none => simp [hdata] at hdoomed
    | some v => exact ⟨v, rfl, by simpa [hdata] using hdoomed⟩
  · rintro ⟨v, hv, hkeep⟩
    obtain ⟨slot, hslot, hgen, hdata⟩ := get?_eq_some_iff.mp hv
    obtain ⟨place, generation⟩ := r
    refine ⟨(slot, place.toNat), ⟨List.mem_zipIdx_iff_getElem?.mpr hslot, ?_⟩, ?_⟩
    · simp only [dooms, hdata, UInt32.ofNat_toNat]
      rw [show slot.generation = generation from hgen, hkeep]
      rfl
    · rw [UInt32.ofNat_toNat, show slot.generation = generation from hgen]

/-- No reference is listed twice. -/
theorem nodup_swept (h : t.Addressable) (keep : ObjRef → α → Bool) : (t.swept keep).Nodup := by
  refine List.Nodup.map_on ?_ (t.nodup_zipIdx.filter _)
  intro entry hentry entry' hentry' hsame
  exact h.eq_of_number_eq (List.mem_filter.mp hentry).1 (List.mem_filter.mp hentry').1
    (congrArg ObjRef.slot hsame)

/-- **Of a rule only matters what it says of objects that are there.** -/
theorem sweep_congr (h : t.Addressable) (hsame : ∀ r v, t.get? r = some v → keep r v = keep' r v) :
    t.sweep keep = t.sweep keep' := by
  have hdooms : ∀ entry ∈ t.slots.zipIdx,
      dooms keep entry.2 entry.1 = dooms keep' entry.2 entry.1 := by
    intro entry hentry
    have hget := get?_of_mem_zipIdx h hentry
    unfold dooms
    cases hdata : entry.1.data with
    | none => rfl
    | some v => simp only [hsame _ v (hget.trans hdata)]
  unfold sweep
  simp only [List.mapIdx_eq_zipIdx_map, List.filter_congr hdooms]
  rw [List.map_congr_left fun entry hentry => by rw [hdooms entry hentry]]

/-- Where all is kept a sweep does nothing. -/
theorem sweep_of_keeps (hkeeps : ∀ entry ∈ t.slots.zipIdx, dooms keep entry.2 entry.1 = false) :
    t.sweep keep = (0, t) := by
  have hdoomed : (t.slots.zipIdx.filter fun entry => dooms keep entry.2 entry.1) = [] :=
    List.filter_eq_nil_iff.mpr fun entry hentry => by simp [hkeeps entry hentry]
  have hslots : (t.slots.mapIdx fun index slot =>
      if dooms keep index slot then vacate slot else slot) = t.slots := by
    rw [List.mapIdx_eq_zipIdx_map]
    conv_rhs => rw [← List.zipIdx_map_fst 0 t.slots]
    exact List.map_congr_left fun entry hentry => by simp [hkeeps entry hentry]
  unfold sweep
  simp only [hdoomed, hslots]
  rfl

/-- **Sweeping twice is sweeping once.** -/
theorem sweep_sweep (t : Table α) (keep : ObjRef → α → Bool) :
    (t.sweep keep).2.sweep keep = (0, (t.sweep keep).2) := by
  refine sweep_of_keeps fun entry hentry => ?_
  have hplace := List.mem_zipIdx_iff_getElem?.mp hentry
  rw [getElem?_sweep] at hplace
  obtain ⟨slot, -, hslot⟩ := Option.map_eq_some_iff.mp hplace
  rw [← hslot]
  -- what was doomed left an empty place, and what was not is not now
  split
  · rfl
  · next hkept => simpa using hkept

end Table

/-! ## Names that are bound once -/

namespace NameMap

variable {α : Type} {m : NameMap α} {name : String} {value : α}

/-- No name is bound twice. -/
def Proper (m : NameMap α) : Prop := (m.entries.map Prod.fst).Nodup

/-- The names after binding one. -/
theorem keys_insert_go (name : String) (value : α) (entries : List (String × α)) :
    (insert.go name value entries).map Prod.fst =
      if name ∈ entries.map Prod.fst then entries.map Prod.fst
      else entries.map Prod.fst ++ [name] := by
  induction entries with
  | nil => rfl
  | cons entry rest ih =>
    obtain ⟨key, old⟩ := entry
    unfold insert.go
    by_cases hkey : key = name
    · simp [hkey]
    · rw [if_neg hkey, List.map_cons, ih]
      by_cases hrest : name ∈ rest.map Prod.fst
      · simp [hrest]
      · simp [hrest, Ne.symm hkey]

/-- Binding a name binds none twice. -/
theorem Proper.insert (h : m.Proper) (name : String) (value : α) : (m.insert name value).Proper := by
  show ((insert.go name value m.entries).map Prod.fst).Nodup
  rw [keys_insert_go]
  split
  · exact h
  · next hnew =>
    refine List.nodup_append.mpr ⟨h, List.nodup_singleton _, fun key hkey other hother => ?_⟩
    rintro rfl
    exact hnew (List.mem_singleton.mp hother ▸ hkey)

/-- Unbinding a name leaves the others as they are. -/
theorem Proper.erase (h : m.Proper) (name : String) : (m.erase name).Proper :=
  List.Nodup.sublist (List.filter_sublist.map _) h

/-- An unbound name leads to nothing. -/
theorem find?_erase_self (m : NameMap α) (name : String) : (m.erase name).find? name = none := by
  refine List.lookup_eq_none_iff.mpr fun entry hentry => ?_
  have hother : entry.1 ≠ name := of_decide_eq_true (List.mem_filter.mp hentry).2
  exact bne_iff_ne.mpr hother.symm

/-- **What is bound at all is bound to some name.** -/
theorem Proper.mem_values_iff (h : m.Proper) :
    value ∈ m.values ↔ ∃ name, m.find? name = some value := by
  refine ⟨fun hvalue => ?_, fun ⟨name, hname⟩ => mem_values_of_find? hname⟩
  obtain ⟨⟨name, value⟩, hentry, rfl⟩ := List.mem_map.mp hvalue
  obtain ⟨before, after, hentries⟩ := List.append_of_mem hentry
  refine ⟨name, List.lookup_eq_some_iff.mpr ⟨before, after, hentries, fun entry hbefore => ?_⟩⟩
  unfold Proper at h
  rw [hentries, List.map_append, List.nodup_append] at h
  have hne := h.2.2 entry.1 (List.mem_map_of_mem hbefore) name (by simp)
  simpa using Ne.symm hne

end NameMap

/-! ## What is rooted -/

namespace Heap

variable {config : HeapConfig} {log : List (HeapEvent F)} {h h' : Heap F} {r q : ObjRef}

/-- No run binds a name twice. -/
theorem Runs.proper (hruns : h.Runs log h') (hproper : h.globals.Proper) : h'.globals.Proper := by
  induction log generalizing h with
  | nil => exact hruns ▸ hproper
  | cons event log ih =>
    obtain ⟨m, hdoes, hruns⟩ := hruns
    refine ih hruns ?_
    cases event with
    | alloc made r =>
      have hafter : (h.alloc made.object).2 = m := congrArg Prod.snd hdoes
      rw [← hafter, globals_alloc]
      exact hproper
    | define name value =>
      cases hdoes
      exact hproper.insert name value
    | undefine name =>
      cases hdoes
      exact hproper.erase name
    | repoint r buffer =>
      obtain ⟨-, rfl⟩ := repoint_eq_ok hdoes
      exact hproper
    | retire r =>
      cases hdoes
      rw [globals_retire]
      exact hproper
    | _ =>
      cases hdoes
      exact hproper

/-- **What is rooted**: it has a pin, or a name is bound to it, or it is kept for a call in
progress. -/
theorem isRooted_iff_of_proper (hproper : h.globals.Proper) {e : HeapEntry F} :
    h.isRooted r e ↔ 0 < e.pins ∨ (∃ name, h.globals.find? name = some r) ∨
      r ∈ h.scopes.flatten := by
  unfold isRooted roots
  rw [Bool.or_eq_true, decide_eq_true_iff, List.contains_iff_mem, List.mem_append,
    hproper.mem_values_iff]

/-- What is kept for calls is what was allocated directly in a call that is still in progress. -/
theorem Runs.isRooted_iff (hruns : (Heap.ofConfig config).Runs log h)
    (room : h.table.Addressable) {e : HeapEntry F} :
    h.isRooted r e ↔ 0 < e.pins ∨ (∃ name, h.globals.find? name = some r) ∨
      HeapEvent.AllocatedInOpenCall log r := by
  rw [isRooted_iff_of_proper (hruns.proper .nil), hruns.mem_scopes_iff room]

/-- A collection frees exactly what is not rooted. -/
theorem mem_swept_isRooted_iff (hruns : (Heap.ofConfig config).Runs log h)
    (room : h.table.Addressable) :
    r ∈ h.table.swept h.isRooted ↔ h.pinCount? r = some 0 ∧
      (∀ name, h.globals.find? name ≠ some r) ∧ ¬ HeapEvent.AllocatedInOpenCall log r := by
  rw [Table.mem_swept_iff room]
  unfold pinCount? entry?
  constructor
  · rintro ⟨e, he, hunrooted⟩
    have hnot := (hruns.isRooted_iff room (r := r) (e := e)).not.mp (by simp [hunrooted])
    obtain ⟨hpins, hrest⟩ := not_or.mp hnot
    obtain ⟨hunbound, hlocal⟩ := not_or.mp hrest
    rw [he]
    exact ⟨congrArg some (Nat.eq_zero_of_not_pos hpins),
      fun name hname => hunbound ⟨name, hname⟩, hlocal⟩
  · rintro ⟨hpins, hunbound, hlocal⟩
    obtain ⟨e, he, hzero⟩ := Option.map_eq_some_iff.mp hpins
    refine ⟨e, he, Bool.eq_false_iff.mpr fun hrooted => ?_⟩
    rcases (hruns.isRooted_iff room).mp hrooted with hpinned | ⟨name, hname⟩ | hopen
    · omega
    · exact hunbound name hname
    · exact hlocal hopen

/-- A collection is a sweep, and is counted. -/
theorem collect_eq (h : Heap F) :
    h.collect = ((h.table.sweep h.isRooted).1,
      { h with
        table := (h.table.sweep h.isRooted).2
        stats := { h.stats with
          collections := h.stats.collections + 1
          freed := h.stats.freed + (h.table.sweep h.isRooted).1 } }) := by
  rw [← keep_eq_isRooted]
  rfl

/-- **A name that is bound to what is gone roots nothing.** -/
theorem isRooted_undefine (hproper : h.globals.Proper) {name : String}
    (hname : h.globals.find? name = some q) (hgone : h.isLive q = false) {e : HeapEntry F}
    (hr : h.entry? r = some e) : Heap.isRooted (h.undefine name).2 r e = h.isRooted r e := by
  have hne : r ≠ q := by
    rintro rfl
    simp [isLive, hr] at hgone
  have hvalues : r ∈ (h.globals.erase name).values ↔ r ∈ h.globals.values := by
    rw [(hproper.erase name).mem_values_iff, hproper.mem_values_iff]
    refine exists_congr fun other => ?_
    by_cases hsame : other = name
    · rw [hsame, NameMap.find?_erase_self, hname]
      simp [Ne.symm hne]
    · rw [NameMap.find?_erase_of_ne hsame]
  refine Bool.eq_iff_iff.mpr ?_
  unfold isRooted roots undefine
  simp only [Bool.or_eq_true, decide_eq_true_iff, List.contains_iff_mem, List.mem_append, hvalues]

/-- What a collection does to a heap that a log has led to. -/
structure CollectsExactly (h : Heap F) (log : List (HeapEvent F)) : Prop where
  /-- It frees what has no pin, is bound to no name and was not allocated directly in a call that
  is still in progress; it says how many that are, and leaves all other entries alone. -/
  freed : ∃ freed : List ObjRef, freed.Nodup ∧ freed.length = h.collect.1 ∧
    (∀ r, r ∈ freed ↔ h.pinCount? r = some 0 ∧ (∀ name, h.globals.find? name ≠ some r) ∧
      ¬ HeapEvent.AllocatedInOpenCall log r) ∧
    ∀ r, Heap.entry? h.collect.2 r = if r ∈ freed then none else h.entry? r
  /-- It does the same without a name that is bound to what is gone. -/
  stale : ∀ name q, h.globals.find? name = some q → h.isLive q = false →
    Heap.collect (h.undefine name).2 =
      (h.collect.1, { h.collect.2 with globals := h.globals.erase name })
  /-- What is gone is gone for good: nothing that is allocated later has its reference. -/
  gone : ∀ made q, .alloc made q ∈ log → h.isLive q = false → ∀ {log' h'}, h.Runs log' h' →
    h'.table.Addressable → h'.isLive q = false
  /-- Another collection frees nothing. -/
  again : Heap.collect h.collect.2 =
    (0, { h.collect.2 with
      stats := { h.collect.2.stats with collections := h.collect.2.stats.collections + 1 } })

/-- What is rooted is rooted after a collection. -/
theorem isRooted_collect (h : Heap F) : Heap.isRooted h.collect.2 = h.isRooted := rfl

/-- **A collection of a heap that a run has led to.** -/
theorem Runs.collectsExactly (hruns : (Heap.ofConfig config).Runs log h)
    (room : h.table.Addressable) : h.CollectsExactly log where
  freed := by
    refine ⟨h.table.swept h.isRooted, Table.nodup_swept room _, ?_,
      fun r => mem_swept_isRooted_iff hruns room, fun r => ?_⟩
    · rw [Table.length_swept, collect_eq]
    · rw [entry?_collect]
      simp only [Table.mem_swept_iff room]
      unfold entry?
      cases h.table.get? r with
      | none => simp
      | some e => cases hrooted : h.isRooted r e <;> simp [Option.filter, hrooted]
  stale name q hname hgone := by
    have hsweep : h.table.sweep (Heap.isRooted (h.undefine name).2) = h.table.sweep h.isRooted :=
      Table.sweep_congr room fun r e hr => isRooted_undefine (hruns.proper .nil) hname hgone hr
    rw [collect_eq, collect_eq]
    change (h.undefine name).2.table.sweep _ = _ at hsweep
    rw [hsweep]
    rfl
  gone made q hq hgone {log' h'} hlater hroom := by
    have hrealizes := (Realizes.ofConfig config).replay hruns room
    have hissued := hrealizes.issued q
      ((IdealHeap.mem_handed_replay log).mpr (Or.inr ⟨made, hq⟩))
    have hnone : h.entry? q = none := Option.isNone_iff_eq_none.mp (by simpa [isLive] using hgone)
    unfold isLive
    rw [hlater.entry?_eq_none hroom hrealizes.sound hissued hnone]
    rfl
  again := by
    have hsweep := h.table.sweep_sweep h.isRooted
    rw [← table_collect] at hsweep
    rw [collect_eq h.collect.2, isRooted_collect, hsweep]
    rfl

end Heap

/-! ## Every collection -/

/-- **A collection frees exactly what nothing protects.**  In every state that a run of events
leads to, a collection frees the objects without a pin that are bound to no name and were not
allocated while a call that is still in progress was the innermost one; all others stay as they
are.  A name that is bound to what is gone protects nothing, and a second collection finds nothing
to free.

Such a state is what any run of events leads to, as long as the heap is not out of references.
Everything that acts on the heap is such a run, up to each point that it passes through, inside
calls that are nested to any depth as well. -/
theorem collections_exact (code : UserCode F I) (config : HeapConfig) :
    (∀ {log : List (HeapEvent F)} {h : Heap F}, (Heap.ofConfig config).Runs log h →
      h.table.Addressable → h.CollectsExactly log) ∧
    ∀ (stack : List (Surroundings I ω)) (w : HeapWorld F ω), w.ActsByLogs code stack :=
  ⟨Heap.Runs.collectsExactly, fun stack w => w.actsByLogs code stack⟩

/-! ## A name that is bound to what is gone

An array is collected, and a name is bound to its reference.  A call is in progress that has
allocated a second array, and in a call inside it, which has ended, a third one has taken the place
of the first. -/

namespace Displaced

/-- The first array. -/
def first : ObjRef := ⟨0, 0⟩

/-- The array that has taken its place. -/
def third : ObjRef := ⟨0, 1⟩

/-- The array that the call in progress has allocated. -/
def second : ObjRef := ⟨1, 0⟩

/-- What is done to the heap. -/
def log : List (HeapEvent Unit) :=
  [.alloc (.array [.zero]) first, .collect, .define "old" first, .enter, .enter,
    .alloc (.array [.one]) third, .leave, .alloc (.array []) second]

/-- The heap inside the call. -/
def heap : Heap Unit :=
  let made := ((Heap.ofConfig ⟨0⟩).alloc (.array [.zero])).2.collect.2
  let called := (made.define "old" first).2.openScope.openScope
  ((called.alloc (.array [.one])).2.closeScope.alloc (.array [])).2

end Displaced

/-- The collection frees the array that has taken the place of the other, with the name and without
it, and keeps the one that the call has allocated. -/
theorem collections_exact_displaced :
    (Heap.ofConfig ⟨0⟩).Runs Displaced.log Displaced.heap ∧
      Displaced.heap.table.Addressable ∧
      Displaced.heap.globals.find? "old" = some Displaced.first ∧
      Displaced.heap.isLive Displaced.first = false ∧
      Displaced.heap.CollectsExactly Displaced.log ∧
      Displaced.heap.collect.1 = 1 ∧
      Heap.isLive Displaced.heap.collect.2 Displaced.third = false ∧
      Heap.isLive Displaced.heap.collect.2 Displaced.second = true ∧
      (Heap.collect (Displaced.heap.undefine "old").2).1 = 1 := by
  have hruns : (Heap.ofConfig ⟨0⟩).Runs Displaced.log Displaced.heap :=
    ⟨_, rfl, _, rfl, _, rfl, _, rfl, _, rfl, _, rfl, _, rfl, _, rfl, rfl⟩
  have hroom : Displaced.heap.table.Addressable := by decide +kernel
  have hname : Displaced.heap.globals.find? "old" = some Displaced.first := by decide +kernel
  have hgone : Displaced.heap.isLive Displaced.first = false := by decide +kernel
  have hone : Displaced.heap.collect.1 = 1 := by decide +kernel
  have hexact := (collections_exact (ω := Unit) Echo.code ⟨0⟩).1 hruns hroom
  refine ⟨hruns, hroom, hname, hgone, hexact, hone, by decide +kernel, by decide +kernel, ?_⟩
  rw [hexact.stale "old" Displaced.first hname hgone]
  exact hone

end CallbackBridge
