/-
# The counters of the heap

The heap counts its objects, and how many it has allocated and freed in how many collections.
An allocation is counted before the collection that may come with it, and its object after
it, so the counters do not add up in the middle of an allocation; they do before and after.

* `Table.taken` is the number of places that hold an object.  It is never more than the number
  that the table keeps (`Heap.Tallied`), so a sweep never takes away more than is there.
* `Heap.Tallied.apply` is the step: each event keeps the counters in tally, and
  `Heap.Tallied.runs` carries it over runs.
* `counters_tally` puts it together with what acts on a heap.
-/
import CallbackBridge.Proofs.HeapActors
namespace CallbackBridge

variable {F ω : Type} {I : Interface}

/-! ## Places that are taken -/

namespace Table

variable {α : Type}

/-- The number of places that hold an object. -/
def taken (t : Table α) : Nat := t.slots.countP fun slot => slot.data.isSome

/-- An insertion takes one place at most. -/
theorem taken_insert_le (t : Table α) (v : α) : (t.insert v).2.taken ≤ t.taken + 1 := by
  unfold insert taken
  cases t.free with
  | nil => simp [List.countP_append]
  | cons place free =>
    simp only
    by_cases hlt : place.toNat < t.slots.length
    · rw [List.countP_set hlt]
      simp only [Option.isSome_some, if_true]
      omega
    · rw [List.set_eq_of_length_le (Nat.le_of_not_lt hlt)]
      exact Nat.le_succ _

/-- An insertion is counted. -/
theorem live_insert (t : Table α) (v : α) : (t.insert v).2.live = t.live + 1 := by
  unfold insert
  cases t.free <;> rfl

/-- An insertion takes one place, as the places on the free list are empty. -/
theorem Sound.taken_insert {t : Table α} (h : t.Sound) (v : α) :
    (t.insert v).2.taken = t.taken + 1 := by
  rcases h.insert_cases v with ⟨place, free, slot, -, hslot, hdata, -, heq⟩ | ⟨-, heq⟩
  · obtain ⟨hlt, hplace⟩ := List.getElem?_eq_some_iff.mp hslot
    rw [heq]
    unfold taken
    rw [List.countP_set hlt, hplace, hdata]
    simp
  · rw [heq]
    unfold taken
    simp [List.countP_append]

/-- A change in place neither takes nor gives up a place, and is not counted. -/
theorem taken_live_modify (t : Table α) (r : ObjRef) (f : α → α) :
    (t.modify r f).taken = t.taken ∧ (t.modify r f).live = t.live := by
  unfold modify
  cases hget : t.get? r with
  | none => exact ⟨rfl, rfl⟩
  | some value =>
    refine ⟨?_, rfl⟩
    obtain ⟨slot, hslot, -, hdata⟩ := get?_eq_some_iff.mp hget
    obtain ⟨hlt, hplace⟩ := List.getElem?_eq_some_iff.mp hslot
    have hfull : (t.slots[r.slot.toNat]).data.isSome := by simp [hplace, hdata]
    have hpos : 0 < t.taken :=
      List.countP_pos_iff.mpr ⟨_, List.getElem_mem hlt, hfull⟩
    unfold taken at hpos ⊢
    rw [List.countP_set hlt, if_pos hfull]
    simp only [Option.isSome_some, if_true]
    omega

/-- **What a sweep frees and what it leaves is what was there.** -/
theorem freed_add_taken_sweep (t : Table α) (keep : ObjRef → α → Bool) :
    (t.sweep keep).1 + (t.sweep keep).2.taken = t.taken := by
  have hbefore : t.taken = t.slots.zipIdx.countP fun entry => entry.1.data.isSome := by
    unfold taken
    conv_lhs => rw [← List.zipIdx_map_fst 0 t.slots]
    exact List.countP_map
  have hafter : (t.sweep keep).2.taken = t.slots.zipIdx.countP fun entry =>
      entry.1.data.isSome && !dooms keep entry.2 entry.1 := by
    unfold taken sweep
    rw [List.mapIdx_eq_zipIdx_map, List.countP_map]
    refine List.countP_congr fun entry _ => ?_
    cases hdoomed : dooms keep entry.2 entry.1 <;> simp [hdoomed, vacate]
  have hfreed : (t.sweep keep).1 = (t.slots.zipIdx.filter fun entry =>
      dooms keep entry.2 entry.1).countP fun entry => entry.1.data.isSome := by
    -- only what is there is doomed
    refine (List.countP_eq_length.mpr fun entry hentry => ?_).symm
    have hdoomed := (List.mem_filter.mp hentry).2
    unfold dooms at hdoomed
    cases hdata : entry.1.data with
    | none => simp [hdata] at hdoomed
    | some value => rfl
  rw [hfreed, hafter, hbefore, ← List.countP_filter]
  exact (List.countP_eq_countP_filter_add _ _ _).symm

end Table

/-! ## Counting events -/

namespace HeapEvent

/-- The event is an allocation. -/
def allocates : HeapEvent F → Bool
  | alloc _ _ => true
  | _ => false

/-- The event is a collection that was asked for. -/
def collects : HeapEvent F → Bool
  | collect => true
  | _ => false

end HeapEvent

/-! ## Counters in tally -/

/-- The counters add up, after some allocations and collections; objects are pending that were
counted and are still to be put in. -/
structure Heap.Tallied (config : HeapConfig) (h : Heap F)
    (allocations collections pending : Nat) : Prop where
  /-- These are the settings. -/
  settings : h.config = config
  /-- No more places are taken than objects are counted as there. -/
  taken_le : h.table.taken ≤ h.liveObjects
  /-- All allocations are counted. -/
  allocated : h.stats.allocations = allocations
  /-- All collections are counted. -/
  collected : h.stats.collections = collections
  /-- What was allocated is there, or was freed, or is pending. -/
  balance : h.liveObjects + h.stats.freed + pending = allocations

namespace Heap.Tallied

variable {config : HeapConfig} {h h' : Heap F} {allocations collections pending asked : Nat}

/-- The counters of an empty heap. -/
theorem ofConfig (config : HeapConfig) : Tallied config (Heap.ofConfig config : Heap F) 0 0 0 where
  settings := rfl
  taken_le := Nat.le_refl _
  allocated := rfl
  collected := rfl
  balance := rfl

/-- **A collection takes from the objects that are counted what it frees.** -/
theorem collect (htallied : h.Tallied config allocations collections pending) :
    h.collect.2.Tallied config allocations (collections + 1) pending := by
  obtain ⟨hsettings, htaken, hallocations, hcollections, hbalance⟩ := htallied
  have hsweep := h.table.freed_add_taken_sweep fun r entry =>
    entry.pins > 0 || h.rootSet.contains r
  have hlive : h.collect.2.liveObjects = h.liveObjects - h.collect.1 := rfl
  have hfreed : h.collect.2.stats.freed = h.stats.freed + h.collect.1 := rfl
  change h.collect.1 + h.collect.2.table.taken = h.table.taken at hsweep
  refine ⟨hsettings, ?_, hallocations, congrArg (· + 1) hcollections, ?_⟩ <;> omega

/-- **An allocation is counted, and runs a collection if one is due**; its object is pending. -/
theorem prepare (htallied : h.Tallied config allocations collections pending) :
    h.prepare.Tallied config (allocations + 1)
      (collections + if config.collectEvery ∣ allocations + 1 then 1 else 0) (pending + 1) := by
  obtain ⟨rfl, htaken, rfl, hcollections, hbalance⟩ := htallied
  have hcounted : Tallied h.config
      { h with stats := { h.stats with allocations := h.stats.allocations + 1 } }
      (h.stats.allocations + 1) collections (pending + 1) :=
    ⟨rfl, htaken, rfl, hcollections, congrArg (· + 1) hbalance⟩
  unfold Heap.prepare
  dsimp only
  by_cases hdue : h.config.collectEvery > 0 ∧
      (h.stats.allocations + 1) % h.config.collectEvery = 0
  · rw [if_pos hdue, if_pos (Nat.dvd_of_mod_eq_zero hdue.2)]
    exact hcounted.collect
  · have hdvd : ¬ h.config.collectEvery ∣ h.stats.allocations + 1 := fun hdvd =>
      hdue ⟨Nat.pos_of_dvd_of_pos hdvd (Nat.succ_pos _), Nat.mod_eq_zero_of_dvd hdvd⟩
    rw [if_neg hdue, if_neg hdvd]
    exact hcounted

/-- What becomes of the table is all that matters, as long as nothing is counted. -/
theorem of_table {pending' : Nat} (htallied : h.Tallied config allocations collections pending)
    (htaken : h'.table.taken ≤ h'.liveObjects)
    (hlive : h'.liveObjects + pending' = h.liveObjects + pending)
    (hallocations : h'.stats.allocations = h.stats.allocations)
    (hcollections : h'.stats.collections = h.stats.collections)
    (hfreed : h'.stats.freed = h.stats.freed) (hsettings : h'.config = h.config) :
    h'.Tallied config allocations collections pending' where
  settings := hsettings.trans htallied.settings
  taken_le := htaken
  allocated := hallocations.trans htallied.allocated
  collected := hcollections.trans htallied.collected
  balance := by
    have hbalance := htallied.balance
    omega

/-- An object that is put in is pending no more. -/
theorem put (htallied : h.Tallied config allocations collections (pending + 1))
    (e : HeapEntry F) (r : ObjRef) :
    ({ h with table := (h.table.insert e).2 }.noteLocal r).Tallied config allocations collections
      pending := by
  have hlive : (h.table.insert e).2.live = h.liveObjects + 1 := h.table.live_insert e
  have htaken := Nat.le_trans (h.table.taken_insert_le e) (Nat.succ_le_succ htallied.taken_le)
  have hput : Tallied config { h with table := (h.table.insert e).2 } allocations collections
      pending := by
    refine htallied.of_table (Nat.le_trans htaken (Nat.le_of_eq hlive.symm)) ?_ rfl rfl rfl rfl
    show (h.table.insert e).2.live + pending = h.liveObjects + (pending + 1)
    omega
  unfold noteLocal
  split
  · exact hput
  · exact { hput with }

/-- A change of an object in place is not counted. -/
theorem of_modify (htallied : h.Tallied config allocations collections pending) {r : ObjRef}
    {f : HeapEntry F → HeapEntry F} (htable : h'.table = h.table.modify r f)
    (hallocations : h'.stats.allocations = h.stats.allocations)
    (hcollections : h'.stats.collections = h.stats.collections)
    (hfreed : h'.stats.freed = h.stats.freed) (hsettings : h'.config = h.config) :
    h'.Tallied config allocations collections pending := by
  obtain ⟨htaken, hlive⟩ := h.table.taken_live_modify r f
  rw [← htable] at htaken hlive
  refine htallied.of_table ?_ (congrArg (· + pending) hlive) hallocations hcollections hfreed
    hsettings
  unfold liveObjects
  rw [htaken, hlive]
  exact htallied.taken_le

/-- **Each event leaves the counters in tally**, and is counted. -/
theorem apply
    (htallied : h.Tallied config allocations (allocations / config.collectEvery + asked) 0)
    {event : HeapEvent F} (hdoes : h.Does event h') :
    h'.Tallied config (allocations + [event].countP HeapEvent.allocates)
      ((allocations + [event].countP HeapEvent.allocates) / config.collectEvery +
        (asked + [event].countP HeapEvent.collects)) 0 := by
  cases event with
  | alloc made r =>
    have hafter : (h.alloc made.object).2 = h' := congrArg Prod.snd hdoes
    have hput := htallied.prepare.put ⟨made.object, 0⟩
      (h.prepare.table.insert ⟨made.object, 0⟩).1
    rw [← hafter]
    -- one more collection was due exactly where the quotient goes up
    rw [Nat.add_right_comm, ← Nat.succ_div] at hput
    exact hput
  | collect =>
    cases hdoes
    exact htallied.collect
  | pin r =>
    cases hdoes
    exact htallied.of_modify rfl rfl rfl rfl rfl
  | unpin r =>
    cases hdoes
    exact htallied.of_modify rfl rfl rfl rfl rfl
  | repoint r buffer =>
    obtain ⟨-, rfl⟩ := repoint_eq_ok hdoes
    exact htallied.of_modify rfl rfl rfl rfl rfl
  | retire r =>
    cases hdoes
    unfold Heap.retire
    split
    · exact htallied.of_modify rfl rfl rfl rfl rfl
    · exact htallied
  | _ =>
    cases hdoes
    exact { htallied with }

/-- **Every run leaves the counters in tally**, and its events are counted. -/
theorem runs {log : List (HeapEvent F)}
    (htallied : h.Tallied config allocations (allocations / config.collectEvery + asked) 0)
    (hruns : h.Runs log h') :
    h'.Tallied config (allocations + log.countP HeapEvent.allocates)
      ((allocations + log.countP HeapEvent.allocates) / config.collectEvery +
        (asked + log.countP HeapEvent.collects)) 0 := by
  induction log generalizing h allocations asked with
  | nil => exact hruns ▸ htallied
  | cons event log ih =>
    obtain ⟨m, hdoes, hruns⟩ := hruns
    rw [← List.singleton_append, List.countP_append, List.countP_append,
      ← Nat.add_assoc allocations, ← Nat.add_assoc asked]
    exact ih (htallied.apply hdoes) hruns

end Heap.Tallied

/-! ## The count is exact -/

namespace Heap

variable {h h' : Heap F} {event : HeapEvent F} {log : List (HeapEvent F)}

/-- A collection frees as many objects as it counts off. -/
theorem taken_collect (hexact : h.table.taken = h.liveObjects) :
    h.collect.2.table.taken = Heap.liveObjects h.collect.2 := by
  have hsweep := h.table.freed_add_taken_sweep fun r entry =>
    entry.pins > 0 || h.rootSet.contains r
  have hlive : Heap.liveObjects h.collect.2 = h.liveObjects - h.collect.1 := rfl
  change h.collect.1 + h.collect.2.table.taken = h.table.taken at hsweep
  omega

/-- Before an object is put in, the objects are counted. -/
theorem taken_prepare (hexact : h.table.taken = h.liveObjects) :
    h.prepare.table.taken = h.prepare.liveObjects := by
  unfold prepare
  dsimp only
  split
  · exact taken_collect (h := { h with stats := _ }) hexact
  · exact hexact

/-- There is one object more after an object was put in. -/
theorem liveObjects_alloc (h : Heap F) (object : Object F) :
    Heap.liveObjects (h.alloc object).2 = h.prepare.liveObjects + 1 := by
  unfold liveObjects
  rw [table_alloc, Table.live_insert]

/-- **Each event leaves all objects counted.** -/
theorem Does.taken_eq (hdoes : h.Does event h') (room : h'.table.Addressable)
    (hs : h.table.Sound) (hexact : h.table.taken = h.liveObjects) :
    h'.table.taken = h'.liveObjects := by
  have hmodify : ∀ {m : Heap F} {r : ObjRef} {f : HeapEntry F → HeapEntry F},
      m.table = h.table.modify r f → m.table.taken = m.liveObjects := by
    intro m r f htable
    obtain ⟨htaken, hlive⟩ := h.table.taken_live_modify r f
    unfold liveObjects
    rw [htable, htaken, hlive]
    exact hexact
  cases event with
  | alloc made r =>
    have hafter : (h.alloc made.object).2 = h' := congrArg Prod.snd hdoes
    rw [← hafter] at room ⊢
    rw [liveObjects_alloc, ← taken_prepare hexact]
    rw [table_alloc] at room ⊢
    have hroom := Nat.le_trans (Table.length_le_length_insert _ _) room
    exact ((evolves_prepare HeapEntry.fixedSorts h).sound hroom hs).taken_insert _
  | collect =>
    cases hdoes
    exact taken_collect hexact
  | pin r =>
    cases hdoes
    exact hmodify rfl
  | unpin r =>
    cases hdoes
    exact hmodify rfl
  | repoint r buffer =>
    obtain ⟨-, rfl⟩ := repoint_eq_ok hdoes
    exact hmodify rfl
  | retire r =>
    cases hdoes
    rcases h.retire_cases r with ⟨view, pins, -, htable⟩ | ⟨-, hsame⟩
    · exact hmodify htable
    · rwa [hsame]
  | _ =>
    cases hdoes
    exact hexact

/-- **Every run leaves all objects counted.** -/
theorem Runs.taken_eq (hruns : h.Runs log h') (room : h'.table.Addressable)
    (hs : h.table.Sound) (hexact : h.table.taken = h.liveObjects) :
    h'.table.taken = h'.liveObjects := by
  induction log generalizing h with
  | nil => exact hruns ▸ hexact
  | cons event log ih =>
    obtain ⟨m, hdoes, hruns⟩ := hruns
    have hroom := hruns.evolves.addressable room
    exact ih hruns (hdoes.evolves.sound hroom hs) (hdoes.taken_eq hroom hs hexact)

end Heap

/-! ## The counters after every run -/

/-- **The counters tally in every state between two operations.**  What is there and what was
freed is what was allocated, so no sweep takes away more objects than are counted as there; and
the collections are those that were asked for and one for every so-many-th allocation, if the
heap collects on its own.

Such a state is what any run of events leads to.  Everything that acts on the heap is such a
run, up to each point that it passes through: programs of clients, the bodies of functions
that calls nest to any depth, whether they return, fail or panic, and bridges. -/
theorem counters_tally (code : UserCode F I) (config : HeapConfig) :
    (∀ {log : List (HeapEvent F)} {h : Heap F}, (Heap.ofConfig config).Runs log h →
      h.liveObjects + h.stats.freed = h.stats.allocations ∧
      (∀ keep, (h.table.sweep keep).1 ≤ h.liveObjects) ∧
      h.stats.allocations = log.countP HeapEvent.allocates ∧
      (0 < config.collectEvery → h.stats.collections =
        h.stats.allocations / config.collectEvery + log.countP HeapEvent.collects) ∧
      (config.collectEvery = 0 → h.stats.collections = log.countP HeapEvent.collects)) ∧
    ∀ (stack : List (Surroundings I ω)) (w : HeapWorld F ω), w.ActsByLogs code stack := by
  refine ⟨fun {log h} hruns => ?_, fun stack w => w.actsByLogs code stack⟩
  have hempty : Heap.Tallied config (Heap.ofConfig config : Heap F) 0
      (0 / config.collectEvery + 0) 0 := by
    rw [Nat.zero_div]
    exact .ofConfig config
  obtain ⟨-, htaken, hallocations, hcollections, hbalance⟩ := hempty.runs hruns
  rw [← hallocations, Nat.zero_add (log.countP _)] at hcollections
  rw [← hallocations] at hbalance
  rw [Nat.zero_add] at hallocations
  refine ⟨hbalance, fun keep => ?_, hallocations, fun _ => hcollections, fun hzero => ?_⟩
  · have hsweep := h.table.freed_add_taken_sweep keep
    omega
  · rw [hcollections, hzero, Nat.div_zero, Nat.zero_add]

/-! ## A function that panics

A heap that collects before every second allocation; the function allocates, collects and
panics. -/

namespace Unwound

/-- Allocates an array, collects and panics. -/
def code : UserCode Unit Echo.interface := fun _ _ => do
  let _ ← (HeapCommand.array [.zero]).ask
  let _ ← HeapCommand.collect.ask
  Program.panic "stop"

/-- Defines the function and calls it. -/
def program : HeapProgram Unit Echo.interface Unit := do
  let f ← (HeapCommand.function ⟨"f", ()⟩).ask
  let _ ← (HeapCommand.define "f" f).ask
  let x ← (HeapCommand.array [.zero]).ask
  let _ ← (HeapCommand.call f ⟨x, x, x⟩).ask
  pure ()

/-- The heap before the program is run. -/
def start : HeapWorld Unit Unit := ⟨Heap.ofConfig ⟨2⟩, {}, ()⟩

/-- What the program does. -/
def log : List (HeapEvent Unit) :=
  program.logOn code [Echo.surroundings, Echo.surroundings] start

/-- The world after the panic. -/
def world : HeapWorld Unit Unit :=
  start.perform Echo.surroundings (Runner.ofStack code [Echo.surroundings]) program

end Unwound

/-- After the panic two of three objects are there, and of two collections one was asked for. -/
theorem counters_tally_unwound :
    (Heap.ofConfig ⟨2⟩).Runs Unwound.log Unwound.world.heap ∧
      Unwound.world.heap.stats = ⟨3, 2, 1, 0⟩ ∧
      Unwound.log.countP HeapEvent.collects = 1 ∧
      Unwound.world.heap.liveObjects + Unwound.world.heap.stats.freed = 3 ∧
      Unwound.world.heap.stats.collections = 3 / 2 + 1 := by
  obtain ⟨htally, hacts⟩ := counters_tally (F := Unit) (ω := Unit) Unwound.code ⟨2⟩
  have hruns : (Heap.ofConfig ⟨2⟩).Runs Unwound.log Unwound.world.heap :=
    (hacts [Echo.surroundings] Unwound.start).client Echo.surroundings Unwound.program
  have hstats : Unwound.world.heap.stats = ⟨3, 2, 1, 0⟩ := by decide +kernel
  have hasked : Unwound.log.countP HeapEvent.collects = 1 := by decide +kernel
  obtain ⟨hbalance, -, -, hperiodic, -⟩ := htally hruns
  have hcollections := hperiodic (by decide)
  rw [hasked, hstats] at hcollections
  rw [hstats] at hbalance ⊢
  exact ⟨hruns, rfl, hasked, hbalance, hcollections⟩

end CallbackBridge
