/-
# Settling the books of an invocation

When the guard closes it retires the views in order and then undoes the pins.  Each of these steps
finds in the ledger what was there when the guard began to close, and takes it out.

* `Retiring` says what has become of the world once some views are retired, and `Unpinning` once
  some pins are undone.
* `Charged.settled` says that nothing is left in the books, and which views are warned about.
-/
import CallbackBridge.Proofs.Bookkeeping
namespace CallbackBridge

open HostOperation

variable {F G : Type}

/-! ## Views are retired -/

/-- What has become of the world in which the guard began to close, once it has retired some
views. -/
structure Retiring (w : CountedWorld F G) (done : List ObjId) (u : CountedWorld F G) : Prop where
  /-- The objects are the same. -/
  store : u.store = w.store
  /-- Bridges and targets hold the same. -/
  held : u.process.held = w.process.held
  /-- The guard holds the same. -/
  pinned : u.pinned = w.pinned
  /-- The same pins are counted. -/
  pins : u.ledger.pins = w.ledger.pins
  /-- The other views are in the books. -/
  views : u.ledger.views = w.ledger.views.filter fun entry => decide (entry.1 ∉ done)
  /-- What was derived from them is noted. -/
  derived : u.ledger.derived.entries =
    w.ledger.derived.entries.filter fun entry => decide (entry.1 ∉ done)

namespace Retiring

variable {run : CallableRunner F G} {w m u : CountedWorld F G} {done views : List ObjId}
  {view : ObjId} {role : Role}

theorem start (w : CountedWorld F G) : Retiring w [] w :=
  ⟨rfl, rfl, rfl, rfl, by simp, by simp⟩

/-- A view that is not retired yet is in the books as before. -/
theorem lookup (h : Retiring w done u) (hview : view ∉ done) :
    u.ledger.views.lookup view = w.ledger.views.lookup view := by
  rw [h.views, lookup_filter (fun id => decide (id ∉ done)), if_pos (by simpa using hview)]

/-- A view that is not retired yet has the same references, and the same are accounted for. -/
theorem surplus (h : Retiring w done u) (hview : view ∉ done) :
    u.surplus view = w.surplus view := by
  have hderived : u.ledger.derived.count view = w.ledger.derived.count view := by
    unfold Tally.count
    rw [h.derived, lookup_filter (fun id => decide (id ∉ done)), if_pos (by simpa using hview)]
  unfold CountedWorld.surplus CountedWorld.refCount
  rw [h.store, h.held, h.pinned, h.pins, hderived]

/-- The next view is retired. -/
theorem retire (h : Retiring w done u) (hview : view ∉ done)
    (hrole : w.ledger.views.lookup view = some role) :
    Retiring w (done ++ [view]) (u.retire view) := by
  have hfilter : ∀ id : ObjId, (decide (id ≠ view) && decide (id ∉ done)) =
      decide (id ∉ done ++ [view]) := by
    intro id
    by_cases hid : id = view <;> simp [hid, hview]
  rw [CountedWorld.retire_of_lookup ((h.lookup hview).trans hrole)]
  refine ⟨?_, ?_, h.pinned, h.pins, ?_, ?_⟩
  · rw [← h.store]
    unfold CountedWorld.store
    dsimp only
    split <;> rfl
  · rw [← h.held]
    dsimp only
    split <;> rfl
  · show u.ledger.views.filter _ = _
    rw [h.views, List.filter_filter]
    simp only [hfilter]
  · show u.ledger.derived.entries.filter _ = _
    rw [h.derived, List.filter_filter]
    simp only [hfilter]

/-- Retiring views leaves pins counted. -/
theorem balanced (h : Retiring w done u) (hbalanced : w.Balanced) : u.Balanced where
  counts id := by
    rw [h.pins, h.pinned]
    exact hbalanced.counts id
  positive := by
    rw [h.pins]
    exact hbalanced.positive

/-- Views are retired one by one. -/
theorem carries (h : Retiring w done m)
    (hrun : Carries (fun op => op.Performs (CountedWorld.runtime run)) m (views.map .retire) u)
    (hroles : ∀ view ∈ views, ∃ role, w.ledger.views.lookup view = some role)
    (hnodup : (done ++ views).Nodup) : Retiring w (done ++ views) u := by
  induction views generalizing done m with
  | nil =>
    obtain rfl : m = u := hrun
    rwa [List.append_nil]
  | cons view rest ih =>
    obtain ⟨_, rfl, hrest⟩ := hrun
    obtain ⟨role, hrole⟩ := hroles view List.mem_cons_self
    have hview : view ∉ done := fun hmem =>
      List.disjoint_of_nodup_append hnodup hmem List.mem_cons_self
    rw [List.append_cons] at hnodup ⊢
    exact ih (h.retire hview hrole) hrest
      (fun other hother => hroles other (List.mem_cons_of_mem view hother)) hnodup

end Retiring

/-! ## Pins are undone -/

/-- What has become of the world when the guard undoes its pins. -/
structure Unpinning (m : CountedWorld F G) (rest : List ObjId) (u : CountedWorld F G) : Prop where
  /-- Pins are counted. -/
  balanced : u.Balanced
  /-- These are still to be undone. -/
  pinned : u.pinned = rest
  /-- The process is the same. -/
  process : u.process = m.process
  /-- The same views are in the books. -/
  views : u.ledger.views = m.ledger.views
  /-- The same results are noted. -/
  derived : u.ledger.derived = m.ledger.derived

namespace Unpinning

variable {run : CallableRunner F G} {m v u : CountedWorld F G} {ids rest : List ObjId} {id : ObjId}

theorem start (h : m.Balanced) : Unpinning m m.pinned m := ⟨h, rfl, rfl, rfl, rfl⟩

/-- The next pin is undone. -/
theorem unpin (h : Unpinning m (id :: rest) u) : Unpinning m rest (u.unpin id) := by
  have hmem : id ∈ u.pinned := h.pinned ▸ List.mem_cons_self
  obtain ⟨hbalanced, hpinned, hprocess, hviews, hderived⟩ := h.balanced.unpin hmem
  refine ⟨hbalanced, ?_, hprocess.trans h.process, hviews.trans h.views, hderived.trans h.derived⟩
  rw [hpinned, h.pinned, List.erase_cons_head]

/-- Pins are undone one by one. -/
theorem carries (h : Unpinning m (ids ++ rest) v)
    (hrun : Carries (fun op => op.Performs (CountedWorld.runtime run)) v (ids.map .unpin) u) :
    Unpinning m rest u := by
  induction ids generalizing v with
  | nil =>
    obtain rfl : v = u := hrun
    exact h
  | cons id ids ih =>
    obtain ⟨_, rfl, hrest⟩ := hrun
    exact ih h.unpin hrest

end Unpinning

/-! ## The guard closes -/

/-- What happens while the guard closes, given the world in which it begins to. -/
structure Settlement (ops : List (HostOperation ObjId ObjId)) (w : CountedWorld F G)
    (moments : List (Moment (CountedWorld F G) ObjId ObjId)) (w' : CountedWorld F G) : Prop where
  /-- Nothing is left in the books. -/
  ledger : w'.ledger = {}
  /-- The objects are the same. -/
  store : w'.store = w.store
  /-- Bridges and targets hold the same. -/
  held : w'.process.held = w.process.held
  /-- If something about a view is not accounted for, there is a warning when it is retired. -/
  escaped : ∀ buffer view, .materialize buffer (.ok view) ∈ ops → 0 < w.surplus view →
    ∃ moment ∈ moments, moment.operation = .retire view ∧ moment.after.process =
      moment.before.process.warn (CountedWorld.escapeWarning buffer.role (w.surplus view))
  /-- Nothing else happens to the process. -/
  steps : ∀ moment ∈ moments, moment.after.process = moment.before.process ∨
    ∃ buffer view, .materialize buffer (.ok view) ∈ ops ∧ 0 < w.surplus view ∧
      moment.operation = .retire view ∧ moment.after.process =
        moment.before.process.warn (CountedWorld.escapeWarning buffer.role (w.surplus view))

section Closing

variable {run : CallableRunner F G} {w m w' : CountedWorld F G}
  {ops : List (HostOperation ObjId ObjId)} {result : Option ObjId}
  {moments : List (Moment (CountedWorld F G) ObjId ObjId)}
  {moment : Moment (CountedWorld F G) ObjId ObjId}

/-- Each view is in the books. -/
theorem Booked.exists_role (h : Booked ops w) {view : ObjId} (hview : view ∈ shownViews ops) :
    ∃ role, w.ledger.views.lookup view = some role := by
  obtain ⟨buffer, hbuffer⟩ := h.made view hview
  exact ⟨buffer.role, h.shown buffer view hbuffer⟩

/-- A view is retired with what the books said of it when the guard began to close. -/
theorem Booked.retire_moment (h : Booked ops w)
    (hchain : Chain (CountedWorld.runtime run) w moments m)
    (hops : moments.map Moment.operation = (shownViews ops).map .retire)
    (hmoment : moment ∈ moments) :
    ∃ buffer view, .materialize buffer (.ok view) ∈ ops ∧ moment.operation = .retire view ∧
      moment.after.process =
        if 0 < w.surplus view then
          moment.before.process.warn (CountedWorld.escapeWarning buffer.role (w.surplus view))
        else moment.before.process := by
  obtain ⟨done, view, rest, hviews, hretire, hcarries⟩ := hchain.exists_value hops hmoment
  have hperforms := hchain.performs_of_mem hmoment
  have hmem : view ∈ shownViews ops := hviews ▸ List.mem_append_right done List.mem_cons_self
  have hnodup : (done ++ [view]).Nodup := by
    have hnodup := h.nodup
    rw [hviews, List.append_cons] at hnodup
    exact hnodup.of_append_left
  have hnew : view ∉ done := fun hold =>
    List.disjoint_of_nodup_append hnodup hold (List.mem_singleton_self view)
  obtain ⟨buffer, hbuffer⟩ := h.made view hmem
  have hrole := h.shown buffer view hbuffer
  have hretiring : Retiring w done moment.before := (Retiring.start w).carries hcarries
    (fun other hother => h.exists_role (hviews ▸ List.mem_append_left _ hother))
    hnodup.of_append_left
  refine ⟨buffer, view, hbuffer, hretire, ?_⟩
  rw [hretire] at hperforms
  rw [← show moment.before.retire view = moment.after from hperforms,
    CountedWorld.retire_of_lookup ((hretiring.lookup hnew).trans hrole), hretiring.surplus hnew]

/-- Undoing a pin leaves the process alone. -/
theorem Unpinning.moment_process {ids : List ObjId} (h : Unpinning w ids m)
    (hchain : Chain (CountedWorld.runtime run) m moments w')
    (hops : moments.map Moment.operation = ids.map .unpin) (hmoment : moment ∈ moments) :
    moment.after.process = moment.before.process := by
  obtain ⟨done, id, rest, rfl, hunpin, hcarries⟩ := hchain.exists_value hops hmoment
  have hperforms := hchain.performs_of_mem hmoment
  have hstill := h.carries hcarries
  rw [hunpin] at hperforms
  rw [← show moment.before.unpin id = moment.after from hperforms]
  exact (hstill.balanced.unpin (hstill.pinned ▸ List.mem_cons_self)).2.2.1

/-- Only derivations from views are in the books. -/
theorem Charged.derived_known (h : Charged ops result w) :
    ∀ entry ∈ w.ledger.derived.entries, entry.1 ∈ shownViews ops := by
  rw [h.derived]
  intro entry hentry
  cases hbase : (result.bind w.store.base?).filter w.ledger.isView with
  | none =>
    rw [hbase] at hentry
    cases hentry
  | some view =>
    rw [hbase] at hentry
    obtain rfl := List.mem_singleton.mp hentry
    exact h.isView_iff.mp (Option.filter_eq_some_iff.mp hbase).2

/-- **The guard closes the books.** -/
theorem Charged.settled (h : Charged ops result w)
    (hchain : Chain (CountedWorld.runtime run) w moments w')
    (hops : moments.map Moment.operation = closing ops) : Settlement ops w moments w' := by
  obtain ⟨retires, unpins, rfl, hretires, hunpins⟩ := List.map_eq_append_iff.mp hops
  obtain ⟨m, hretired, hunpinned⟩ := hchain.split
  have hretiring : Retiring w (shownViews ops) m := by
    have hcarries := hretired.performs
    rw [hretires] at hcarries
    exact (Retiring.start w).carries hcarries (fun view hview => h.exists_role hview) h.nodup
  rw [← h.pinned, ← hretiring.pinned] at hunpins
  have hstart := Unpinning.start (hretiring.balanced h.balanced)
  have hend : Unpinning m [] w' := by
    have hcarries := hunpinned.performs
    rw [hunpins] at hcarries
    rw [← List.append_nil m.pinned] at hstart
    exact hstart.carries hcarries
  have hgone : ∀ {β : Type} {entries : List (ObjId × β)}, (∀ entry ∈ entries,
      entry.1 ∈ shownViews ops) →
      entries.filter (fun entry => decide (entry.1 ∉ shownViews ops)) = [] := by
    intro β entries hknown
    rw [List.filter_eq_nil_iff]
    intro entry hentry
    simpa using hknown entry hentry
  refine ⟨?_, ?_, ?_, ?_, ?_⟩
  · have hpins : w'.ledger.pins = {} := hend.balanced.positive.eq_empty fun id => by
      rw [hend.balanced.counts, hend.pinned]
      rfl
    have hviews : w'.ledger.views = [] := by
      rw [hend.views, hretiring.views]
      exact hgone h.known
    have hderived : w'.ledger.derived.entries = [] := by
      rw [hend.derived, hretiring.derived]
      exact hgone h.derived_known
    obtain ⟨process, memory, dict, ⟨pins, views, ⟨derived⟩⟩, pinned⟩ := w'
    obtain rfl : pins = {} := hpins
    obtain rfl : views = [] := hviews
    obtain rfl : derived = [] := hderived
    rfl
  · rw [← hretiring.store]
    exact congrArg (fun process => process.rest.store) hend.process
  · rw [hend.process, hretiring.held]
  · intro buffer view hmade hsurplus
    have hretire : (.retire view : HostOperation ObjId ObjId) ∈ retires.map Moment.operation := by
      rw [hretires]
      exact List.mem_map_of_mem (mem_shownViews_of_made hmade)
    obtain ⟨moment, hmoment, hoperation⟩ := List.mem_map.mp hretire
    obtain ⟨buffer', view', hmade', hoperation', hprocess⟩ :=
      h.retire_moment hretired hretires hmoment
    cases hoperation.symm.trans hoperation'
    -- the books know one argument for each view
    have hrole : buffer.role = buffer'.role :=
      Option.some.inj ((h.shown buffer view hmade).symm.trans (h.shown buffer' view hmade'))
    rw [if_pos hsurplus, ← hrole] at hprocess
    exact ⟨moment, List.mem_append_left _ hmoment, hoperation, hprocess⟩
  · intro moment hmoment
    rcases List.mem_append.mp hmoment with hmoment | hmoment
    · obtain ⟨buffer, view, hmade, hoperation, hprocess⟩ :=
        h.retire_moment hretired hretires hmoment
      by_cases hsurplus : 0 < w.surplus view
      · rw [if_pos hsurplus] at hprocess
        exact Or.inr ⟨buffer, view, hmade, hsurplus, hoperation, hprocess⟩
      · rw [if_neg hsurplus] at hprocess
        exact Or.inl hprocess
    · exact Or.inl (hstart.moment_process hunpinned hunpins hmoment)

end Closing

end CallbackBridge
