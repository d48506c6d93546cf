/-
# The books of an invocation on the reference-counting host

The ledger accounts for the references that an invocation itself holds.  When a view is retired,
whatever is held beyond that has escaped.

* `Process.HoldsOn` says what holds on to an object, and `CountedWorld.surplus` how many references
  to a view the ledger does not account for.
* `Opened` and `Charged` say what is in the books before and after the call of the user function,
  and `Opened.charged` leads from one to the other.
* `Charged.surplus_pos` and `Charged.surplus_eq_zero` compare what is held with what is in the
  books.
-/
import CallbackBridge.Proofs.CountedCalls
import CallbackBridge.Proofs.Ledgers
import CallbackBridge.Proofs.ReferenceCounts
import CallbackBridge.Proofs.Rooting
namespace CallbackBridge

open HostOperation

variable {F G : Type}

/-! ## What is held -/

/-- The references of variables, of the kept list, and of bridges and targets. -/
def Process.roots (p : Process F G) : List ObjId :=
  p.rest.store.assigned.values ++ p.rest.store.kept ++ p.held

/-- Something holds on to an object: there is a reference outside all objects, or a living object
holds it.  What `own` lists is alive beside what user code, bridges and targets keep alive. -/
inductive Process.HoldsOn (p : Process F G) (own : List ObjId) (id : ObjId) :
    Option ObjId → Prop where
  /-- There is a reference outside all objects. -/
  | directly (hroot : id ∈ p.roots) : p.HoldsOn own id none
  /-- A living object holds it. -/
  | through {holder : ObjId} (hlives : p.rest.store.Lives (p.roots ++ own) holder)
      (hheld : id ∈ p.rest.store.heldBy holder) : p.HoldsOn own id (some holder)

/-- Whether something holds on to an object can be computed. -/
theorem Process.exists_holdsOn_iff {p : Process F G} {own : List ObjId} {id : ObjId} :
    (∃ holder, p.HoldsOn own id holder) ↔
      id ∈ p.roots ∨ ∃ o ∈ p.rest.store.reachable (p.roots ++ own ++ p.rest.store.circular),
        id ∈ p.rest.store.heldBy o := by
  constructor
  · rintro ⟨_, hroot | @⟨o, hlives, hheld⟩⟩
    · exact Or.inl hroot
    · exact Or.inr ⟨o, Store.mem_reachable_circular.mpr hlives, hheld⟩
  · rintro (hroot | ⟨o, hreachable, hheld⟩)
    · exact ⟨none, .directly hroot⟩
    · exact ⟨some o, .through (Store.mem_reachable_circular.mp hreachable) hheld⟩

instance (p : Process F G) (own : List ObjId) (id : ObjId) :
    Decidable (∃ holder, p.HoldsOn own id holder) :=
  decidable_of_iff _ Process.exists_holdsOn_iff.symm

/-- The array that an array is derived from. -/
def ArrayBase.source? : ArrayBase → Option ObjId
  | .derived source => some source
  | _ => none

/-- The array that an object is derived from, if it is an array and derived. -/
def Store.base? (s : Store G) (id : ObjId) : Option ObjId :=
  (s.array? id).bind fun a => a.base.source?

/-- What is found as an array is an array. -/
theorem Store.get?_of_array? {s : Store G} {id : ObjId} {a : CountedArray}
    (h : s.array? id = some a) : s.get? id = some (.array a) := by
  unfold array? at h
  split at h
  · next hget =>
    cases h
    exact hget
  · cases h

/-- A derived array holds what it is derived from, and nothing else. -/
theorem Store.heldBy_of_base? {s : Store G} {id source : ObjId} (h : s.base? id = some source) :
    s.heldBy id = [source] := by
  obtain ⟨a, harray, hsource⟩ := Option.bind_eq_some_iff.mp h
  unfold heldBy
  rw [get?_of_array? harray]
  obtain ⟨dtype, shape, offset, stride, base, writeable, memory⟩ := a
  cases base <;> cases hsource
  rfl

namespace CountedWorld

variable {w w' : CountedWorld F G} {id view : ObjId}

/-- The objects whose references count. -/
def living (w : CountedWorld F G) : List ObjId :=
  w.store.reachable (w.store.assigned.values ++ w.store.kept ++ (w.process.held ++ w.pinned) ++
    w.store.circular)

theorem mem_living {o : ObjId} : o ∈ w.living ↔ w.store.Lives (w.process.roots ++ w.pinned) o := by
  unfold living Process.roots
  rw [Store.mem_reachable_circular]
  simp only [List.append_assoc, store]

theorem nodup_living (w : CountedWorld F G) : w.living.Nodup := Store.nodup_reachable _ _

/-- References are those outside all objects, those of the guard, those of living objects, and the
one through which an object is looked at. -/
theorem refCount_eq (w : CountedWorld F G) (id : ObjId) :
    w.refCount id = 1 + (w.process.roots.count id + w.pinned.count id +
      (w.living.flatMap w.store.heldBy).count id) := by
  unfold refCount Process.roots
  rw [Store.references_eq]
  simp only [List.count_append, living, store]
  omega

/-! ## What is in the books -/

/-- Pins are counted as the guard holds them. -/
structure Balanced (w : CountedWorld F G) : Prop where
  /-- Each value is counted once for each of its pins. -/
  counts : ∀ id, w.ledger.pins.count id = w.pinned.count id
  /-- Only pinned values occur. -/
  positive : w.ledger.pins.Positive

/-- How many references to a view are not accounted for. -/
def surplus (w : CountedWorld F G) (view : ObjId) : Nat :=
  w.refCount view - (1 + w.ledger.pins.count view + w.ledger.derived.count view)

/-- If pins are counted they do not matter. -/
theorem Balanced.surplus_eq (h : w.Balanced) (view : ObjId) :
    w.surplus view = w.process.roots.count view + (w.living.flatMap w.store.heldBy).count view -
      w.ledger.derived.count view := by
  unfold surplus
  rw [w.refCount_eq, h.counts view]
  omega

/-- A pin is counted. -/
theorem Balanced.pin (h : w.Balanced) (id : ObjId) : (w.pin id).Balanced where
  counts other := by
    show (w.ledger.pins.increment id).count other = (id :: w.pinned).count other
    rw [Tally.count_increment, List.count_cons, h.counts id, h.counts other]
    by_cases hother : other = id
    · simp [hother]
    · simp [hother, Ne.symm hother]
  positive := h.positive.increment id

/-- The end of a pin that there is takes it off the books, and changes nothing else. -/
theorem Balanced.unpin (h : w.Balanced) (hid : id ∈ w.pinned) :
    (w.unpin id).Balanced ∧ (w.unpin id).pinned = w.pinned.erase id ∧
      (w.unpin id).process = w.process ∧ (w.unpin id).ledger.views = w.ledger.views ∧
      (w.unpin id).ledger.derived = w.ledger.derived := by
  have hpos : 0 < w.ledger.pins.count id := by
    rw [h.counts]
    exact List.count_pos_iff.mpr hid
  obtain ⟨pins, hpins⟩ := Tally.exists_decrement? hpos
  have hunpin : w.unpin id =
      { w with ledger := { w.ledger with pins }, pinned := w.pinned.erase id } := by
    unfold CountedWorld.unpin RefLedger.unpin
    simp only [hpins]
  rw [hunpin]
  refine ⟨⟨fun other => ?_, h.positive.decrement? hpins⟩, rfl, rfl, rfl, rfl⟩
  show pins.count other = (w.pinned.erase id).count other
  rw [(Tally.count_decrement? hpins).2 other, List.count_erase, h.counts, h.counts]
  by_cases hother : other = id
  · simp [hother]
  · simp [hother, Ne.symm hother]

/-- A view that is retired is taken off the books, with a warning if something is not accounted
for. -/
theorem retire_of_lookup {role : Role} (h : w.ledger.views.lookup view = some role) :
    w.retire view =
      { w with
        process :=
          if 0 < w.surplus view then w.process.warn (escapeWarning role (w.surplus view))
          else w.process
        ledger :=
          { w.ledger with
            views := w.ledger.views.filter fun entry => entry.1 ≠ view
            derived := w.ledger.derived.erase view } } := by
  unfold retire RefLedger.retire surplus
  simp only [h]
  split <;> rfl

end CountedWorld

/-! ## Until the guard closes -/

/-- What is in the books after some operations that have given nothing back. -/
structure Booked (ops : List (HostOperation ObjId ObjId)) (w : CountedWorld F G) : Prop where
  /-- Pins are counted. -/
  balanced : w.Balanced
  /-- The guard holds what was pinned. -/
  pinned : w.pinned = (pinnedValues ops).reverse
  /-- Each view is in the books, for its argument. -/
  shown : ∀ buffer view, .materialize buffer (.ok view) ∈ ops →
    w.ledger.views.lookup view = some buffer.role
  /-- Each view was made. -/
  made : ∀ view ∈ shownViews ops, ∃ buffer, .materialize buffer (.ok view) ∈ ops
  /-- Nothing else is in the books. -/
  known : ∀ entry ∈ w.ledger.views, entry.1 ∈ shownViews ops
  /-- No view was made twice. -/
  nodup : (shownViews ops).Nodup

namespace Booked

variable {ops : List (HostOperation ObjId ObjId)} {op : HostOperation ObjId ObjId}
  {w w' : CountedWorld F G} {id view : ObjId}

/-- An empty ledger is a book of nothing. -/
theorem start (hledger : w.ledger = {}) (hpinned : w.pinned = []) : Booked [] w where
  balanced :=
    ⟨fun id => by rw [hledger, hpinned]; rfl, by rw [hledger]; exact Tally.positive_empty⟩
  pinned := hpinned
  shown := by simp
  made := by simp
  known := by
    rw [hledger]
    simp
  nodup := List.nodup_nil

/-- Other operations leave the books alone. -/
theorem idle (h : Booked ops w) (hshown : op.shown? = none) (hpins : op.pinned? = none)
    (hpinned : w'.pinned = w.pinned) (hledger : w'.ledger.pins = w.ledger.pins)
    (hviews : w'.ledger.views = w.ledger.views) : Booked (ops ++ [op]) w' where
  balanced := ⟨fun id => by rw [hledger, hpinned]; exact h.balanced.counts id,
    by rw [hledger]; exact h.balanced.positive⟩
  pinned := by
    rw [hpinned, h.pinned]
    simp [hpins]
  shown buffer view hmem := by
    rcases List.mem_append.mp hmem with hmem | hmem
    · rw [hviews]
      exact h.shown buffer view hmem
    · rw [← List.mem_singleton.mp hmem] at hshown
      cases hshown
  made view hview := by
    have hmem : view ∈ shownViews ops := by simpa [hshown] using hview
    obtain ⟨buffer, hbuffer⟩ := h.made view hmem
    exact ⟨buffer, List.mem_append_left _ hbuffer⟩
  known := by
    rw [hviews]
    simpa [hshown] using h.known
  nodup := by simpa [hshown] using h.nodup

/-- A pin is noted. -/
theorem pin (h : Booked ops w) (id : ObjId) : Booked (ops ++ [.pin id]) (w.pin id) where
  balanced := h.balanced.pin id
  pinned := by
    show id :: w.pinned = _
    rw [h.pinned]
    simp [pinned?]
  shown buffer view hmem := h.shown buffer view (by simpa using hmem)
  made view hview := by
    obtain ⟨buffer, hbuffer⟩ := h.made view (by simpa [shown?] using hview)
    exact ⟨buffer, List.mem_append_left _ hbuffer⟩
  known entry hentry := by simpa [shown?] using h.known entry hentry
  nodup := by simpa [shown?] using h.nodup

/-- A new view is noted. -/
theorem materialize (h : Booked ops w) (buffer : Buffer)
    (hnew : (w.materialize buffer).1 ∉ shownViews ops) :
    Booked (ops ++ [.materialize buffer (.ok (w.materialize buffer).1)])
      (w.materialize buffer).2 where
  balanced := ⟨h.balanced.counts, h.balanced.positive⟩
  pinned := by
    show w.pinned = _
    rw [h.pinned]
    simp [pinned?]
  shown buffer' view hmem := by
    show List.lookup view (((w.materialize buffer).1, buffer.role) ::
      w.ledger.views.filter fun entry => entry.1 ≠ (w.materialize buffer).1) = _
    rcases List.mem_append.mp hmem with hmem | hmem
    · -- an older view is another one
      have hother : view ≠ (w.materialize buffer).1 := by
        rintro rfl
        exact hnew (mem_shownViews_of_made hmem)
      rw [lookup_cons_filter_ne, if_neg hother]
      exact h.shown buffer' view hmem
    · cases List.mem_singleton.mp hmem
      exact List.lookup_cons_self
  made view hview := by
    rw [shownViews_append] at hview
    rcases List.mem_append.mp hview with hview | hview
    · obtain ⟨buffer', hbuffer⟩ := h.made view hview
      exact ⟨buffer', List.mem_append_left _ hbuffer⟩
    · obtain rfl := List.mem_singleton.mp hview
      exact ⟨buffer, List.mem_append_right _ (List.mem_singleton_self _)⟩
  known entry hentry := by
    rw [shownViews_append]
    rcases List.mem_cons.mp hentry with rfl | hentry
    · exact List.mem_append_right _ (List.mem_singleton_self _)
    · exact List.mem_append_left _ (h.known entry (List.mem_filter.mp hentry).1)
  nodup := by
    rw [shownViews_append, List.nodup_append]
    refine ⟨h.nodup, List.nodup_singleton _, ?_⟩
    rintro view hview _ hlast rfl
    obtain rfl := List.mem_singleton.mp hlast
    exact hnew hview

/-- Exactly the views are in the books. -/
theorem isView_iff (h : Booked ops w) : w.ledger.isView view = true ↔ view ∈ shownViews ops := by
  unfold RefLedger.isView
  constructor
  · intro hview
    obtain ⟨role, hrole⟩ := Option.isSome_iff_exists.mp hview
    obtain ⟨before, after, heq, -⟩ := List.lookup_eq_some_iff.mp hrole
    exact h.known (view, role) (heq ▸ List.mem_append_right _ List.mem_cons_self)
  · intro hview
    obtain ⟨buffer, hbuffer⟩ := h.made view hview
    rw [h.shown buffer view hbuffer]
    rfl

end Booked

/-- What is in the books while nothing has been called. -/
structure Opened (ops : List (HostOperation ObjId ObjId)) (w : CountedWorld F G) : Prop extends
    Booked ops w where
  /-- The views are in the store. -/
  stored : ∀ view ∈ shownViews ops, view.index < w.store.objects.size
  /-- Nothing was derived from them. -/
  derived : w.ledger.derived = {}

section Steps

variable {run : CallableRunner F G} {w w' : CountedWorld F G}
  {ops : List (HostOperation ObjId ObjId)} {op : HostOperation ObjId ObjId}

/-- An operation that neither calls nor gives anything back keeps the books. -/
theorem Opened.step (h : Opened ops w) (hperforms : op.Performs (CountedWorld.runtime run) w w')
    (hcalls : ¬ op.Calls) (hgives : ¬ op.GivesBack) : Opened (ops ++ [op]) w' := by
  have hidle : ∀ {op : HostOperation ObjId ObjId}, op.shown? = none → op.pinned? = none → w' = w →
      Opened (ops ++ [op]) w' := by
    rintro op hshown hpinned rfl
    exact ⟨h.toBooked.idle hshown hpinned rfl rfl rfl, by simpa [hshown] using h.stored, h.derived⟩
  cases op with
  | resolve name found => exact hidle rfl rfl (congrArg Prod.snd hperforms).symm
  | isCallable value callable => exact hidle rfl rfl (congrArg Prod.snd hperforms).symm
  | typeName value name => exact hidle rfl rfl (congrArg Prod.snd hperforms).symm
  | persist value handle => exact hidle rfl rfl (congrArg Prod.snd hperforms).symm
  | attach handle value => exact hidle rfl rfl (congrArg Prod.snd hperforms).symm
  | read value result => exact hidle rfl rfl (congrArg Prod.snd hperforms).symm
  | repoint view buffer done =>
    cases hperforms
    exact hidle rfl rfl rfl
  | pin id =>
    obtain rfl : w.pin id = w' := hperforms
    refine ⟨h.toBooked.pin id, fun view hview => ?_, h.derived⟩
    exact h.stored view (by simpa [shown?] using hview)
  | materialize buffer made =>
    obtain ⟨rfl, rfl⟩ : (.ok (w.materialize buffer).1 : Except HostError ObjId) = made ∧
        (w.materialize buffer).2 = w' := by
      cases hperforms
      exact ⟨rfl, rfl⟩
    -- the identity of the new view is the one after those of all objects
    have hindex : (w.materialize buffer).1 = ⟨w.store.objects.size⟩ := rfl
    have hsize : (w.materialize buffer).2.store.objects.size = w.store.objects.size + 1 :=
      Array.size_push _
    have hnew : (w.materialize buffer).1 ∉ shownViews ops := by
      intro hmem
      have hlt := h.stored _ hmem
      rw [hindex] at hlt
      exact Nat.lt_irrefl _ hlt
    refine ⟨h.toBooked.materialize buffer hnew, ?_, h.derived⟩
    intro view hview
    rw [hsize]
    rw [shownViews_append] at hview
    rcases List.mem_append.mp hview with hview | hview
    · exact Nat.lt_succ_of_lt (h.stored view hview)
    · obtain rfl := List.mem_singleton.mp hview
      rw [hindex]
      exact Nat.lt_succ_self _
  | call f views called => exact (hcalls trivial).elim
  | retire view => exact (hgives trivial).elim
  | unpin id => exact (hgives trivial).elim
  | release handle => exact (hgives trivial).elim

/-- Operations that neither call nor give anything back keep the books. -/
theorem Opened.carries (hrun : Carries (fun op => op.Performs (CountedWorld.runtime run)) w ops w')
    (hops : ∀ op ∈ ops, ¬ op.Calls ∧ ¬ op.GivesBack) (h : Opened [] w) : Opened ops w' :=
  hrun.preserves (P := Opened)
    (fun _ op _ _ hop hpre hperforms => hpre.step hperforms (hops op hop).1 (hops op hop).2) h

/-- An operation that neither calls nor gives anything back warns of nothing. -/
theorem warnings_of_performs (hperforms : op.Performs (CountedWorld.runtime run) w w')
    (hcalls : ¬ op.Calls) (hgives : ¬ op.GivesBack) :
    w'.process.rest.warnings = w.process.rest.warnings := by
  cases op with
  | repoint view buffer done =>
    cases hperforms
    rfl
  | pin id =>
    obtain rfl : w.pin id = w' := hperforms
    rfl
  | materialize buffer made =>
    obtain rfl : (w.materialize buffer).2 = w' := by
      cases hperforms
      rfl
    rfl
  | call f views called => exact (hcalls trivial).elim
  | retire view => exact (hgives trivial).elim
  | unpin id => exact (hgives trivial).elim
  | release handle => exact (hgives trivial).elim
  | _ => rw [show w' = w from (congrArg Prod.snd hperforms).symm]

end Steps

/-! ## The call -/

/-- What is in the books when the guard closes, given what the user function has returned. -/
structure Charged (ops : List (HostOperation ObjId ObjId)) (result : Option ObjId)
    (w : CountedWorld F G) : Prop extends Booked ops w where
  /-- The guard holds what was returned. -/
  result_pinned : ∀ r, result = some r → r ∈ w.pinned
  /-- If that is derived from a view, this is noted. -/
  derived : w.ledger.derived =
    ((result.bind w.store.base?).filter w.ledger.isView).elim {} fun view => ⟨[(view, 1)]⟩

/-- The ledger after a result was derived from a view, if it was derived from one. -/
def RefLedger.deriveFrom {α : Type} [DecidableEq α] (l : RefLedger α) (source : Option α) :
    RefLedger α :=
  source.elim l l.derive

section DeriveFrom

variable {α : Type} [DecidableEq α] {l : RefLedger α}

theorem RefLedger.pins_deriveFrom (source : Option α) : (l.deriveFrom source).pins = l.pins := by
  cases source <;> rfl

theorem RefLedger.views_deriveFrom (source : Option α) : (l.deriveFrom source).views = l.views := by
  cases source <;> rfl

theorem RefLedger.isView_deriveFrom (source : Option α) :
    (l.deriveFrom source).isView = l.isView := by
  cases source <;> rfl

theorem RefLedger.derived_deriveFrom (h : l.derived = {}) (source : Option α) :
    (l.deriveFrom source).derived = source.elim {} fun view => ⟨[(view, 1)]⟩ := by
  cases source with
  | none => exact h
  | some view =>
    show l.derived.increment view = _
    rw [h]
    rfl

end DeriveFrom

/-- A result that is derived from a view is noted. -/
theorem CountedWorld.noteDerived_eq (r : ObjId) (w : CountedWorld F G) :
    w.noteDerived r =
      { w with ledger := w.ledger.deriveFrom ((w.store.base? r).filter w.ledger.isView) } := by
  unfold noteDerived Store.base?
  cases harray : w.store.array? r with
  | none => rfl
  | some a =>
    obtain ⟨dtype, shape, offset, stride, base, writeable, memory⟩ := a
    cases base with
    | derived base =>
      cases hview : w.ledger.isView base <;>
        simp [ArrayBase.source?, Option.filter, hview, RefLedger.deriveFrom]
    | _ => rfl

section Calls

variable {run : CallableRunner F G} {w w' : CountedWorld F G}
  {ops : List (HostOperation ObjId ObjId)} {f : ObjId} {views : StateViews ObjId}
  {called : Outcome HostError ObjId}

/-- After the call it is noted whether the result is derived from a view. -/
theorem Opened.call (h : Opened ops w)
    (hperforms : (HostOperation.call f views called : HostOperation ObjId ObjId).Performs
      (CountedWorld.runtime run) w w') :
    Booked (ops ++ [.call f views called]) w' ∧
      w'.ledger.derived = ((called.toOption.bind w'.store.base?).filter w'.ledger.isView).elim {}
        fun view => ⟨[(view, 1)]⟩ := by
  change CountedWorld.call run f views w = (called, w') at hperforms
  -- of the books a call changes at most what is derived
  suffices hbooks : w'.pinned = w.pinned ∧ w'.ledger.pins = w.ledger.pins ∧
      w'.ledger.views = w.ledger.views ∧ w'.ledger.derived =
        ((called.toOption.bind w'.store.base?).filter w'.ledger.isView).elim {}
          fun view => ⟨[(view, 1)]⟩ by
    obtain ⟨hpinned, hpins, hviews, hderived⟩ := hbooks
    exact ⟨h.toBooked.idle rfl rfl hpinned hpins hviews, hderived⟩
  unfold CountedWorld.call at hperforms
  split at hperforms
  · next code _ =>
    split at hperforms
    · next r p _ =>
      obtain ⟨rfl, rfl⟩ := Prod.mk.inj hperforms
      rw [CountedWorld.noteDerived_eq]
      refine ⟨rfl, RefLedger.pins_deriveFrom _, RefLedger.views_deriveFrom _, ?_⟩
      refine (RefLedger.derived_deriveFrom h.derived _).trans ?_
      show _ = Option.elim ((Store.base? p.rest.store r).filter
        (w.ledger.deriveFrom _).isView) _ _
      rw [RefLedger.isView_deriveFrom]
      rfl
    · next e p _ =>
      obtain ⟨rfl, rfl⟩ := Prod.mk.inj hperforms
      exact ⟨rfl, rfl, rfl, h.derived⟩
    · next message p _ =>
      obtain ⟨rfl, rfl⟩ := Prod.mk.inj hperforms
      exact ⟨rfl, rfl, rfl, h.derived⟩
  · obtain ⟨rfl, rfl⟩ := Prod.mk.inj hperforms
    exact ⟨rfl, rfl, rfl, h.derived⟩

end Calls

/-- What follows the call: what is returned is pinned and read. -/
inductive Followed : Outcome HostError ObjId → List (HostOperation ObjId ObjId) → Prop where
  /-- Nothing is returned. -/
  | stopped (stop : Stop HostError) : Followed (.error stop) []
  /-- Something is returned. -/
  | returned (r : ObjId) (read : Except HostError (List Binary64)) :
      Followed (.ok r) [.pin r, .read r read]

/-- What follows the call neither calls nor gives anything back. -/
theorem Followed.keeps {called : Outcome HostError ObjId} {ops : List (HostOperation ObjId ObjId)}
    (h : Followed called ops) : ∀ op ∈ ops, ¬ op.Calls ∧ ¬ op.GivesBack := by
  cases h <;> simp [Calls, GivesBack]

/-- What the books say once a function has been called. -/
theorem Opened.charged {run : CallableRunner F G} {w after w' : CountedWorld F G}
    {pre post : List (HostOperation ObjId ObjId)} {f : ObjId} {views : StateViews ObjId}
    {called : Outcome HostError ObjId} (h : Opened pre w)
    (hcall : (HostOperation.call f views called : HostOperation ObjId ObjId).Performs
      (CountedWorld.runtime run) w after) (hfollowed : Followed called post)
    (hafter : Carries (fun op => op.Performs (CountedWorld.runtime run)) after post w') :
    Charged (pre ++ .call f views called :: post) called.toOption w' ∧
      w'.process = after.process := by
  obtain ⟨hbooked, hderived⟩ := h.call hcall
  cases hfollowed with
  | stopped stop =>
    obtain rfl : after = w' := hafter
    exact ⟨⟨hbooked, (fun r hr => by cases hr), hderived⟩, rfl⟩
  | returned r read =>
    obtain ⟨_, rfl, _, hread, rfl⟩ := hafter
    obtain rfl : _ = after.pin r := (congrArg Prod.snd hread).symm
    have hbooks : Booked (pre ++ [.call f views (.ok r)] ++ [.pin r] ++ [.read r read])
        (after.pin r) := (hbooked.pin r).idle rfl rfl rfl rfl rfl
    refine ⟨⟨by simpa using hbooks, ?_, hderived⟩, rfl⟩
    intro r' hr'
    cases hr'
    exact List.mem_cons_self

/-! ## Whole openings -/

/-- Before the guard closes, the function is called with the views that were made, and what it
returns is pinned and read. -/
structure Asked (ops : List (HostOperation ObjId ObjId)) (f : ObjId) (views : StateViews ObjId)
    (called : Outcome HostError ObjId) : Prop where
  /-- There is one call, and what follows it depends on what it gives. -/
  split : ∃ pre post, ops = pre ++ .call f views called :: post ∧
    (∀ op ∈ pre, ¬ op.Calls ∧ ¬ op.GivesBack) ∧ Followed called post
  /-- The views are those that were made. -/
  shown : shownViews ops = views.toList
  /-- Only the function, the views and the result are pinned. -/
  pinned : ∀ id ∈ pinnedValues ops, id ∈ f :: views.toList ∨ called = .ok id

/-- A host that cannot move views makes new ones, or has no views at all. -/
theorem Viewing.makes {buffers : StateViews Buffer} {strategy : ViewStrategy}
    {kept kept' : Option (StateViews ObjId)} {ops : List (HostOperation ObjId ObjId)}
    {result : Except HostError (StateViews ObjId)}
    (h : Viewing false buffers strategy kept ops result kept') :
    Makes buffers.toList ops (result.map StateViews.toList) ∨
      ops = [] ∧ ∃ e, result = .error e := by
  cases h with
  | unmade hmakes => exact Or.inl hmakes
  | fresh hmakes => exact Or.inl hmakes
  | unsupported _ => exact Or.inr ⟨rfl, _, rfl⟩
  | first hsupports _ => cases hsupports
  | later hsupports _ => cases hsupports

section Openings

variable {run : CallableRunner F G} {w w' : CountedWorld F G}
  {ops : List (HostOperation ObjId ObjId)} {f : ObjId} {views : StateViews ObjId}
  {called : Outcome HostError ObjId}

/-- Before the guard closes, an invocation on this host calls the function with new views, or it
makes none. -/
theorem Opening.asked_or_idle {bridge : Bridge ObjId} {entry : Entry} {admission : Admission}
    {res res' : Output} {outcome : Outcome BridgeError Unit} {kept : Option (StateViews ObjId)}
    (h : Opening false bridge entry admission res ops outcome kept res')
    (hrun : Carries (fun op => op.Performs (CountedWorld.runtime run)) w ops w') :
    ((∀ op ∈ ops, ¬ op.Calls ∧ ¬ op.GivesBack) ∧ shownViews ops = []) ∨
      ∃ f views called, Asked ops f views called := by
  have hkeeps := h.disciplined.keeps
  cases h with
  | unfound hlookup =>
    refine Or.inl ⟨fun op hop => ?_, shownViews_eq_nil fun op hop => (hlookup.idle op hop).1⟩
    have hexcludes := (hlookup.looks op hop).excludes
    exact ⟨hexcludes.2.2.1, hexcludes.1⟩
  | @unseen looking viewing f e _ hlookup hviewing =>
    have hcalls := hlookup.calls_nothing hviewing
    obtain ⟨u, -, _, rfl, hviewed⟩ := carries_append.mp hrun
    have hnone : shownViews looking = [] := shownViews_eq_nil fun op hop => (hlookup.idle op hop).1
    rcases hviewing.makes with hmakes | ⟨rfl, -⟩
    · -- new views can always be made
      obtain ⟨-, views, hviews, -⟩ := hmakes.counted hviewed
      cases hviews
    · exact Or.inl ⟨fun op hop => ⟨hcalls op hop, hkeeps op hop⟩, by simp [hnone, shown?]⟩
  | @asked looking viewing asking f views _ _ _ hlookup hviewing hanswering =>
    have hcalls := hlookup.calls_nothing hviewing
    have hpinned := hviewing.pinnedValues_eq
    have hnone : shownViews looking = [] := shownViews_eq_nil fun op hop => (hlookup.idle op hop).1
    have hnopin : pinnedValues looking = [] :=
      pinnedValues_eq_nil fun op hop => (hlookup.idle op hop).2
    have hshown : shownViews viewing = views.toList := by
      rcases hviewing.makes with hmakes | ⟨-, e, he⟩
      · rw [hmakes.shownViews_eq, hpinned]
      · cases he
    have hpre : ∀ op ∈ looking ++ .pin f :: viewing, ¬ op.Calls ∧ ¬ op.GivesBack := by
      intro op hop
      refine ⟨hcalls op hop, hkeeps op ?_⟩
      rw [show looking ++ .pin f :: (viewing ++ asking) = (looking ++ .pin f :: viewing) ++ asking
        by simp]
      exact List.mem_append_left _ hop
    rcases hanswering.disciplined with ⟨stop, rfl⟩ | ⟨r, read, rfl⟩
    · refine Or.inr ⟨f, views, .error stop, ⟨_, _, ?_, hpre, .stopped stop⟩, ?_, ?_⟩
      · simp
      · simp [hnone, hshown, shown?]
      · simp [hnopin, hpinned, pinned?]
    · refine Or.inr ⟨f, views, .ok r, ⟨_, _, ?_, hpre, .returned r read⟩, ?_, ?_⟩
      · simp
      · simp [hnone, hshown, shown?]
      · simp [hnopin, hpinned, pinned?]
        grind

end Openings

/-! ## What has escaped -/

namespace Charged

variable {w : CountedWorld F G} {ops : List (HostOperation ObjId ObjId)} {result : Option ObjId}
  {view : ObjId}

/-- A result that is derived from the view is all that is noted of it. -/
theorem derived_count (h : Charged ops result w) (hview : view ∈ shownViews ops) :
    w.ledger.derived.count view = if result.bind w.store.base? = some view then 1 else 0 := by
  rw [h.derived]
  cases hbase : result.bind w.store.base? with
  | none => rfl
  | some base =>
    by_cases hsame : base = view
    · subst hsame
      have hkept : Option.filter w.ledger.isView (some base) = some base := by
        simp [Option.filter, h.isView_iff.mpr hview]
      rw [hkept, if_pos rfl]
      exact congrArg (Option.getD · 0) List.lookup_cons_self
    · rw [if_neg fun heq => hsame (Option.some.inj heq)]
      cases hkept : w.ledger.isView base with
      | false => simp [Option.filter, hkept, Tally.count]
      | true => simp [Option.filter, hkept, Tally.count, lookup_cons_of_ne (Ne.symm hsame)]

/-- The result itself is alive as long as the guard holds it. -/
theorem result_living (h : Charged ops result w) {r : ObjId} (hr : result = some r) :
    r ∈ w.living :=
  CountedWorld.mem_living.mpr (Store.lives_of_mem (List.mem_append_right _ (h.result_pinned r hr)))

/-- If anything holds on to a view but the array that was returned, not all is accounted for. -/
theorem surplus_pos (h : Charged ops result w) (hview : view ∈ shownViews ops)
    {holder : Option ObjId} (hholds : w.process.HoldsOn [] view holder)
    (hother : ∀ o, holder = some o → result = some o → w.store.array? o = none) :
    0 < w.surplus view := by
  rw [h.balanced.surplus_eq, h.derived_count hview]
  have hliving : ∀ o, w.store.Lives (w.process.roots ++ []) o → o ∈ w.living := fun o ho =>
    CountedWorld.mem_living.mpr (ho.mono fun root hroot => Store.lives_of_mem (by
      rw [List.append_nil] at hroot
      exact List.mem_append_left _ hroot))
  by_cases hbase : result.bind w.store.base? = some view
  · -- the returned array has a share of one
    rw [if_pos hbase]
    obtain ⟨r, hr, hrbase⟩ := Option.bind_eq_some_iff.mp hbase
    have hshare : (w.store.heldBy r).count view = 1 := by
      rw [Store.heldBy_of_base? hrbase, List.count_singleton_self]
    rw [count_flatMap_of_mem (h.result_living hr), hshare]
    cases hholds with
    | directly hroot =>
      have hpos := List.count_pos_iff.mpr hroot
      omega
    | @through o hlives hheld =>
      have hne : o ≠ r := by
        rintro rfl
        obtain ⟨a, harray, -⟩ := Option.bind_eq_some_iff.mp hrbase
        rw [hother o rfl hr] at harray
        cases harray
      have hpos : 0 < ((w.living.erase r).flatMap w.store.heldBy).count view :=
        count_flatMap_pos ((List.mem_erase_of_ne hne).mpr (hliving o hlives)) hheld
      omega
  · rw [if_neg hbase]
    cases hholds with
    | directly hroot =>
      have hpos := List.count_pos_iff.mpr hroot
      omega
    | @through o hlives hheld =>
      have hpos : 0 < (w.living.flatMap w.store.heldBy).count view :=
        count_flatMap_pos (hliving o hlives) hheld
      omega

/-- If nothing else holds on to a view, only a result that is derived from it is alive and holds
it. -/
theorem eq_result_of_heldBy {own : List ObjId}
    (hpinned : ∀ id ∈ w.pinned, id ∈ own ∨ result = some id)
    (hkeeps : ∀ holder, ¬ w.process.HoldsOn own view holder)
    (hresult : ∀ r, result = some r → r ∈ own ∨ (∃ base ∈ own, w.store.base? r = some base) ∨
      ¬ w.store.Leads r view)
    {o : ObjId} (hliving : o ∈ w.living) (hheld : view ∈ w.store.heldBy o) :
    result = some o ∧ w.store.base? o = some view := by
  have hnone : ¬ w.store.Lives (w.process.roots ++ own) o :=
    fun hlives => hkeeps (some o) (.through hlives hheld)
  have hown : ∀ {root : ObjId}, root ∈ own → ¬ w.store.Leads root o :=
    fun hmem hleads => hnone ((Store.lives_of_mem (List.mem_append_right _ hmem)).leads hleads)
  obtain ⟨root, hroot | hitself, hleads⟩ := CountedWorld.mem_living.mp hliving
  · rcases List.mem_append.mp hroot with hroot | hroot
    · exact absurd ((Store.lives_of_mem (List.mem_append_left _ hroot)).leads hleads) hnone
    · rcases hpinned root hroot with hmem | hr
      · exact absurd hleads (hown hmem)
      · rcases hresult root hr with hmem | ⟨base, hbase, hderived⟩ | hunrelated
        · exact absurd hleads (hown hmem)
        · -- the result holds what it is derived from, and nothing else
          have hheldBy := Store.heldBy_of_base? hderived
          rcases Relation.ReflTransGen.cases_head hleads with rfl | ⟨next, hnext, hrest⟩
          · rw [hheldBy, List.mem_singleton] at hheld
            exact ⟨hr, hheld ▸ hderived⟩
          · rw [hheldBy, List.mem_singleton] at hnext
            exact absurd (hnext ▸ hrest) (hown hbase)
        · exact absurd (hleads.tail hheld) hunrelated
  · exact absurd ⟨root, Or.inr hitself, hleads⟩ hnone

/-- If nothing holds on to a view but a result that is derived from it, all is accounted for. -/
theorem surplus_eq_zero (h : Charged ops result w) (hview : view ∈ shownViews ops)
    {own : List ObjId} (hpinned : ∀ id ∈ w.pinned, id ∈ own ∨ result = some id)
    (hkeeps : ∀ holder, ¬ w.process.HoldsOn own view holder)
    (hresult : ∀ r, result = some r → r ∈ own ∨ (∃ base ∈ own, w.store.base? r = some base) ∨
      ¬ w.store.Leads r view) :
    w.surplus view = 0 := by
  have hroots : w.process.roots.count view = 0 :=
    List.count_eq_zero.mpr fun hroot => hkeeps none (.directly hroot)
  have hholder : ∀ o ∈ w.living, view ∈ w.store.heldBy o →
      result = some o ∧ w.store.base? o = some view :=
    fun o hliving hheld => eq_result_of_heldBy hpinned hkeeps hresult hliving hheld
  rw [h.balanced.surplus_eq, h.derived_count hview, hroots]
  by_cases hbase : result.bind w.store.base? = some view
  · rw [if_pos hbase]
    obtain ⟨r, hr, hrbase⟩ := Option.bind_eq_some_iff.mp hbase
    have hothers : ((w.living.erase r).flatMap w.store.heldBy).count view = 0 := by
      refine count_flatMap_eq_zero fun o ho hheld => ?_
      rw [w.nodup_living.mem_erase_iff] at ho
      exact ho.1 (Option.some.inj ((hholder o ho.2 hheld).1.symm.trans hr))
    rw [count_flatMap_of_mem (h.result_living hr), hothers, Store.heldBy_of_base? hrbase,
      List.count_singleton_self]
  · rw [if_neg hbase, count_flatMap_eq_zero]
    intro o ho hheld
    obtain ⟨hr, hrbase⟩ := hholder o ho hheld
    exact hbase (Option.bind_eq_some_iff.mpr ⟨o, hr, hrbase⟩)

end Charged

end CallbackBridge
