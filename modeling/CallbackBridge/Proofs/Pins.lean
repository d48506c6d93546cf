/-
# What the bridge holds by pins

A list of references stands for pins that are owed: `Holds owed` says that each of them
leads to an object with at least as many pins as it is listed times.  What is held cannot
be collected, so each part of an invocation goes on holding what it began with, and beside
that what it has pinned itself (`Makes.holds`, `Moves.holds`, `Viewing.holds`).

Views that are held go on showing what they were made or moved to show (`Makes.shows`,
`Moves.shows`, `Viewing.shows`).
-/
import CallbackBridge.Proofs.HeapHosts
namespace CallbackBridge

open HostOperation

variable {F ω : Type} {I : Interface}

namespace Heap

variable {h h' : Heap F} {owed owed' : List ObjRef} {r : ObjRef}

/-! ## Pins that are owed -/

/-- The heap is sound, and each of the references leads to an object that has a pin for each
time it is listed. -/
structure Holds (h : Heap F) (owed : List ObjRef) : Prop where
  /-- References do not come back to life. -/
  sound : h.table.Sound
  /-- There are enough pins. -/
  pinned : ∀ r ∈ owed, ∃ e, h.entry? r = some e ∧ owed.count r ≤ e.pins

namespace Holds

/-- What is held has a pin. -/
theorem exists_pins (hholds : h.Holds owed) (hr : r ∈ owed) :
    ∃ e, h.entry? r = some e ∧ 0 < e.pins := by
  obtain ⟨e, he, hcount⟩ := hholds.pinned r hr
  exact ⟨e, he, Nat.lt_of_lt_of_le (List.count_pos_iff.mpr hr) hcount⟩

/-- What is held is there. -/
theorem isLive (hholds : h.Holds owed) (hr : r ∈ owed) : h.isLive r := by
  obtain ⟨e, he, -⟩ := hholds.exists_pins hr
  exact isLive_of_eq_some he

/-- Fewer pins may be owed, in any order. -/
theorem of_count_le (hholds : h.Holds owed) (hle : ∀ r, owed'.count r ≤ owed.count r) :
    h.Holds owed' where
  sound := hholds.sound
  pinned r hr := by
    have hmem : r ∈ owed :=
      List.count_pos_iff.mp (Nat.lt_of_lt_of_le (List.count_pos_iff.mpr hr) (hle r))
    obtain ⟨e, he, hcount⟩ := hholds.pinned r hmem
    exact ⟨e, he, Nat.le_trans (hle r) hcount⟩

/-- The order of what is owed does not matter. -/
theorem perm (hholds : h.Holds owed) (hperm : owed.Perm owed') : h.Holds owed' :=
  hholds.of_count_le fun r => Nat.le_of_eq (hperm.count_eq r).symm

/-- A pin on what is there can be owed. -/
theorem pin (hholds : h.Holds owed) (hr : h.isLive r) : (h.pin r).Holds (r :: owed) where
  sound := hholds.sound.modify r _
  pinned q hq := by
    rw [entry?_pin]
    -- the new pin is owed once more, whether others were owed before or not
    by_cases hsame : q = r
    · subst hsame
      rw [if_pos rfl, List.count_cons_self]
      obtain ⟨e, he⟩ := Option.isSome_iff_exists.mp hr
      refine ⟨_, by rw [he, Option.map_some], ?_⟩
      by_cases hmem : q ∈ owed
      · obtain ⟨e', he', hcount⟩ := hholds.pinned q hmem
        cases he.symm.trans he'
        exact Nat.succ_le_succ hcount
      · rw [List.count_eq_zero_of_not_mem hmem]
        exact Nat.succ_le_succ (Nat.zero_le _)
    · rw [if_neg hsame, List.count_cons_of_ne (Ne.symm hsame)]
      exact hholds.pinned q ((List.mem_cons.mp hq).resolve_left hsame)

/-- A pin that is undone is not owed any more. -/
theorem unpin (hholds : h.Holds (r :: owed)) : (h.unpin r).Holds owed where
  sound := hholds.sound.modify r _
  pinned q hq := by
    obtain ⟨e, he, hcount⟩ := hholds.pinned q (List.mem_cons_of_mem r hq)
    rw [entry?_unpin]
    by_cases hsame : q = r
    · subst hsame
      rw [List.count_cons_self] at hcount
      refine ⟨_, by rw [if_pos rfl, he, Option.map_some], ?_⟩
      exact Nat.le_sub_one_of_lt hcount
    · rw [List.count_cons_of_ne (Ne.symm hsame)] at hcount
      exact ⟨e, by rw [if_neg hsame, he], hcount⟩

/-- Replacing an object changes no pins. -/
theorem setObject (hholds : h.Holds owed) (q : ObjRef) (object : Object F) :
    (h.setObject q object).Holds owed where
  sound := hholds.sound.modify q _
  pinned r hr := by
    obtain ⟨e, he, hcount⟩ := hholds.pinned r hr
    rw [entry?_setObject]
    by_cases hsame : r = q
    · subst hsame
      exact ⟨{ e with object }, by rw [if_pos rfl, he, Option.map_some], hcount⟩
    · exact ⟨e, by rw [if_neg hsame, he], hcount⟩

theorem of_table_eq (hholds : h.Holds owed) (htable : h'.table = h.table) : h'.Holds owed where
  sound := htable ▸ hholds.sound
  pinned r hr := by
    obtain ⟨e, he, hcount⟩ := hholds.pinned r hr
    unfold entry? at he ⊢
    rw [htable]
    exact ⟨e, he, hcount⟩

/-- Retiring changes no pins. -/
theorem retire (hholds : h.Holds owed) (q : ObjRef) : (h.retire q).Holds owed := by
  rcases h.retire_cases q with ⟨view, pins, -, htable⟩ | ⟨-, heq⟩
  · exact (hholds.setObject q _).of_table_eq htable
  · rw [heq]
    exact hholds

/-- Code that leaves pins alone loses nothing that is held. -/
theorem spares {names : List String} (hholds : h.Holds owed) (hspares : Spares names h h')
    (room : h'.table.Addressable) : h'.Holds owed where
  sound := hspares.evolves.sound room hholds.sound
  pinned r hr := by
    obtain ⟨e, he, hpins⟩ := hholds.exists_pins hr
    obtain ⟨e', he', hcount⟩ := hholds.pinned r hr
    cases he.symm.trans he'
    exact ⟨e, hspares.kept room hholds.sound he (Or.inl hpins), hcount⟩

/-- A pin on anything loses nothing that is held. -/
theorem pin_any (hholds : h.Holds owed) (q : ObjRef) : (h.pin q).Holds owed where
  sound := hholds.sound.modify q _
  pinned r hr := by
    obtain ⟨e, he, hcount⟩ := hholds.pinned r hr
    rw [entry?_pin]
    by_cases hsame : r = q
    · subst hsame
      exact ⟨_, by rw [if_pos rfl, he, Option.map_some], Nat.le_succ_of_le hcount⟩
    · exact ⟨e, by rw [if_neg hsame, he], hcount⟩

/-- Making a view loses nothing that is held. -/
theorem materialize {buffer : Buffer} (hholds : h.Holds owed)
    (room : (h.materialize buffer).2.table.Addressable) : (h.materialize buffer).2.Holds owed :=
  hholds.spares (show Spares [] h (h.materialize buffer).2 from .alloc _ _) room

end Holds

/-! ## Code that undoes no pins -/

/-- What is held in the first heap is held in the second, to which it has led. -/
structure KeepsHeld (h h' : Heap F) : Prop where
  /-- No reference comes back to life. -/
  evolves : h.table.Evolves HeapEntry.fixedSorts h'.table
  /-- Nothing that is held is lost. -/
  holds : h'.table.Addressable → ∀ {owed : List ObjRef}, h.Holds owed → h'.Holds owed

namespace KeepsHeld

theorem refl (h : Heap F) : h.KeepsHeld h := ⟨.refl _, fun _ _ => id⟩

theorem trans {h'' : Heap F} (hkeeps : h.KeepsHeld h') (hkeeps' : h'.KeepsHeld h'') :
    h.KeepsHeld h'' where
  evolves := hkeeps.evolves.trans hkeeps'.evolves
  holds room _ hholds :=
    hkeeps'.holds room (hkeeps.holds (hkeeps'.evolves.addressable room) hholds)

/-- Code that leaves pins alone keeps what is held. -/
theorem of_spares {names : List String} (hspares : Spares names h h')
    (hforward : h.table.Evolves HeapEntry.fixedSorts h'.table) : h.KeepsHeld h' :=
  ⟨hforward, fun room _ hholds => hholds.spares hspares room⟩

theorem alloc (h : Heap F) (object : Object F) : h.KeepsHeld (h.alloc object).2 :=
  of_spares (show Spares [] h (h.alloc object).2 from .alloc _ _) (evolves_alloc _ trivial)

theorem collect (h : Heap F) : h.KeepsHeld h.collect.2 :=
  of_spares (show Spares [] h h.collect.2 from .collect _) (evolves_collect _ _)

theorem of_table_eq (htable : h'.table = h.table) : h.KeepsHeld h' where
  evolves := htable ▸ .refl _
  holds _ _ hholds := hholds.of_table_eq htable

end KeepsHeld

/-! ## Views that show buffers -/

/-- The reference leads to a view of the buffer. -/
def Shows (h : Heap F) (r : ObjRef) (buffer : Buffer) : Prop :=
  ∃ pins, h.entry? r = some ⟨.view (.ofBuffer buffer), pins⟩

namespace Shows

variable {buffer : Buffer}

theorem isLive (hshows : h.Shows r buffer) : h.isLive r := by
  obtain ⟨pins, hentry⟩ := hshows
  exact isLive_of_eq_some hentry

/-- Pins do not change what a view shows. -/
theorem pin (hshows : h.Shows r buffer) (q : ObjRef) : (h.pin q).Shows r buffer := by
  obtain ⟨pins, hentry⟩ := hshows
  unfold Shows
  rw [entry?_pin]
  by_cases hsame : r = q
  · subst hsame
    exact ⟨pins + 1, by rw [if_pos rfl, hentry]; rfl⟩
  · exact ⟨pins, by rw [if_neg hsame, hentry]⟩

/-- A view that stays shows the same where objects stay what they are. -/
theorem evolves (hshows : h.Shows r buffer)
    (hev : h.table.Evolves HeapEntry.fixedObjects h'.table) (room : h'.table.Addressable)
    (hs : h.table.Sound) (hlive : h'.isLive r) : h'.Shows r buffer := by
  obtain ⟨pins, hentry⟩ := hshows
  obtain ⟨⟨object, pins'⟩, hentry', hsame⟩ := hev.exists_change room hs hentry hlive
  cases (hsame : object = _)
  exact ⟨pins', hentry'⟩

/-- Code that leaves pins and views alone leaves a view alone that is pinned. -/
theorem spares {names : List String} (hshows : h.Shows r buffer) (hholds : h.Holds owed)
    (hr : r ∈ owed) (hspares : Spares names h h') (room : h'.table.Addressable) :
    h'.Shows r buffer := by
  obtain ⟨pins, hentry⟩ := hshows
  obtain ⟨e, he, hpins⟩ := hholds.exists_pins hr
  cases hentry.symm.trans he
  exact ⟨pins, hspares.kept room hholds.sound hentry (Or.inl hpins)⟩

/-- Reading a view gives what is in the buffer. -/
theorem read (hshows : h.Shows r buffer) (m : Memory) : h.read m r = .ok (buffer.values m) := by
  obtain ⟨pins, hentry⟩ := hshows
  simp only [Heap.read, Heap.entry, hentry]
  rfl

end Shows

/-- A new view shows its buffer, and its reference was never handed out before. -/
theorem shows_materialize {buffer : Buffer} (hs : h.table.Sound)
    (room : (h.materialize buffer).2.table.Addressable) :
    (h.materialize buffer).2.Shows (h.materialize buffer).1 buffer ∧
      ¬ h.table.Issued (h.materialize buffer).1 := by
  obtain ⟨hentry, hnew⟩ := entry?_alloc_self room hs
  exact ⟨⟨0, hentry⟩, hnew⟩

/-- A view that is moved shows its buffer. -/
theorem shows_repoint {buffer : Buffer} (hrepoint : h.repoint r buffer = .ok h') :
    h'.Shows r buffer := by
  obtain ⟨⟨view, pins, hentry⟩, rfl⟩ := repoint_eq_ok hrepoint
  exact ⟨pins, by rw [entry?_setObject, if_pos rfl, hentry, Option.map_some]⟩

end Heap

/-- **Code that undoes no pins keeps what is held**, whatever else it does. -/
theorem runClosed_keepsHeld :
    RunClosed (HeapCommand.KeepsPins (F := F) (I := I))
      fun w w' : HeapWorld F ω => w.heap.KeepsHeld w'.heap where
  refl w := .refl w.heap
  trans := .trans
  plain surroundings run command w hallowed henters := by
    cases command with
    | array values => exact .alloc _ _
    | text text => exact .alloc _ _
    | function f => exact .alloc _ _
    | materialize buffer => exact .alloc _ _
    | collect => exact .collect _
    | pin r =>
      exact ⟨w.heap.evolves_pin HeapEntry.fixedSorts_pins r, fun _ _ hholds => hholds.pin_any r⟩
    | unpin r => exact hallowed.elim
    | repoint r buffer =>
      show w.heap.KeepsHeld (HeapWorld.repoint r buffer w).2.heap
      unfold HeapWorld.repoint
      split
      · next heap hrepoint =>
        refine ⟨Heap.evolves_repoint hrepoint, fun _ _ hholds => ?_⟩
        rw [(Heap.repoint_eq_ok hrepoint).2]
        exact hholds.setObject r _
      · exact .refl w.heap
    | retire r => exact ⟨w.heap.evolves_retire r, fun _ _ hholds => hholds.retire r⟩
    | call f args => exact (henters trivial).elim
    | direct f args => exact (henters trivial).elim
    | _ => exact .of_table_eq rfl
  inScope {w v} hkeeps := ⟨hkeeps.evolves, fun room _ hholds =>
    (hkeeps.holds room (hholds.of_table_eq rfl)).of_table_eq rfl⟩

/-- At every point of such code, what was held at its start is held. -/
theorem Visits.keepsHeld {α : Type} {code : UserCode F I} {stack : List (Surroundings I ω)}
    {p : HeapProgram F I α} {w v : HeapWorld F ω} (h : Visits code stack p w v)
    (hcode : ∀ f args, (code f args).All HeapCommand.KeepsPins)
    (hp : p.All HeapCommand.KeepsPins) : w.heap.KeepsHeld v.heap :=
  runClosed_keepsHeld.visits (P := fun w v : HeapWorld F ω => w.heap.KeepsHeld v.heap) hcode
    (fun w => .refl w.heap) .trans
    (fun {w _} h => (show w.heap.KeepsHeld w.heap.openScope from .of_table_eq rfl).trans h) h hp

/-! ## Making views -/

section Grammar

variable {code : UserCode F I} {stack : List (Surroundings I ω)} {w w' : HeapWorld F ω}
  {ops : List (HostOperation ObjRef Rooted)} {owed : List ObjRef}

/-- Making views changes no object. -/
theorem Makes.sameObjects {buffers : List Buffer} {result : Except HostError (List ObjRef)}
    (h : Makes buffers ops result) (hrun : HeapRun code stack w ops w') : w.SameObjects w' := by
  induction h generalizing w with
  | nil => exact hrun ▸ .refl w
  | failed =>
    obtain ⟨m, hstep, rfl⟩ := hrun
    rw [hstep.materialize_error]
    exact .refl w
  | made hrest ih =>
    obtain ⟨w₁, hmade, w₂, hpin, hrun⟩ := hrun
    obtain ⟨rfl, rfl⟩ := hmade.materialize
    have hstep : w.SameObjects w₂ := by
      rw [hpin.pin]
      exact ⟨(Heap.evolves_alloc _ trivial).trans (Heap.evolves_pin (fun _ _ => rfl) _ _), rfl⟩
    exact hstep.trans (ih hrun)

/-- Making views holds them as well. -/
theorem Makes.holds {buffers : List Buffer} {result : Except HostError (List ObjRef)}
    (h : Makes buffers ops result) (hholds : w.heap.Holds owed)
    (hrun : HeapRun code stack w ops w') (room : w'.heap.table.Addressable) :
    w'.heap.Holds (pinnedValues ops ++ owed) := by
  induction h generalizing w owed with
  | nil => exact hrun ▸ hholds
  | failed =>
    obtain ⟨m, hstep, rfl⟩ := hrun
    rw [hstep.materialize_error]
    exact hholds
  | @made buffer rest view ops result hrest ih =>
    obtain ⟨w₁, hmade, w₂, hpin, hrun⟩ := hrun
    have room₂ := hrun.forward.1.addressable room
    obtain ⟨rfl, rfl⟩ := hmade.materialize
    have room₁ := hpin.forward.1.addressable room₂
    have hlive := (Heap.shows_materialize hholds.sound room₁).1.isLive
    have hholds₂ := (hholds.materialize room₁).pin hlive
    rw [hpin.pin] at hrun
    refine (ih hholds₂ hrun).perm ?_
    simp [pinned?]

/-- Views that were made show their buffers, and their references were never handed out
before. -/
theorem Makes.shows {buffers : List Buffer} {result : Except HostError (List ObjRef)}
    (h : Makes buffers ops result) (hholds : w.heap.Holds owed)
    (hrun : HeapRun code stack w ops w') (room : w'.heap.table.Addressable)
    {views : List ObjRef} (hviews : result = .ok views) :
    List.Forall₂ w'.heap.Shows views buffers ∧ views.Nodup ∧
      ∀ view ∈ views, ¬ w.heap.table.Issued view := by
  induction h generalizing w owed views with
  | nil =>
    cases hviews
    exact ⟨.nil, .nil, by simp⟩
  | failed => cases hviews
  | @made buffer rest view ops result hrest ih =>
    cases result with
    | error e => cases hviews
    | ok others =>
      cases hviews
      obtain ⟨w₁, hmade, w₂, hpin, hrun⟩ := hrun
      have room₂ := hrun.forward.1.addressable room
      obtain ⟨rfl, rfl⟩ := hmade.materialize
      have room₁ := hpin.forward.1.addressable room₂
      obtain ⟨hshows, hnew⟩ := Heap.shows_materialize hholds.sound room₁
      have hissued := Table.issued_of_get? hshows.choose_spec
      have hholds₂ := (hholds.materialize room₁).pin hshows.isLive
      have hforward := hmade.forward.trans hpin.forward
      rw [hpin.pin] at hrun room₂ hforward
      obtain ⟨hothers, hnodup, hfresh⟩ := ih hholds₂ hrun rfl
      -- the first view is pinned and goes on showing its buffer
      have hlive := (hrest.holds hholds₂ hrun room).isLive
        (List.mem_append_right _ List.mem_cons_self)
      have hfirst := (hshows.pin _).evolves (hrest.sameObjects hrun).1 room hholds₂.sound hlive
      refine ⟨.cons hfirst hothers, List.nodup_cons.mpr ⟨fun hmem => ?_, hnodup⟩, ?_⟩
      · exact hfresh _ hmem (hissued.modify _ _)
      · refine List.forall_mem_cons.mpr ⟨hnew, fun other hmem hold => ?_⟩
        exact hfresh other hmem (hforward.1.issued room₂ hholds.sound hold)

/-! ## Moving views -/

/-- Moving views holds them as well. -/
theorem Moves.holds {moves : List (ObjRef × Buffer)} {result : Except HostError Unit}
    (h : Moves moves ops result) (hholds : w.heap.Holds owed)
    (hrun : HeapRun code stack w ops w') : w'.heap.Holds (pinnedValues ops ++ owed) := by
  induction h generalizing w owed with
  | nil => exact hrun ▸ hholds
  | failed =>
    obtain ⟨m, hstep, rfl⟩ := hrun
    rw [hstep.repoint_error]
    exact hholds
  | @moved view buffer rest ops result hrest ih =>
    obtain ⟨w₁, hmoved, w₂, hpin, hrun⟩ := hrun
    obtain ⟨heap, hrepoint, rfl⟩ := hmoved.repoint
    have hlive := (Heap.shows_repoint hrepoint).isLive
    have hheap := (Heap.repoint_eq_ok hrepoint).2
    subst hheap
    have hholds₂ := (hholds.setObject view _).pin hlive
    rw [hpin.pin] at hrun
    refine (ih hholds₂ hrun).perm ?_
    simp [pinned?]

/-- Views that were moved show their buffers, as long as none is moved twice; nothing else
is touched. -/
theorem Moves.shows {moves : List (ObjRef × Buffer)} {result : Except HostError Unit}
    (h : Moves moves ops result) (hrun : HeapRun code stack w ops w') (hresult : result = .ok ())
    (hnodup : (moves.map Prod.fst).Nodup) :
    (∀ move ∈ moves, w'.heap.Shows move.1 move.2) ∧
      ∀ r ∉ moves.map Prod.fst, w'.heap.entry? r = w.heap.entry? r := by
  induction h generalizing w with
  | nil =>
    have hsame : w = w' := hrun
    subst hsame
    exact ⟨by simp, fun _ _ => rfl⟩
  | failed => cases hresult
  | @moved view buffer rest ops result hrest ih =>
    obtain ⟨w₁, hmoved, w₂, hpin, hrun⟩ := hrun
    obtain ⟨heap, hrepoint, rfl⟩ := hmoved.repoint
    have hshows := (Heap.shows_repoint hrepoint).pin view
    have hheap := (Heap.repoint_eq_ok hrepoint).2
    subst hheap
    rw [hpin.pin] at hrun
    rw [List.map_cons, List.nodup_cons] at hnodup
    obtain ⟨hothers, hkept⟩ := ih hrun hresult hnodup.2
    refine ⟨List.forall_mem_cons.mpr ⟨?_, hothers⟩, fun r hr => ?_⟩
    · obtain ⟨pins, hentry⟩ := hshows
      exact ⟨pins, (hkept view hnodup.1).trans hentry⟩
    · rw [List.map_cons, List.mem_cons, not_or] at hr
      rw [hkept r hr.2]
      show Heap.entry? ((w.heap.setObject view _).pin view) r = _
      rw [Heap.entry?_pin, if_neg hr.1, Heap.entry?_setObject, if_neg hr.1]

end Grammar

end CallbackBridge
