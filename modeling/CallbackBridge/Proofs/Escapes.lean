/-
# Views that escape from an invocation

What the reference-counting host warns of, for whole invocations.  Every one of them closes its
books, and beyond what user code itself warns of there are only warnings about views that escape.

* `Moment.Quiet` says that a moment warns of nothing by itself, and `Accounted` takes an
  invocation apart into what happens before and while the guard closes.
* `escapes_warned` says when there is a warning: always, unless a view is held by nothing but the
  very array that the user function has returned.  `not_forall_escapes_warned` shows that such an
  array hides the view that it was derived from.
* `harmless_unreported` says when there is none.
-/
import CallbackBridge.Proofs.Settlement
import CallbackBridge.Proofs.UserLevels
import CallbackBridge.Script.Callable
namespace CallbackBridge

open HostOperation

variable {F G : Type}

/-! ## Moments that warn of nothing -/

/-- The moment gives no warning by itself: there are the warnings from before it, or those that
the code of the called function has left. -/
inductive Moment.Quiet (run : CallableRunner F G)
    (moment : Moment (CountedWorld F G) ObjId ObjId) : Prop where
  /-- There is no new warning. -/
  | still (hwarnings : moment.after.process.rest.warnings = moment.before.process.rest.warnings)
  /-- User code was run. -/
  | user {f : ObjId} {views : StateViews ObjId} {called : Outcome HostError ObjId} {code : G}
      (hoperation : moment.operation = .call f views called)
      (hcode : moment.before.store.Callable f code)
      (hwarnings : moment.after.process.rest.warnings =
        ((run code views).start moment.before.process).2.rest.warnings)

section Moments

variable {run : CallableRunner F G} {moment : Moment (CountedWorld F G) ObjId ObjId}

/-- The process as it was has the warnings that it had. -/
theorem Moment.Quiet.of_process (h : moment.after.process = moment.before.process) :
    moment.Quiet run :=
  .still (by rw [h])

/-- A call warns of nothing by itself. -/
theorem Moment.quiet_of_call {f : ObjId} {views : StateViews ObjId}
    {called : Outcome HostError ObjId} (hoperation : moment.operation = .call f views called)
    (hperforms : CountedWorld.call run f views moment.before = (called, moment.after)) :
    moment.Quiet run := by
  unfold CountedWorld.call at hperforms
  split at hperforms
  · next type label code hf =>
    refine .user hoperation ⟨type, label, hf⟩ ?_
    have hleft := congrArg (fun ended => ended.2.process.rest.warnings) hperforms.symm
    -- what the host does with the result or the exception leaves the warnings alone
    rcases hended : (run code views).start moment.before.process with ⟨stop | r, p⟩
    · rw [hended] at hleft
      cases stop <;> exact hleft
    · rw [hended] at hleft
      change _ = (CountedWorld.noteDerived r
        { moment.before with process := p }).process.rest.warnings at hleft
      rwa [CountedWorld.process_noteDerived] at hleft
  · exact .still (by rw [← show _ = moment.after from congrArg Prod.snd hperforms])

/-- Before the guard closes, nothing warns. -/
theorem Moment.quiet_of_performs
    (hperforms : moment.operation.Performs (CountedWorld.runtime run) moment.before moment.after)
    (hgives : ¬ moment.operation.GivesBack) : moment.Quiet run := by
  cases hoperation : moment.operation with
  | call f views called =>
    rw [hoperation] at hperforms
    exact quiet_of_call hoperation hperforms
  | _ => exact .still (warnings_of_performs hperforms (by rw [hoperation]; exact id) hgives)

end Moments

/-! ## Whole invocations -/

/-- The moments of an invocation on this host, given what was done before the guard closes, what
the user function has returned, and the world in which the guard begins to close. -/
structure Accounted (run : CallableRunner F G)
    (trace : List (Moment (CountedWorld F G) ObjId ObjId)) (w' : CountedWorld F G)
    (opening : List (HostOperation ObjId ObjId)) (result : Option ObjId) (u : CountedWorld F G) :
    Prop where
  /-- The guard closes after everything else, which warns of nothing. -/
  split : ∃ earlier closed, trace = earlier ++ closed ∧
    earlier.map Moment.operation = opening ∧ closed.map Moment.operation = closing opening ∧
    (∀ moment ∈ earlier, moment.Quiet run) ∧ Settlement opening u closed w'
  /-- What is in the books when the guard begins to close. -/
  charged : Charged opening result u
  /-- There are no views, or a function was called with them. -/
  called : shownViews opening = [] ∨ ∃ f views called moment, Asked opening f views called ∧
    result = called.toOption ∧ moment ∈ trace ∧ moment.operation = .call f views called ∧
    u.process = moment.after.process

section Invocations

variable {run : CallableRunner F G} {w w' : CountedWorld F G}
  {trace : List (Moment (CountedWorld F G) ObjId ObjId)}
  {opening : List (HostOperation ObjId ObjId)}

/-- If nothing is called and there are no views, the guard has nothing to settle. -/
theorem accounted_of_idle (hchain : Chain (CountedWorld.runtime run) w trace w')
    (hops : trace.map Moment.operation = opening ++ closing opening) (hstart : Opened [] w)
    (hidle : ∀ op ∈ opening, ¬ op.Calls ∧ ¬ op.GivesBack) (hshown : shownViews opening = []) :
    ∃ u, Accounted run trace w' opening none u := by
  obtain ⟨earlier, closed, rfl, hearlier, hclosed⟩ := List.map_eq_append_iff.mp hops
  obtain ⟨u, hbefore, hafter⟩ := hchain.split
  have hcarries := hbefore.performs
  rw [hearlier] at hcarries
  have hopened := Opened.carries hcarries hidle hstart
  have hcharged : Charged opening none u :=
    ⟨hopened.toBooked, (fun r hr => by cases hr), hopened.derived⟩
  refine ⟨u, ⟨earlier, closed, rfl, hearlier, hclosed, ?_, hcharged.settled hafter hclosed⟩,
    hcharged, Or.inl hshown⟩
  intro moment hmoment
  exact Moment.quiet_of_performs (hbefore.performs_of_mem hmoment)
    (hidle _ (hearlier ▸ List.mem_map_of_mem hmoment)).2

/-- If a function is called, the guard settles what is in the books after the call. -/
theorem Asked.accounted {f : ObjId} {views : StateViews ObjId} {called : Outcome HostError ObjId}
    (h : Asked opening f views called) (hchain : Chain (CountedWorld.runtime run) w trace w')
    (hops : trace.map Moment.operation = opening ++ closing opening) (hstart : Opened [] w) :
    ∃ u, Accounted run trace w' opening called.toOption u := by
  obtain ⟨earlier, closed, rfl, hearlier, hclosed⟩ := List.map_eq_append_iff.mp hops
  obtain ⟨u, hbefore, hafter⟩ := hchain.split
  obtain ⟨pre, post, hopening, hpre, hfollowed⟩ := h.split
  obtain ⟨looked, moment, read, rfl, hlooked, hoperation, hread, hreached, hcall, hleft⟩ :=
    hbefore.split_at (hearlier.trans hopening)
  have hlookedAt := hreached.performs
  have hreadAt := hleft.performs
  rw [hlooked] at hlookedAt
  rw [hread] at hreadAt
  obtain ⟨hcharged, hprocess⟩ :=
    (Opened.carries hlookedAt hpre hstart).charged hcall hfollowed hreadAt
  rw [← hopening] at hcharged
  refine ⟨u, ⟨_, closed, rfl, hearlier, hclosed, ?_, hcharged.settled hafter hclosed⟩, hcharged,
    Or.inr ⟨f, views, called, moment, h, rfl, by simp, hoperation, hprocess⟩⟩
  -- what comes before and after the call gives nothing back, nor does the call
  have hkeeps : ∀ op ∈ opening, ¬ op.GivesBack := by
    rw [hopening, List.forall_mem_append, List.forall_mem_cons]
    exact ⟨fun op hop => (hpre op hop).2, by simp [GivesBack],
      fun op hop => (hfollowed.keeps op hop).2⟩
  intro other hother
  exact Moment.quiet_of_performs (hbefore.performs_of_mem hother)
    (hkeeps _ (hearlier ▸ List.mem_map_of_mem hother))

/-- **Every invocation accounts for its references.** -/
theorem Bridge.exists_accounted (run : CallableRunner F G) (bridge : Bridge ObjId) (entry : Entry)
    (call : Invocation) (hledger : w.ledger = {}) (hpinned : w.pinned = []) :
    ∃ opening result u, bridge.operations (CountedWorld.runtime run) entry call w =
        opening ++ closing opening ∧
      Accounted run (bridge.trace (CountedWorld.runtime run) entry call w)
        (bridge.evaluate (CountedWorld.runtime run) entry call w).host opening result u := by
  have hconducted := bridge.evaluate_traced (CountedWorld.runtime run) entry call w
  have hstart : Opened [] w := ⟨.start hledger hpinned, by simp, by rw [hledger]⟩
  cases hcheck : bridge.config.check entry call with
  | error e =>
    have hnone : bridge.operations (CountedWorld.runtime run) entry call w = [] ++ closing [] :=
      hconducted.rejected e hcheck
    obtain ⟨u, haccounted⟩ := accounted_of_idle hconducted.chain hnone hstart
      (fun op hop => nomatch hop) rfl
    exact ⟨[], none, u, hnone, haccounted⟩
  | ok admission =>
    obtain ⟨opening, hopening, hops⟩ := hconducted.admitted admission hcheck
    have hcarries := hconducted.chain.performs
    rw [show List.map _ _ = _ from hops] at hcarries
    obtain ⟨v, hopened, -⟩ := carries_append.mp hcarries
    rcases hopening.asked_or_idle hopened with ⟨hidle, hshown⟩ | ⟨f, views, called, hasked⟩
    · obtain ⟨u, haccounted⟩ := accounted_of_idle hconducted.chain hops hstart hidle hshown
      exact ⟨opening, none, u, hops, haccounted⟩
    · obtain ⟨u, haccounted⟩ := hasked.accounted hconducted.chain hops hstart
      exact ⟨opening, _, u, hops, haccounted⟩

end Invocations

/-! ## What is warned of -/

/-- What holds on to an object depends on the objects, the bridges and the targets alone. -/
theorem Process.HoldsOn.congr {p p' : Process F G} {own : List ObjId} {id : ObjId}
    {holder : Option ObjId} (h : p.HoldsOn own id holder) (hstore : p'.rest.store = p.rest.store)
    (hheld : p'.held = p.held) : p'.HoldsOn own id holder := by
  have hroots : p'.roots = p.roots := by
    unfold Process.roots
    rw [hstore, hheld]
  cases h with
  | directly hroot => exact .directly (hroots ▸ hroot)
  | through hlives hmem =>
    refine .through ?_ ?_
    · rw [hstore, hroots]
      exact hlives
    · rw [hstore]
      exact hmem

/-- When the view is retired there is a warning about it, which names the argument. -/
def WarnsOf (trace : List (Moment (CountedWorld F G) ObjId ObjId)) (role : Role) (view : ObjId) :
    Prop :=
  ∃ moment ∈ trace, moment.operation = .retire view ∧ ∃ extra > 0,
    moment.after.process.rest.warnings =
      CountedWorld.escapeWarning role extra :: moment.before.process.rest.warnings

/-- After a call nothing holds on to the views, unless it is the result; and this is one of the
values that the invocation holds itself, is derived from a view, or has nothing to do with
views. -/
structure Process.Harmless (p : Process F G) (f : ObjId) (views : StateViews ObjId)
    (result : Option ObjId) : Prop where
  /-- Nothing is kept. -/
  keeps : ∀ view ∈ views.toList, ∀ holder, ¬ p.HoldsOn (f :: views.toList) view holder
  /-- The result gives no access to views that nobody knows of. -/
  result : ∀ r, result = some r → r ∈ f :: views.toList ∨
    (∃ base ∈ views.toList, p.rest.store.base? r = some base) ∨
    ∀ view ∈ views.toList, ¬ p.rest.store.Leads r view

instance (p : Process F G) (f : ObjId) (views : StateViews ObjId) (result : Option ObjId) :
    Decidable (p.Harmless f views result) :=
  decidable_of_iff
    ((∀ view ∈ views.toList, ¬ ∃ holder, p.HoldsOn (f :: views.toList) view holder) ∧
      ∀ r ∈ result, r ∈ f :: views.toList ∨
        (∃ base ∈ views.toList, p.rest.store.base? r = some base) ∨
        ∀ view ∈ views.toList, ¬ p.rest.store.Leads r view)
    ⟨fun h => ⟨fun view hview holder hholds => h.1 view hview ⟨holder, hholds⟩, h.2⟩,
      fun h => ⟨fun view hview ⟨holder, hholds⟩ => h.keeps view hview holder hholds, h.result⟩⟩

namespace Accounted

variable {run : CallableRunner F G} {w' u : CountedWorld F G}
  {trace : List (Moment (CountedWorld F G) ObjId ObjId)}
  {opening : List (HostOperation ObjId ObjId)} {result : Option ObjId}

/-- The views were made before the guard closes. -/
theorem made (h : Accounted run trace w' opening result u) {buffer : Buffer} {view : ObjId}
    (hmade : .materialize buffer (.ok view) ∈ trace.map Moment.operation) :
    .materialize buffer (.ok view) ∈ opening := by
  obtain ⟨earlier, closed, rfl, rfl, hclosed, -⟩ := h.split
  rw [List.map_append, hclosed] at hmade
  exact (List.mem_append.mp hmade).resolve_right (by simp [closing])

/-- A view that something holds on to is warned about, unless this is the array that was
returned. -/
theorem warns (h : Accounted run trace w' opening result u) {buffer : Buffer} {view : ObjId}
    (hmade : .materialize buffer (.ok view) ∈ trace.map Moment.operation) {holder : Option ObjId}
    (hholds : w'.process.HoldsOn [] view holder)
    (hother : ∀ o f views, holder = some o →
      .call f views (.ok o) ∈ trace.map Moment.operation → w'.store.array? o = none) :
    WarnsOf trace buffer.role view := by
  have hopening := h.made hmade
  have hview := mem_shownViews_of_made hopening
  obtain ⟨earlier, closed, htrace, -, -, -, hsettled⟩ := h.split
  obtain hnone | ⟨f, views, called, moment, -, rfl, hmem, hoperation, -⟩ := h.called
  · rw [hnone] at hview
    cases hview
  · have hsurplus : 0 < u.surplus view := by
      refine h.charged.surplus_pos hview (hholds.congr hsettled.store.symm hsettled.held.symm) ?_
      rintro o rfl hreturned
      cases called with
      | error stop => cases hreturned
      | ok r =>
        cases hreturned
        rw [← hsettled.store]
        exact hother o f views rfl (hoperation ▸ List.mem_map_of_mem hmem)
    obtain ⟨retiring, hretiring, hretire, hprocess⟩ :=
      hsettled.escaped buffer view hopening hsurplus
    refine ⟨retiring, htrace ▸ List.mem_append_right earlier hretiring, hretire, _, hsurplus, ?_⟩
    rw [hprocess]
    rfl

/-- If the call is harmless, nothing is warned of. -/
theorem quiet (h : Accounted run trace w' opening result u)
    (hharmless : ∀ moment ∈ trace, ∀ f views called, moment.operation = .call f views called →
      moment.after.process.Harmless f views called.toOption) :
    ∀ moment ∈ trace, moment.Quiet run := by
  have hzero : ∀ view ∈ shownViews opening, u.surplus view = 0 := by
    obtain hnone | ⟨f, views, called, moment, hasked, rfl, hmem, hoperation, hprocess⟩ := h.called
    · rw [hnone]
      exact fun view hview => nomatch hview
    · have hcall := hharmless moment hmem f views called hoperation
      rw [← hprocess] at hcall
      intro view hview
      have hshown : view ∈ views.toList := hasked.shown ▸ hview
      have hpinned : ∀ id ∈ u.pinned, id ∈ f :: views.toList ∨ called.toOption = some id := by
        intro id hid
        rw [h.charged.pinned, List.mem_reverse] at hid
        rcases hasked.pinned id hid with hown | rfl
        · exact Or.inl hown
        · exact Or.inr rfl
      refine h.charged.surplus_eq_zero hview hpinned (hcall.keeps view hshown) ?_
      intro r hr
      rcases hcall.result r hr with hown | ⟨base, hbase, hderived⟩ | hunrelated
      · exact Or.inl hown
      · exact Or.inr (Or.inl ⟨base, List.mem_cons_of_mem f hbase, hderived⟩)
      · exact Or.inr (Or.inr (hunrelated view hshown))
  obtain ⟨earlier, closed, rfl, -, -, hearlier, hsettled⟩ := h.split
  rw [List.forall_mem_append]
  refine ⟨hearlier, fun moment hmoment => ?_⟩
  rcases hsettled.steps moment hmoment with hsame | ⟨buffer, view, hmade, hsurplus, -, -⟩
  · exact .of_process hsame
  · rw [hzero view (mem_shownViews_of_made hmade)] at hsurplus
    exact absurd hsurplus (Nat.lt_irrefl 0)

/-- Whatever the call, only views that escape are warned of. -/
theorem quiet_or_warns (h : Accounted run trace w' opening result u) :
    ∀ moment ∈ trace, moment.Quiet run ∨ ∃ buffer view,
      .materialize buffer (.ok view) ∈ trace.map Moment.operation ∧
      moment.operation = .retire view ∧ ∃ extra > 0, moment.after.process =
        moment.before.process.warn (CountedWorld.escapeWarning buffer.role extra) := by
  obtain ⟨earlier, closed, rfl, rfl, -, hearlier, hsettled⟩ := h.split
  rw [List.forall_mem_append]
  refine ⟨fun moment hmoment => Or.inl (hearlier moment hmoment), fun moment hmoment => ?_⟩
  rcases hsettled.steps moment hmoment with
    hsame | ⟨buffer, view, hmade, hsurplus, hretire, hprocess⟩
  · exact Or.inl (.of_process hsame)
  · refine Or.inr ⟨buffer, view, ?_, hretire, _, hsurplus, hprocess⟩
    rw [List.map_append]
    exact List.mem_append_left _ hmade

end Accounted

/-! ## Views that something holds on to -/

section Engines

variable (engine : Engine F G) (bridge : Bridge ObjId) (dict : Option ObjId) (entry : Entry)
  (windows : Windows) (p : Process F G)

/-- Every invocation of an engine accounts for its references. -/
theorem Engine.exists_accounted : ∃ opening result u,
    Accounted engine.callable (engine.countedMoments bridge dict entry windows p)
      (engine.runCounted bridge dict entry windows p).host opening result u := by
  obtain ⟨opening, result, u, -, haccounted⟩ := bridge.exists_accounted engine.callable entry
    (windows.expose {}).1 (w := { process := p, memory := (windows.expose {}).2, dict }) rfl rfl
  exact ⟨opening, result, u, haccounted⟩

/-- **Views that are held are warned of.** If after an invocation something holds on to one of its
views, then a warning that names the argument was given when the view was retired, however the
call of the user function ended.  What holds on to it may be a variable, the kept list, a bridge,
a target, or an object that is alive, such as an array derived from the view; but it must not be
the very array that the function has returned. -/
theorem escapes_warned (buffer : Buffer) (view : ObjId)
    (hmade : .materialize buffer (.ok view) ∈
      (engine.countedMoments bridge dict entry windows p).map Moment.operation)
    (holder : Option ObjId)
    (hholds : (engine.runCounted bridge dict entry windows p).host.process.HoldsOn [] view holder)
    (hother : ∀ o f views, holder = some o →
      .call f views (.ok o) ∈
        (engine.countedMoments bridge dict entry windows p).map Moment.operation →
      (engine.runCounted bridge dict entry windows p).host.store.array? o = none) :
    WarnsOf (engine.countedMoments bridge dict entry windows p) buffer.role view := by
  obtain ⟨opening, result, u, haccounted⟩ :=
    engine.exists_accounted bridge dict entry windows p
  exact haccounted.warns hmade hholds hother

end Engines

/-! ## A function that slices the state -/

namespace HostOperation

variable {R K : Type}

/-- The buffer and the view, if a view was made. -/
def made? : HostOperation R K → Option (Buffer × R)
  | materialize buffer (.ok view) => some (buffer, view)
  | _ => none

/-- The function, the views and what came of it, if something was called. -/
def called? : HostOperation R K → Option (R × StateViews R × Outcome HostError R)
  | call f views called => some (f, views, called)
  | _ => none

/-- What is found to be made was made. -/
theorem mem_of_made? {ops : List (HostOperation R K)} {buffer : Buffer} {view : R}
    (h : (buffer, view) ∈ ops.filterMap made?) : .materialize buffer (.ok view) ∈ ops := by
  obtain ⟨op, hop, hmade⟩ := List.mem_filterMap.mp h
  cases op with
  | materialize buffer made =>
    cases made <;> cases hmade
    exact hop
  | _ => cases hmade

end HostOperation

namespace Slicing

/-- Its code makes a slice of the state and goes on with some statements. -/
def code (rest : List CallableStatement) : CallableCode :=
  .body (.slice "y" 0 1 1 (some "s") :: rest)

/-- A process with this function. -/
def process (rest : List CallableStatement) : Process Code CallableCode where
  rest := { store := { objects := #[.callable "function" (some "f") true (code rest)] } }

/-- The slice is kept, and the state itself returned. -/
def keeping : Process Code CallableCode := process [.keep "s", .return_ "y"]

/-- The slice is both kept and returned. -/
def concealing : Process Code CallableCode := process [.keep "s", .return_ "s"]

/-- The slice is returned and not kept. -/
def returning : Process Code CallableCode := process [.return_ "s"]

/-- The bridge to the function. -/
def bridge : Bridge ObjId := .start { names := ⟨"f", none⟩ } (.bound ⟨⟨0⟩, none⟩)

/-- A state with one variable. -/
def windows : Windows where
  t := [.zero]
  y := [.one]
  yp := [.zero]
  ipar := ⟨[1]⟩
  res := .fresh 1

/-- The window onto the state. -/
def state : Buffer := ⟨.state, ⟨1⟩, 1⟩

/-- Machines with one level. -/
abbrev engine : Engine Code CallableCode := .ofDepth scripts 1

/-- The moments of an invocation. -/
abbrev moments (p : Process Code CallableCode) :
    List (Moment (CountedWorld Code CallableCode) ObjId ObjId) :=
  engine.countedMoments bridge none .residual windows p

end Slicing

open Slicing in
/-- The slice is kept, and there is a warning. -/
theorem escapes_warned_keeping :
    (engine.runCounted bridge none .residual windows keeping).host.process.HoldsOn [] ⟨2⟩
        (some ⟨4⟩) ∧
      WarnsOf (moments keeping) .state ⟨2⟩ := by
  have hmade : .materialize state (.ok ⟨2⟩) ∈ (moments keeping).map Moment.operation :=
    mem_of_made? (by decide +kernel)
  have hholds : (engine.runCounted bridge none .residual windows keeping).host.process.HoldsOn []
      ⟨2⟩ (some ⟨4⟩) :=
    .through (Store.lives_of_mem (by decide +kernel)) (by decide +kernel)
  have hreturned : ∀ c ∈ ((moments keeping).map Moment.operation).filterMap called?,
      c.2.2.toOption ≠ some ⟨4⟩ := by
    decide +kernel
  refine ⟨hholds, escapes_warned engine bridge none .residual windows keeping state ⟨2⟩ hmade
    (some ⟨4⟩) hholds ?_⟩
  intro o f views ho hcall
  exact absurd ho.symm (hreturned (f, views, .ok o) (List.mem_filterMap.mpr ⟨_, hcall, rfl⟩))

open Slicing in
/-- An array that is both kept and returned hides the view that it was derived from. -/
theorem not_forall_escapes_warned :
    ¬ ∀ (engine : Engine Code CallableCode) (bridge : Bridge ObjId) (dict : Option ObjId)
      (entry : Entry) (windows : Windows) (p : Process Code CallableCode) (buffer : Buffer)
      (view : ObjId) (holder : Option ObjId),
      .materialize buffer (.ok view) ∈
        (engine.countedMoments bridge dict entry windows p).map Moment.operation →
      (engine.runCounted bridge dict entry windows p).host.process.HoldsOn [] view holder →
      WarnsOf (engine.countedMoments bridge dict entry windows p) buffer.role view := by
  intro hall
  have hmade : .materialize state (.ok ⟨2⟩) ∈ (moments concealing).map Moment.operation :=
    mem_of_made? (by decide +kernel)
  have hholds : (engine.runCounted bridge none .residual windows concealing).host.process.HoldsOn []
      ⟨2⟩ (some ⟨4⟩) :=
    .through (Store.lives_of_mem (by decide +kernel)) (by decide +kernel)
  -- there is no warning at any time
  have hnone : ∀ moment ∈ moments concealing, moment.after.process.rest.warnings = [] := by
    decide +kernel
  obtain ⟨moment, hmoment, -, extra, -, hwarnings⟩ :=
    hall engine bridge none .residual windows concealing state ⟨2⟩ (some ⟨4⟩) hmade hholds
  rw [hnone moment hmoment] at hwarnings
  cases hwarnings

/-! ## Calls that are harmless -/

section Engines

variable (engine : Engine F G) (bridge : Bridge ObjId) (dict : Option ObjId) (entry : Entry)
  (windows : Windows) (p : Process F G)

/-- **Harmless calls are not warned of.** After every invocation nothing is left in the ledger, and
beyond what user code warns of there are only warnings about views that escape.  If the user
function keeps no reference to a view when it ends, and its result is the function or a view, is
derived from a view, or has nothing to do with views, then there are not even these. -/
theorem harmless_unreported :
    (engine.runCounted bridge dict entry windows p).host.ledger = {} ∧
    (∀ moment ∈ engine.countedMoments bridge dict entry windows p,
      moment.Quiet engine.callable ∨ ∃ buffer view,
        .materialize buffer (.ok view) ∈
          (engine.countedMoments bridge dict entry windows p).map Moment.operation ∧
        moment.operation = .retire view ∧ ∃ extra > 0, moment.after.process =
          moment.before.process.warn (CountedWorld.escapeWarning buffer.role extra)) ∧
    ((∀ moment ∈ engine.countedMoments bridge dict entry windows p, ∀ f views called,
        moment.operation = .call f views called →
        moment.after.process.Harmless f views called.toOption) →
      ∀ moment ∈ engine.countedMoments bridge dict entry windows p,
        moment.Quiet engine.callable) := by
  obtain ⟨opening, result, u, haccounted⟩ :=
    engine.exists_accounted bridge dict entry windows p
  obtain ⟨_, _, -, -, -, -, hsettled⟩ := haccounted.split
  exact ⟨hsettled.ledger, haccounted.quiet_or_warns, haccounted.quiet⟩

end Engines

open Slicing in
/-- The slice is returned and not kept, and there is no warning. -/
theorem harmless_unreported_returning :
    (∀ moment ∈ moments returning, ∀ f views called, moment.operation = .call f views called →
      moment.after.process.Harmless f views called.toOption) ∧
    ∀ moment ∈ moments returning, moment.Quiet engine.callable := by
  have hcalls : ∀ moment ∈ moments returning, ∀ c ∈ moment.operation.called?,
      moment.after.process.Harmless c.1 c.2.1 c.2.2.toOption := by
    decide +kernel
  have hharmless : ∀ moment ∈ moments returning, ∀ f views called,
      moment.operation = .call f views called →
      moment.after.process.Harmless f views called.toOption := by
    intro moment hmoment f views called hoperation
    exact hcalls moment hmoment (f, views, called) (by rw [hoperation]; rfl)
  obtain ⟨-, -, hquiet⟩ :=
    harmless_unreported engine bridge none .residual windows returning
  exact ⟨hharmless, hquiet hharmless⟩

end CallbackBridge
