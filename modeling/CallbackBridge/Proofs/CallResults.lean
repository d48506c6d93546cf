/-
# What becomes of the results of calls

The scope of a call closes when the call ends, so a result that was made in it is not kept for
the caller: it is there when the call ends, and from then on only pins and names keep it.  The
first collection that finds neither frees it, even while the caller is still running
(`results_last`, `not_forall_results_stay`).  What was allocated directly in a call that is still
in progress is kept for that call, also if a nested call gives it back.

* `Heap.AtCollections` says what is true of an object at each collection of a run, and
  `Heap.Runs.isLive_iff` that it is there after the run exactly if each of them found it rooted.
* `Program.Issues` says where a program issues a command and how it goes on, and `HasResult` that
  the code of a function has called another one and what it has done since.
-/
import CallbackBridge.Proofs.CallScopes
import CallbackBridge.Proofs.Collections
namespace CallbackBridge

variable {F ω : Type} {I : Interface}

/-! ## Collections in a run -/

namespace Heap

variable {h h' m : Heap F} {event : HeapEvent F} {log : List (HeapEvent F)} {r : ObjRef}

/-- What is true of the object at each collection of a run that finds it. -/
def AtCollections (h : Heap F) (log : List (HeapEvent F)) (r : ObjRef)
    (P : Heap F → HeapEntry F → Prop) : Prop :=
  ∀ before event after m, log = before ++ event :: after → h.Runs before m → m.CollectsAt event →
    ∀ e, m.entry? r = some e → P m e

/-- An event leads to one heap only. -/
theorem Does.unique (hdoes : h.Does event h') (hdoes' : h.Does event m) : h' = m := by
  cases event with
  | alloc made q =>
    have hsame : (q, h') = (q, m) := hdoes.symm.trans hdoes'
    exact congrArg Prod.snd hsame
  | repoint q buffer => exact Except.ok.inj (hdoes.symm.trans hdoes')
  | _ => exact hdoes.symm.trans hdoes'

/-- What is true at each collection is true at the first one, if there is one, and at each later
one. -/
theorem atCollections_cons_iff {P : Heap F → HeapEntry F → Prop} (hdoes : h.Does event m) :
    h.AtCollections (event :: log) r P ↔
      (h.CollectsAt event → ∀ e, h.entry? r = some e → P h e) ∧ m.AtCollections log r P := by
  constructor
  · intro hall
    refine ⟨hall [] event log h rfl rfl, fun before event' after u hlog hruns => ?_⟩
    exact hall (event :: before) event' after u (congrArg (event :: ·) hlog) ⟨m, hdoes, hruns⟩
  · rintro ⟨hfirst, hlater⟩ before event' after u hlog hruns
    cases before with
    | nil =>
      cases hlog
      rw [← show h = u from hruns]
      exact hfirst
    | cons first before =>
      cases hlog
      obtain ⟨u', hdoes', hruns⟩ := hruns
      cases hdoes.unique hdoes'
      exact hlater before event' after u rfl hruns

/-- **An object is there after a run exactly if every collection found it rooted.** -/
theorem Runs.isLive_iff (hruns : h.Runs log h') (room : h'.table.Addressable)
    (hs : h.table.Sound) (hlive : h.isLive r) :
    h'.isLive r ↔ h.AtCollections log r fun m e => m.isRooted r e := by
  induction log generalizing h with
  | nil =>
    rw [← show h = h' from hruns, iff_true_left hlive]
    exact fun before event after m hlog => by simp at hlog
  | cons event log ih =>
    obtain ⟨m, hdoes, hruns⟩ := hruns
    obtain ⟨e, he⟩ := Option.isSome_iff_exists.mp hlive
    have hissued : h.table.Issued r := Table.issued_of_get? he
    have hroom := hruns.evolves.addressable room
    have hs' := hdoes.evolves.sound hroom hs
    rw [atCollections_cons_iff hdoes]
    by_cases hcollects : h.CollectsAt event
    · have hafter := hdoes.entry?_of_collects hcollects hroom hs hissued
      by_cases hrooted : h.isRooted r e
      · -- it is kept
        have hkept : m.isLive r := isLive_of_eq_some
          (hafter.trans (Option.filter_eq_some_iff.mpr ⟨he, hrooted⟩))
        rw [ih hruns hs' hkept]
        refine (and_iff_right fun _ e' he' => ?_).symm
        cases he.symm.trans he'
        exact hrooted
      · -- it is taken away, and nothing brings it back
        have hgone : m.entry? r = none := by
          rw [hafter, he]
          simp [Option.filter, hrooted]
        have hnone := hruns.entry?_eq_none room hs'
          (hdoes.evolves.issued hroom hs hissued) hgone
        refine iff_of_false (by simp [isLive, hnone]) fun hall => ?_
        exact hrooted (hall.1 hcollects e he)
    · have hkept : m.isLive r :=
        (hdoes.isLive_of_not_collects hcollects hroom hs hissued).trans hlive
      rw [ih hruns hs' hkept]
      exact (and_iff_right fun h => (hcollects h).elim).symm

/-- Runs bring what is kept for calls only by allocations. -/
theorem Runs.mem_scopes (hruns : h.Runs log h') (hr : r ∈ h'.scopes.flatten) :
    r ∈ h.scopes.flatten ∨ ∃ made, .alloc made r ∈ log := by
  induction log generalizing h with
  | nil =>
    rw [show h = h' from hruns]
    exact Or.inl hr
  | cons event log ih =>
    obtain ⟨m, hdoes, hruns⟩ := hruns
    rcases ih hruns with hm | ⟨made, hmade⟩
    · refine (hdoes.mem_scopes hm).imp_right fun ⟨made, hmade⟩ => ⟨made, ?_⟩
      rw [hmade]
      exact List.mem_cons_self
    · exact Or.inr ⟨made, List.mem_cons_of_mem _ hmade⟩

/-- What a run allocates was not handed out before. -/
theorem Runs.not_issued_of_alloc {made : Made F} (hruns : h.Runs log h')
    (room : h'.table.Addressable) (hs : h.table.Sound) (hmade : .alloc made r ∈ log) :
    ¬ h.table.Issued r := by
  induction log generalizing h with
  | nil => exact (List.not_mem_nil hmade).elim
  | cons event log ih =>
    obtain ⟨m, hdoes, hruns⟩ := hruns
    have hroom := hruns.evolves.addressable room
    rcases List.mem_cons.mp hmade with rfl | hlater
    · obtain ⟨rfl, rfl⟩ := hdoes.alloc_eq
      exact (entry?_alloc_self hroom hs).2
    · intro hissued
      exact ih hruns (hdoes.evolves.sound hroom hs) hlater
        (hdoes.evolves.issued hroom hs hissued)

/-- A run leads to one heap only. -/
theorem Runs.unique (hruns : h.Runs log h') (hruns' : h.Runs log m) : h' = m := by
  induction log generalizing h with
  | nil => exact (show h = h' from hruns).symm.trans hruns'
  | cons event log ih =>
    obtain ⟨u, hdoes, hruns⟩ := hruns
    obtain ⟨u', hdoes', hruns'⟩ := hruns'
    cases hdoes.unique hdoes'
    exact ih hruns hruns'

/-- What is said of the collections of a run can be said in other words, if these mean the same at
each point of the run. -/
theorem Runs.atCollections_congr {P Q : Heap F → HeapEntry F → Prop} (hruns : h.Runs log h')
    (hiff : ∀ before after m e, h.Runs before m → m.Runs after h' → m.entry? r = some e →
      (P m e ↔ Q m e)) : h.AtCollections log r P ↔ h.AtCollections log r Q := by
  have himp : ∀ {P Q : Heap F → HeapEntry F → Prop}, (∀ before after m e, h.Runs before m →
      m.Runs after h' → m.entry? r = some e → P m e → Q m e) → h.AtCollections log r P →
      h.AtCollections log r Q := by
    rintro P Q hPQ hP before event after m rfl hbefore hcollects e he
    obtain ⟨u, hbefore', hafter⟩ := runs_append_iff.mp hruns
    cases hbefore.unique hbefore'
    exact hPQ before _ m e hbefore hafter he (hP before event after m rfl hbefore hcollects e he)
  exact
    ⟨himp fun before after m e hbefore hafter he => (hiff before after m e hbefore hafter he).mp,
      himp fun before after m e hbefore hafter he => (hiff before after m e hbefore hafter he).mpr⟩

/-- The object has a pin, or a name is bound to it. -/
def PinnedOrBound (h : Heap F) (r : ObjRef) (e : HeapEntry F) : Prop :=
  0 < e.pins ∨ ∃ name, h.globals.find? name = some r

end Heap

/-! ## Functions that call others -/

open HeapEvent

section Programs

variable {σ ε α : Type} {Command : Type} {Reply : Command → Type}

/-- Carrying the program out from `s` comes in `v` to where it issues the command, and goes on
from there with its reply. -/
inductive Program.Issues (handle : (command : Command) → Act σ ε (Reply command)) :
    Program Command Reply ε α → σ → (command : Command) →
      (Reply command → Program Command Reply ε α) → σ → Prop where
  /-- A program begins with a command. -/
  | here {command : Command} {next : Reply command → Program Command Reply ε α} {s : σ} :
      Issues handle (.ask command next) s command next s
  /-- The other commands are issued after it was answered. -/
  | later {first : Command} {cont : Reply first → Program Command Reply ε α} {reply}
      {command : Command} {next : Reply command → Program Command Reply ε α} {s s' v : σ}
      (hanswer : (handle first).start s = (.ok reply, s'))
      (hrest : Issues handle (cont reply) s' command next v) :
      Issues handle (.ask first cont) s command next v

end Programs

open HeapWorld in
/-- A run passes through the points where it issues a command. -/
theorem Program.Issues.visits {α : Type} {code : UserCode F I} {surroundings : Surroundings I ω}
    {stack : List (Surroundings I ω)} {p : HeapProgram F I α} {w v : HeapWorld F ω}
    {command : HeapCommand F I} {next : command.Reply → HeapProgram F I α}
    (h : p.Issues (answer surroundings (Runner.ofStack code stack)) w command next v) :
    Visits code (surroundings :: stack) p w v := by
  induction h with
  | here => exact .here
  | later hanswer hrest ih => exact .next hanswer ih

/-- The code of a function, which is run from `w₀`, calls another function in `w`; the call gives
back `r` in `w₁`, and the code has come to `v` since. -/
inductive HasResult (code : UserCode F I) (w₀ : HeapWorld F ω) (r : ObjRef)
    (w w₁ v : HeapWorld F ω) : Prop where
  /-- On a machine with some levels, some code with some arguments calls a function. -/
  | intro {surroundings : Surroundings I ω} {stack : List (Surroundings I ω)} {caller : F}
      {args₀ : StateViews ObjRef} {f : ObjRef} {args : StateViews ObjRef}
      {next : Except HostError ObjRef → HeapProgram F I ObjRef}
      (hissues : (code caller args₀).Issues
        (HeapWorld.answer surroundings (Runner.ofStack code stack)) w₀ (.call f args) next w)
      (hcall : (HeapWorld.call (Runner.ofStack code stack) f args).start w = (.ok r, w₁))
      (hlater : Visits code (surroundings :: stack) (next (.ok r)) w₁ v)

/-- What becomes of `r`, which a call has given back that was made in `w` and has ended in `w₁`, up
to `v`. -/
structure HeapWorld.ResultLasts (r : ObjRef) (w w₁ v : HeapWorld F ω) : Prop where
  /-- It is there when the call ends. -/
  returned : w₁.heap.isLive r
  /-- If it was kept for a call in progress when the nested call was made, it is still there. -/
  kept : r ∈ w.heap.scopes.flatten → v.heap.isLive r
  /-- What was done since the call is a run that ends only calls that it begins. -/
  runs : ∃ later depth, w₁.heap.Runs later v.heap ∧ nesting later = some depth
  /-- It is there exactly if each collection since then found that it has a pin, that a name is
  bound to it or that it is kept for a call in progress. -/
  lasts : ∀ later, w₁.heap.Runs later v.heap → (v.heap.isLive r ↔
    w₁.heap.AtCollections later r fun m e => m.PinnedOrBound r e ∨ r ∈ m.scopes.flatten)
  /-- If it was made in the nested call, no call in progress keeps it. -/
  made : ¬ w.heap.table.Issued r → ∀ later, w₁.heap.Runs later v.heap → (v.heap.isLive r ↔
    w₁.heap.AtCollections later r fun m e => m.PinnedOrBound r e)

/-- **The result of a call lasts as long as collections find it protected.**  When a call ends that
was made by the code of a function, its result is there.  From then on, at every point that the
code comes to, it is there exactly if each collection on the way has found that it has a pin,
that a name is bound to it, or that it is kept for a call in progress.  What was allocated directly
in a call that was in progress before is kept like that until that call ends, but what was made
in the nested call is kept for no call.

The code is run in any world to which a run of events has led, which is all that acts on a heap,
with any settings. -/
theorem results_last (code : UserCode F I) (config : HeapConfig) {past : List (HeapEvent F)}
    {w₀ w w₁ v : HeapWorld F ω} {r : ObjRef} (hpast : (Heap.ofConfig config).Runs past w₀.heap)
    (h : HasResult code w₀ r w w₁ v) (room : v.heap.table.Addressable) :
    HeapWorld.ResultLasts r w w₁ v := by
  obtain @⟨_, stack, _, _, f, args, _, hissues, hcall, hlater⟩ := h
  obtain ⟨earlier, -, hearlier⟩ := hissues.visits.runs_log
  have hw := hpast.append hearlier
  have hruns := HeapWorld.runs_callLog (Runner.journals_ofStack code stack) f args w
  have hscopes := HeapWorld.scopes_call code stack f args w
  rw [hcall] at hruns hscopes
  have hw₁ := hw.append hruns
  have hlive : w₁.heap.isLive r := HeapStep.isLive_result (Or.inl hcall)
  obtain ⟨later, hbegins, hafter⟩ := hlater.runs_log
  obtain ⟨depth, hdepth⟩ := nesting_of_prefix hbegins (nesting_logOn code _ _ _)
  have room₁ := hafter.evolves.addressable room
  have hs₁ := hw₁.evolves.sound room₁ Table.sound_empty
  have hissued₁ : w₁.heap.table.Issued r := by
    obtain ⟨e, he⟩ := Option.isSome_iff_exists.mp hlive
    exact Table.issued_of_get? he
  refine ⟨hlive, fun hr => ?_, ⟨later, depth, hafter, hdepth⟩, fun log hlog => ?_,
    fun hnew log hlog => ?_⟩
  · -- the calls in progress are still in progress
    cases hopen : w.heap.scopes with
    | nil => simp [hopen] at hr
    | cons frame outer =>
      obtain ⟨inner, own, -, hnow, -⟩ := hafter.scopes_of_nesting (hscopes.trans hopen) hdepth
      refine (hw₁.append hafter).localsLive room r ?_
      rw [hopen] at hr
      rw [hnow]
      simp only [List.flatten_cons, List.flatten_append, List.mem_append] at hr ⊢
      tauto
  · rw [hlog.isLive_iff room hs₁ hlive]
    refine hlog.atCollections_congr fun before after m e hbefore _ _ => ?_
    rw [Heap.isRooted_iff_of_proper ((hw₁.append hbefore).proper .nil), ← or_assoc]
    rfl
  · rw [hlog.isLive_iff room hs₁ hlive]
    refine hlog.atCollections_congr fun before after m e hbefore hrest _ => ?_
    rw [Heap.isRooted_iff_of_proper ((hw₁.append hbefore).proper .nil), ← or_assoc]
    refine or_iff_left fun hlocal => ?_
    rcases hbefore.mem_scopes hlocal with hold | ⟨made, hmade⟩
    · -- no call that is still in progress has made it
      rw [hscopes] at hold
      have room₀ := hruns.evolves.addressable room₁
      obtain ⟨e, he⟩ := Option.isSome_iff_exists.mp (hw.localsLive room₀ r hold)
      exact hnew (Table.issued_of_get? he)
    · have hroom := hrest.evolves.addressable room
      exact hbefore.not_issued_of_alloc hroom hs₁ hmade hissued₁

/-! ## A result that is collected while the caller is running

The outer function calls the inner one, which makes an array and gives it back, and collects. -/

namespace Dropped

/-- What the outer function does after the call. -/
def rest (args : StateViews ObjRef) : HeapProgram Bool Echo.interface ObjRef := do
  discard HeapCommand.collect.ask
  pure args.t

/-- The code of the inner function and of the outer one. -/
def code : UserCode Bool Echo.interface
  | false, _ => (HeapCommand.array [.one]).ask
  | true, args => .ask (.call ⟨0, 0⟩ args) fun _ => rest args

/-- The heap when the body of the outer function begins. -/
def entered : HeapWorld Bool Unit := Nested.world.update Heap.openScope

/-- What was done to the heap until then. -/
def past : List (HeapEvent Bool) :=
  Nested.setUp.logOn Nested.code [Echo.surroundings] Nested.start ++ [.enter]

/-- The machine below the outer function. -/
def below : Runner Bool Unit := Runner.ofStack code [Echo.surroundings]

/-- The heap when the inner function has ended. -/
def returned : HeapWorld Bool Unit :=
  ((HeapWorld.call below ⟨0, 0⟩ Nested.args).start entered).2

/-- The result of the inner function. -/
def result : ObjRef := ⟨3, 0⟩

/-- The heap after the collection. -/
def collected : HeapWorld Bool Unit := returned.update fun h => h.collect.2

/-- A run has led to the heap. -/
theorem runs_past : (Heap.ofConfig .manual).Runs past entered.heap :=
  .append ((Nested.start.actsByLogs Nested.code []).client Echo.surroundings Nested.setUp)
    (Heap.Does.runs rfl)

/-- The outer function is in progress. -/
theorem inCall_past : InCall past 0 := ⟨_, [], rfl, rfl⟩

/-- The outer function has called the inner one and has collected. -/
theorem hasResult : HasResult code entered result entered returned collected := by
  have hissues : (code true Nested.args).Issues
      (HeapWorld.answer Echo.surroundings below) entered (.call ⟨0, 0⟩ Nested.args)
      (fun _ => rest Nested.args) entered := .here
  have hresult : ((HeapWorld.call below ⟨0, 0⟩ Nested.args).start entered).1 = .ok result := by
    decide +kernel
  have hlater : Visits code [Echo.surroundings, Echo.surroundings] (rest Nested.args) returned
      collected :=
    .first_part code Echo.surroundings [Echo.surroundings] (discard HeapCommand.collect.ask)
      (fun _ => pure Nested.args.t) returned
  exact .intro hissues (Prod.ext hresult rfl) hlater

/-- There is room. -/
theorem room : collected.heap.table.Addressable := by decide +kernel

/-- The collection has freed the result. -/
theorem isLive_result : collected.heap.isLive result = false := by decide +kernel

end Dropped

/-- The result was there after the call, and was freed by a collection that has found neither a pin
nor a name. -/
theorem results_last_dropped :
    Dropped.returned.heap.isLive Dropped.result ∧
      Dropped.collected.heap.isLive Dropped.result = false ∧
      ¬ Dropped.returned.heap.AtCollections [.collect] Dropped.result
        fun m e => m.PinnedOrBound Dropped.result e := by
  obtain ⟨hreturned, -, -, -, hmade⟩ :=
    results_last Dropped.code .manual Dropped.runs_past Dropped.hasResult Dropped.room
  have hnew : ¬ Dropped.entered.heap.table.Issued Dropped.result := by
    rintro ⟨slot, hslot, -⟩
    have hplace : (Dropped.entered.heap.table.slots[3]?).isSome = false := by decide +kernel
    rw [show Dropped.entered.heap.table.slots[3]? = some slot from hslot] at hplace
    cases hplace
  refine ⟨hreturned, Dropped.isLive_result, fun hprotected => ?_⟩
  have hlive := (hmade hnew [.collect] ⟨_, rfl, rfl⟩).mpr hprotected
  rw [Dropped.isLive_result] at hlive
  cases hlive

/-- So it is not true that what a nested call gives back is there until the caller ends. -/
theorem not_forall_results_stay :
    ¬ ∀ (code : UserCode Bool Echo.interface) (config : HeapConfig)
      (past : List (HeapEvent Bool)) (w₀ w w₁ v : HeapWorld Bool Unit) (r : ObjRef),
      (Heap.ofConfig config).Runs past w₀.heap → InCall past 0 →
      HasResult code w₀ r w w₁ v → v.heap.table.Addressable → v.heap.isLive r := by
  intro hclaim
  have hlive := hclaim Dropped.code .manual Dropped.past Dropped.entered Dropped.entered
    Dropped.returned Dropped.collected Dropped.result Dropped.runs_past Dropped.inCall_past
    Dropped.hasResult Dropped.room
  rw [Dropped.isLive_result] at hlive
  cases hlive

end CallbackBridge
