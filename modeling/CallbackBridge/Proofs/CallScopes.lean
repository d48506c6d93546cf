/-
# Calls and what is kept for them

The heap keeps for each call in progress what was allocated while that call was the innermost
one.  A call leaves all that as it was when it began, whether its body returns, fails or panics,
and whatever calls have been nested in it (`calls_restore_scopes`); at every point of the body,
what was allocated in the call itself is still there.

* `MarkedRoots` is one list of all that was allocated, with a mark for each call in progress at
  which what it has allocated begins; a call that ends cuts the list at its mark.  What the heap
  keeps is that list (`Heap.Runs.markedRoots`).
* `HeapEvent.nesting_logOn` says that the log of a program ends as many calls as it begins, and
  none that had begun before.
* `Heap.CollectsAt` says which events collect; only these take anything away.
* `Heap.LocalsLive` is the invariant that what is kept for calls has not been collected.
-/
import CallbackBridge.Proofs.HeapActors
import CallbackBridge.Proofs.OpenCalls
namespace CallbackBridge

variable {F ω : Type} {I : Interface}

/-! ## What events do to the scopes -/

/-- What is kept for the calls in progress after an event. -/
def HeapEvent.rescope (scopes : List (List ObjRef)) : HeapEvent F → List (List ObjRef)
  | .alloc _ r => Heap.extendScope [r] scopes
  | .enter => [] :: scopes
  | .leave => scopes.tail
  | _ => scopes

namespace Heap

variable {h h' m : Heap F} {event : HeapEvent F} {log log' : List (HeapEvent F)}

/-- An allocation is noted with the innermost call. -/
theorem scopes_alloc (h : Heap F) (object : Object F) :
    (h.alloc object).2.scopes = extendScope [(h.alloc object).1] h.scopes := by
  have hprepared := scopes_prepare h
  unfold alloc noteLocal
  dsimp only
  split
  · next heq => rw [← hprepared, heq]; rfl
  · next innermost outer heq => rw [← hprepared, heq]; rfl

/-- What an allocation gives and leaves. -/
theorem Does.alloc_eq {made : Made F} {r : ObjRef} (hdoes : h.Does (.alloc made r) h') :
    (h.alloc made.object).1 = r ∧ (h.alloc made.object).2 = h' :=
  Prod.mk.inj hdoes

/-- Only allocations and the beginnings and ends of calls change what is kept for calls. -/
theorem Does.scopes (hdoes : h.Does event h') : h'.scopes = event.rescope h.scopes := by
  cases event with
  | alloc made r =>
    obtain ⟨rfl, rfl⟩ := hdoes.alloc_eq
    exact scopes_alloc h made.object
  | repoint r buffer =>
    obtain ⟨-, rfl⟩ := repoint_eq_ok hdoes
    rfl
  | retire r =>
    cases hdoes
    unfold Heap.retire
    split <;> rfl
  | _ =>
    cases hdoes
    rfl

/-- A run of two logs is a run of the first one and a run of the second one. -/
theorem runs_append_iff : h.Runs (log ++ log') h' ↔ ∃ m, h.Runs log m ∧ m.Runs log' h' := by
  refine ⟨fun hruns => ?_, fun ⟨m, hruns, hlater⟩ => hruns.append hlater⟩
  induction log generalizing h with
  | nil => exact ⟨h, rfl, hruns⟩
  | cons event log ih =>
    obtain ⟨u, hdoes, hruns⟩ := hruns
    obtain ⟨m, hruns, hlater⟩ := ih hruns
    exact ⟨m, ⟨u, hdoes, hruns⟩, hlater⟩

end Heap

/-! ## One list cut by marks -/

/-- What calls in progress have allocated, as one list. -/
structure MarkedRoots where
  /-- What was allocated, the earliest first. -/
  locals : List ObjRef := []
  /-- For each call in progress, the innermost first, how much was in the list when it began. -/
  marks : List Nat := []
  deriving DecidableEq

namespace MarkedRoots

/-- Marks the end of the list. -/
def mark (roots : MarkedRoots) : MarkedRoots :=
  { roots with marks := roots.locals.length :: roots.marks }

/-- Cuts the list at the last mark. -/
def cut (roots : MarkedRoots) : MarkedRoots :=
  match roots.marks with
  | [] => roots
  | last :: marks => ⟨roots.locals.take last, marks⟩

/-- Adds a reference at the end, if there is a mark. -/
def note (roots : MarkedRoots) (r : ObjRef) : MarkedRoots :=
  match roots.marks with
  | [] => roots
  | _ => { roots with locals := roots.locals ++ [r] }

/-- The list after an event. -/
def apply (roots : MarkedRoots) : HeapEvent F → MarkedRoots
  | .alloc _ r => roots.note r
  | .enter => roots.mark
  | .leave => roots.cut
  | _ => roots

/-- The list after events, the earliest first. -/
def replay (log : List (HeapEvent F)) : MarkedRoots := log.foldl apply {}

/-- The marks of what is kept call by call. -/
def marksOf : List (List ObjRef) → List Nat
  | [] => []
  | _ :: outer => outer.flatten.length :: marksOf outer

/-- What is kept call by call, as one list. -/
def ofScopes (scopes : List (List ObjRef)) : MarkedRoots :=
  ⟨scopes.flatten.reverse, marksOf scopes⟩

/-- A call that ends leaves what was there before it. -/
theorem ofScopes_tail (scopes : List (List ObjRef)) :
    ofScopes scopes.tail = (ofScopes scopes).cut := by
  cases scopes with
  | nil => rfl
  | cons innermost outer =>
    simp [ofScopes, marksOf, cut]

/-- The list changes with what is kept call by call. -/
theorem ofScopes_rescope (scopes : List (List ObjRef)) (event : HeapEvent F) :
    ofScopes (event.rescope scopes) = (ofScopes scopes).apply event := by
  cases event with
  | alloc made r =>
    cases scopes with
    | nil => rfl
    | cons innermost outer =>
      simp [HeapEvent.rescope, Heap.extendScope, ofScopes, marksOf, apply, note]
  | enter => simp [HeapEvent.rescope, ofScopes, marksOf, apply, mark]
  | leave => exact ofScopes_tail scopes
  | _ => rfl

end MarkedRoots

/-- What the heap keeps for calls, as one list. -/
def Heap.markedRoots (h : Heap F) : MarkedRoots := .ofScopes h.scopes

/-- What an event makes of the list. -/
theorem Heap.Does.markedRoots {h h' : Heap F} {event : HeapEvent F} (hdoes : h.Does event h') :
    h'.markedRoots = h.markedRoots.apply event := by
  unfold Heap.markedRoots
  rw [hdoes.scopes, MarkedRoots.ofScopes_rescope]

/-- What a run makes of the list. -/
theorem Heap.Runs.foldl_markedRoots {h h' : Heap F} {log : List (HeapEvent F)}
    (hruns : h.Runs log h') : h'.markedRoots = log.foldl MarkedRoots.apply h.markedRoots := by
  induction log generalizing h with
  | nil => exact congrArg Heap.markedRoots (Eq.symm hruns)
  | cons event log ih =>
    obtain ⟨m, hdoes, hlater⟩ := hruns
    rw [ih hlater, hdoes.markedRoots]
    rfl

/-- **What a heap keeps for calls is one list that is cut by marks.** -/
theorem Heap.Runs.markedRoots {config : HeapConfig} {log : List (HeapEvent F)} {h : Heap F}
    (hruns : (Heap.ofConfig config).Runs log h) : h.markedRoots = .replay log :=
  hruns.foldl_markedRoots

/-! ## Logs end the calls that they begin -/

namespace HeapEvent

variable {log log' before : List (HeapEvent F)} {event : HeapEvent F} {depth : Nat}

/-- The calls in progress after two logs are those after the first one, carried on. -/
theorem nesting_append_eq (log log' : List (HeapEvent F)) :
    nesting (log ++ log') = log'.foldl nest (nesting log) := List.foldl_append

/-- What is deeper by some calls stays so, as long as none of these ends. -/
theorem foldl_nest_add (hdepth : nesting log = some depth) (outer : Nat) :
    log.foldl nest (some outer) = some (outer + depth) := by
  induction log using List.reverseRecOn generalizing depth with
  | nil =>
    cases hdepth
    rfl
  | append_singleton log event ih =>
    rw [nesting_concat, nest_eq_some_iff] at hdepth
    obtain ⟨inner, hinner, hevent⟩ := hdepth
    rw [List.foldl_concat, ih hinner]
    cases event with
    | enter =>
      cases hevent
      exact congrArg some (Nat.add_assoc _ _ _)
    | leave =>
      cases inner with
      | zero => cases hevent
      | succ inner =>
        cases hevent
        rfl
    | _ =>
      cases hevent
      rfl

/-- Calls in progress after two logs. -/
theorem nesting_append {outer : Nat} (houter : nesting log = some outer)
    (hinner : nesting log' = some depth) : nesting (log ++ log') = some (outer + depth) := by
  rw [nesting_append_eq, houter]
  exact foldl_nest_add hinner outer

/-- Once a call has ended that had begun before, it stays so. -/
theorem foldl_nest_none (log : List (HeapEvent F)) : log.foldl nest none = none := by
  induction log with
  | nil => rfl
  | cons event log ih => cases event <;> exact ih

/-- If no call has ended that had begun before, then none has at any point. -/
theorem nesting_of_prefix (hbegins : before <+: log) (hdepth : nesting log = some depth) :
    ∃ inner, nesting before = some inner := by
  obtain ⟨rest, rfl⟩ := hbegins
  cases hbefore : nesting before with
  | some inner => exact ⟨inner, rfl⟩
  | none =>
    rw [nesting_append_eq, hbefore, foldl_nest_none] at hdepth
    cases hdepth

end HeapEvent

open HeapEvent

/-- What is told of the code of functions ends the calls that it begins, and no others. -/
def Journal.Balanced (below : Journal F ω) : Prop :=
  ∀ f args (w : HeapWorld F ω), nesting (below f args w) = some 0

/-- A call ends if it begins. -/
theorem HeapWorld.nesting_callLog {below : Journal F ω} (hbelow : below.Balanced) (f : ObjRef)
    (args : StateViews ObjRef) (w : HeapWorld F ω) : nesting (callLog below f args w) = some 0 := by
  unfold callLog
  split
  · rfl
  · next function hf =>
    split
    · have hentered : nesting ([.enter] : List (HeapEvent F)) = some 1 := rfl
      have hbody := nesting_append hentered
        (hbelow function.code args (w.update Heap.openScope))
      rw [← List.singleton_append, nesting_concat, hbody]
      rfl
    · rfl

/-- A command ends the calls that it begins. -/
theorem HeapWorld.nesting_commandLog {below : Journal F ω} (hbelow : below.Balanced)
    (w : HeapWorld F ω) (command : HeapCommand F I) :
    nesting (commandLog below w command) = some 0 := by
  cases command with
  | call f args => exact nesting_callLog hbelow f args w
  | direct f args => exact hbelow f.code args w
  | repoint r buffer =>
    unfold commandLog
    cases hrepoint : w.heap.repoint r buffer <;> simp only [hrepoint] <;> rfl
  | _ => rfl

/-- A program ends the calls that it begins. -/
theorem Program.nesting_log {α : Type} {run : Runner F ω} {below : Journal F ω}
    (hbelow : below.Balanced) (surroundings : Surroundings I ω) (p : HeapProgram F I α)
    (w : HeapWorld F ω) : nesting (p.log surroundings run below w) = some 0 := by
  induction p generalizing w with
  | done outcome => rfl
  | ask command next ih =>
    have hcommand := HeapWorld.nesting_commandLog hbelow w command
    unfold log
    split
    · next reply w' _ => exact nesting_append hcommand (ih reply w')
    · rw [List.append_nil]
      exact hcommand

/-- The code of functions ends the calls that it begins, on every machine. -/
theorem Journal.balanced_ofStack (code : UserCode F I) (stack : List (Surroundings I ω)) :
    (Journal.ofStack code stack).Balanced := by
  induction stack with
  | nil => exact fun _ _ _ => rfl
  | cons surroundings stack ih =>
    exact fun f args w => Program.nesting_log ih surroundings (code f args) w

/-- **A program ends the calls that it begins**, and no others. -/
theorem HeapEvent.nesting_logOn {α : Type} (code : UserCode F I) (stack : List (Surroundings I ω))
    (p : HeapProgram F I α) (w : HeapWorld F ω) : nesting (p.logOn code stack w) = some 0 := by
  cases stack with
  | nil => rfl
  | cons surroundings stack =>
    exact Program.nesting_log (Journal.balanced_ofStack code stack) surroundings p w

/-! ## What is kept for a call that is in progress -/

/-- The reference was allocated while no call was in progress that has begun in this log. -/
def HeapEvent.AllocatedOutside (log : List (HeapEvent F)) (r : ObjRef) : Prop :=
  ∃ within made after, log = within ++ .alloc made r :: after ∧ nesting within = some 0

/-- What was allocated outside, after one more event. -/
theorem HeapEvent.allocatedOutside_concat_iff {log : List (HeapEvent F)} {event : HeapEvent F}
    {r : ObjRef} : AllocatedOutside (log ++ [event]) r ↔
      AllocatedOutside log r ∨ (∃ made, event = .alloc made r) ∧ nesting log = some 0 := by
  constructor
  · rintro ⟨within, made, after, hlog, hwithin⟩
    rcases concat_eq_iff.mp hlog with ⟨rfl, rfl, rfl⟩ | ⟨part, rfl, rfl⟩
    · exact Or.inr ⟨⟨made, rfl⟩, hwithin⟩
    · exact Or.inl ⟨within, made, part, rfl, hwithin⟩
  · rintro (⟨within, made, after, rfl, hwithin⟩ | ⟨⟨made, rfl⟩, hlog⟩)
    · exact ⟨within, made, after ++ [event], by simp, hwithin⟩
    · exact ⟨log, made, [], rfl, hlog⟩

/-- **What is kept for a call in progress is what was allocated in it**, and what is kept for the
calls around it is what it was. -/
theorem Heap.Runs.scopes_of_nesting {h h' : Heap F} {log : List (HeapEvent F)} {depth : Nat}
    {frame : List ObjRef} {outer : List (List ObjRef)} (hruns : h.Runs log h')
    (hscopes : h.scopes = frame :: outer) (hdepth : nesting log = some depth) :
    ∃ inner own, inner.length = depth ∧ h'.scopes = inner ++ (own ++ frame) :: outer ∧
      ∀ r, r ∈ own ↔ AllocatedOutside log r := by
  induction log using List.reverseRecOn generalizing h' depth with
  | nil =>
    cases hdepth
    rw [show h = h' from hruns] at hscopes
    exact ⟨[], [], rfl, hscopes, fun r => by simp [AllocatedOutside]⟩
  | append_singleton log event ih =>
    obtain ⟨m, hruns, hlast⟩ := runs_append_iff.mp hruns
    have hdoes : m.Does event h' := by
      obtain ⟨_, hdoes, rfl⟩ := hlast
      exact hdoes
    rw [nesting_concat, nest_eq_some_iff] at hdepth
    obtain ⟨before, hbefore, hevent⟩ := hdepth
    obtain ⟨inner, own, hlength, hm, hown⟩ := ih hruns hbefore
    have hafter := hdoes.scopes
    rw [hm] at hafter
    simp only [allocatedOutside_concat_iff, hbefore, ← hown]
    cases event with
    | alloc made q =>
      cases hevent
      cases inner with
      | nil =>
        -- no call is in progress inside this one
        cases hlength
        exact ⟨[], q :: own, rfl, hafter, fun r => by simp [eq_comm, or_comm]⟩
      | cons innermost rest =>
        refine ⟨(q :: innermost) :: rest, own, hlength, hafter, fun r => ?_⟩
        rw [← hlength]
        simp
    | enter =>
      cases hevent
      exact ⟨[] :: inner, own, congrArg (· + 1) hlength, hafter, fun r => by simp⟩
    | leave =>
      cases inner with
      | nil =>
        cases hlength
        cases hevent
      | cons innermost rest =>
        rw [← hlength] at hevent
        cases hevent
        exact ⟨rest, own, rfl, hafter, fun r => by simp⟩
    | _ =>
      cases hevent
      exact ⟨inner, own, hlength, hafter, fun r => by simp⟩

/-! ## Events that collect -/

namespace Heap

variable {h h' : Heap F} {event : HeapEvent F} {r : ObjRef}

/-- The event collects: it is a collection that is asked for, or an allocation for which one is
due. -/
def CollectsAt (h : Heap F) : HeapEvent F → Prop
  | .collect => True
  | .alloc _ _ => 0 < h.config.collectEvery ∧ (h.stats.allocations + 1) % h.config.collectEvery = 0
  | _ => False

/-- The table before an allocation for which a collection is due. -/
theorem table_prepare_of_due (hdue : 0 < h.config.collectEvery ∧
    (h.stats.allocations + 1) % h.config.collectEvery = 0) :
    h.prepare.table = (h.table.sweep h.isRooted).2 := by
  unfold prepare
  dsimp only
  rw [if_pos hdue]
  exact table_collect _

/-- The table before an allocation for which none is due. -/
theorem table_prepare_of_not_due (hdue : ¬ (0 < h.config.collectEvery ∧
    (h.stats.allocations + 1) % h.config.collectEvery = 0)) : h.prepare.table = h.table := by
  unfold prepare
  dsimp only
  rw [if_neg hdue]

/-- What was handed out before an allocation leads to what it leads to when the object is put
in. -/
theorem entry?_alloc_of_issued {object : Object F} (room : (h.alloc object).2.table.Addressable)
    (hs : h.table.Sound) (hissued : h.table.Issued r) :
    Heap.entry? (h.alloc object).2 r = h.prepare.entry? r := by
  unfold entry?
  rw [table_alloc] at room ⊢
  have hroom := Nat.le_trans (Table.length_le_length_insert _ _) room
  have hprepared := evolves_prepare HeapEntry.fixedSorts h
  have hs' := hprepared.sound hroom hs
  refine hs'.get?_insert_of_ne room fun hsame => ?_
  exact hs'.not_issued_insert room (hsame ▸ hprepared.issued hroom hs hissued)

/-- **An event that collects takes away what is not rooted**, of what was handed out before. -/
theorem Does.entry?_of_collects (hdoes : h.Does event h') (hcollects : h.CollectsAt event)
    (room : h'.table.Addressable) (hs : h.table.Sound) (hissued : h.table.Issued r) :
    h'.entry? r = (h.entry? r).filter (h.isRooted r) := by
  cases event with
  | collect =>
    cases hdoes
    exact entry?_collect h r
  | alloc made q =>
    obtain ⟨rfl, rfl⟩ := hdoes.alloc_eq
    rw [entry?_alloc_of_issued room hs hissued]
    unfold entry?
    rw [table_prepare_of_due hcollects, Table.get?_sweep]
  | _ => exact hcollects.elim

/-- **No other event takes anything away.** -/
theorem Does.isLive_of_not_collects (hdoes : h.Does event h') (hcollects : ¬ h.CollectsAt event)
    (room : h'.table.Addressable) (hs : h.table.Sound) (hissued : h.table.Issued r) :
    h'.isLive r = h.isLive r := by
  cases event with
  | collect => exact (hcollects trivial).elim
  | alloc made q =>
    obtain ⟨rfl, rfl⟩ := hdoes.alloc_eq
    unfold isLive
    rw [entry?_alloc_of_issued room hs hissued]
    unfold entry?
    rw [table_prepare_of_not_due hcollects]
  | pin q =>
    cases hdoes
    exact isLive_of_modify rfl r
  | unpin q =>
    cases hdoes
    exact isLive_of_modify rfl r
  | repoint q buffer =>
    obtain ⟨-, rfl⟩ := repoint_eq_ok hdoes
    exact isLive_of_modify rfl r
  | retire q =>
    cases hdoes
    rcases h.retire_cases q with ⟨view, pins, -, htable⟩ | ⟨-, hsame⟩
    · exact isLive_of_modify htable r
    · rw [hsame]
  | _ =>
    cases hdoes
    rfl

end Heap

/-! ## What is kept for calls is there -/

namespace Heap

variable {h h' : Heap F} {event : HeapEvent F} {log : List (HeapEvent F)} {r : ObjRef}

/-- What is kept for calls in progress has not been collected. -/
def LocalsLive (h : Heap F) : Prop := ∀ r ∈ h.scopes.flatten, h.isLive r

/-- What is kept for calls is rooted. -/
theorem isRooted_of_local (hr : r ∈ h.scopes.flatten) (e : HeapEntry F) : h.isRooted r e := by
  have hkept : h.Keeps [] r e := Or.inr (Or.inl hr)
  exact hkept.isRooted

/-- An event brings what is kept for calls only by an allocation. -/
theorem Does.mem_scopes (hdoes : h.Does event h') (hr : r ∈ h'.scopes.flatten) :
    r ∈ h.scopes.flatten ∨ ∃ made, event = .alloc made r := by
  rw [hdoes.scopes] at hr
  cases event with
  | alloc made q =>
    cases hscopes : h.scopes with
    | nil =>
      rw [hscopes] at hr
      exact (List.not_mem_nil hr).elim
    | cons innermost outer =>
      rw [hscopes] at hr
      rcases List.mem_cons.mp hr with rfl | hr
      · exact Or.inr ⟨made, rfl⟩
      · exact Or.inl hr
  | leave =>
    obtain ⟨frame, hframe, hr⟩ := List.mem_flatten.mp hr
    exact Or.inl (List.mem_flatten.mpr ⟨frame, List.mem_of_mem_tail hframe, hr⟩)
  | _ => exact Or.inl hr

/-- No event takes away what is kept for calls. -/
theorem LocalsLive.does (hlocals : h.LocalsLive) (hdoes : h.Does event h')
    (room : h'.table.Addressable) (hs : h.table.Sound) : h'.LocalsLive := by
  intro r hr
  rcases hdoes.mem_scopes hr with hold | ⟨made, rfl⟩
  · have hlive := hlocals r hold
    obtain ⟨e, he⟩ := Option.isSome_iff_exists.mp hlive
    have hissued : h.table.Issued r := Table.issued_of_get? he
    by_cases hcollects : h.CollectsAt event
    · refine isLive_of_eq_some (e := e) ?_
      rw [hdoes.entry?_of_collects hcollects room hs hissued]
      exact Option.filter_eq_some_iff.mpr ⟨he, isRooted_of_local hold e⟩
    · exact (hdoes.isLive_of_not_collects hcollects room hs hissued).trans hlive
  · obtain ⟨rfl, rfl⟩ := hdoes.alloc_eq
    exact isLive_of_eq_some (entry?_alloc_self room hs).1

/-- **No run takes away what is kept for calls.** -/
theorem LocalsLive.runs (hlocals : h.LocalsLive) (hruns : h.Runs log h')
    (room : h'.table.Addressable) (hs : h.table.Sound) : h'.LocalsLive := by
  induction log generalizing h with
  | nil => exact hruns ▸ hlocals
  | cons event log ih =>
    obtain ⟨m, hdoes, hruns⟩ := hruns
    have hroom := hruns.evolves.addressable room
    exact ih (hlocals.does hdoes hroom hs) hruns (hdoes.evolves.sound hroom hs)

/-- What is kept for calls is there, after every run from an empty heap. -/
theorem Runs.localsLive {config : HeapConfig} (hruns : (Heap.ofConfig config).Runs log h)
    (room : h.table.Addressable) : h.LocalsLive := by
  have hempty : (Heap.ofConfig config : Heap F).LocalsLive := fun r hr => nomatch hr
  exact hempty.runs hruns room Table.sound_empty

/-- What is there after it was allocated is what it was made as. -/
theorem Runs.remains_of_alloc {within after : List (HeapEvent F)} {made : Made F} {r : ObjRef}
    {e : HeapEntry F} (hruns : h.Runs (within ++ .alloc made r :: after) h')
    (room : h'.table.Addressable) (hs : h.table.Sound) (he : h'.entry? r = some e) :
    made.object.Remains e.object := by
  obtain ⟨u, hwithin, v, hdoes, hafter⟩ := runs_append_iff.mp hruns
  obtain ⟨rfl, rfl⟩ := hdoes.alloc_eq
  have hroom := hafter.evolves.addressable room
  have hu := hwithin.evolves.sound (hdoes.evolves.addressable hroom) hs
  obtain ⟨hnew, -⟩ := entry?_alloc_self hroom hu
  obtain ⟨old, hold, hremains⟩ := hafter.evolves.inherited room (hdoes.evolves.sound hroom hu)
    (Table.issued_of_get? hnew) he
  cases hnew.symm.trans hold
  exact hremains

end Heap

/-! ## Calls -/

/-- Every program leaves the calls in progress alone, but for what it allocates in the innermost
one. -/
theorem runClosed_sameScopes :
    RunClosed (fun _ : HeapCommand F I => True)
      (fun w w' : HeapWorld F ω => w.heap.SameScopes w'.heap) where
  refl w := .refl w.heap
  trans h h' := h.trans h'
  plain surroundings run command w _ henters := by
    cases command with
    | array values => exact .alloc _ _
    | text content => exact .alloc _ _
    | function f => exact .alloc _ _
    | materialize buffer => exact .alloc _ _
    | repoint r buffer =>
      show w.heap.SameScopes (HeapWorld.repoint r buffer w).2.heap
      unfold HeapWorld.repoint
      split
      · next heap hrepoint =>
        have hdoes : w.heap.Does (.repoint r buffer) heap := hrepoint
        exact .of_eq hdoes.scopes
      · exact .refl _
    | retire r =>
      have hdoes : w.heap.Does (.retire r) (w.heap.retire r) := rfl
      exact .of_eq hdoes.scopes
    | call f args => exact (henters trivial).elim
    | direct f args => exact (henters trivial).elim
    | _ => exact .of_eq rfl
  inScope h := .of_eq h.closeScope

/-- **A call leaves the calls around it as they were**, and what is kept for them. -/
theorem HeapWorld.scopes_call (code : UserCode F I) (stack : List (Surroundings I ω)) (f : ObjRef)
    (args : StateViews ObjRef) (w : HeapWorld F ω) :
    ((HeapWorld.call (Runner.ofStack code stack) f args).start w).2.heap.scopes =
      w.heap.scopes := by
  rcases call_cases (Runner.ofStack code stack) f args w with
    ⟨e, -, heq⟩ | ⟨arg, -, -, heq⟩ | ⟨function, hf, hargs⟩
  · rw [heq]
  · rw [heq]
  · rw [start_call_entered _ hf hargs]
    have hbody := runClosed_sameScopes.runner (fun f args => (code f args).all_true) stack
      function.code args (w.update Heap.openScope)
    exact hbody.closeScope

/-- At a point of the body of a call: what the call has allocated itself is kept for it and is
still there, and what is kept for the calls around it is what it was when the call began. -/
structure HeapWorld.KeepsCall (w : HeapWorld F ω) (log : List (HeapEvent F))
    (v : HeapWorld F ω) : Prop where
  /-- What the call has allocated is kept apart from what is kept for the calls inside it and for
  those around it. -/
  scopes : ∃ inner own, v.heap.scopes = inner ++ own :: w.heap.scopes ∧
    nesting log = some inner.length ∧ ∀ r, r ∈ own ↔ AllocatedOutside log r
  /-- What the call has allocated is there, and is what it was made as. -/
  there : ∀ within made r after, log = within ++ .alloc made r :: after →
    nesting within = some 0 → ∃ e, v.heap.entry? r = some e ∧ made.object.Remains e.object

/-- **At every point of the body of a call, what the call has allocated is there.** -/
theorem Visits.keepsCall {config : HeapConfig} {past : List (HeapEvent F)} {code : UserCode F I}
    {stack : List (Surroundings I ω)} {f : ObjRef} {args : StateViews ObjRef}
    {function : NativeFunction F} {w v : HeapWorld F ω}
    (hpast : (Heap.ofConfig config).Runs past w.heap)
    (hf : w.heap.function f = .ok function) (hargs : ∀ arg ∈ args.toList, w.heap.isLive arg)
    (h : Visits code stack (code function.code args) (w.update Heap.openScope) v)
    (room : v.heap.table.Addressable) :
    ∃ log, .enter :: log <+: HeapWorld.callLog (Journal.ofStack code stack) f args w ∧
      w.heap.Runs (.enter :: log) v.heap ∧ w.KeepsCall log v := by
  obtain ⟨log, hbegins, hruns⟩ := h.runs_log
  obtain ⟨depth, hdepth⟩ := nesting_of_prefix hbegins (nesting_logOn code stack _ _)
  have hentered : w.heap.Runs (.enter :: log) v.heap := ⟨_, rfl, hruns⟩
  obtain ⟨inner, own, hlength, hscopes, hown⟩ := hruns.scopes_of_nesting rfl hdepth
  rw [List.append_nil] at hscopes
  rw [← hlength] at hdepth
  have hroom := hentered.evolves.addressable room
  have hs := hpast.evolves.sound hroom Table.sound_empty
  have hlocals := (hpast.append hentered).localsLive room
  refine ⟨log, HeapWorld.enter_prefix_callLog hf hargs hbegins, hentered,
    ⟨inner, own, hscopes, hdepth, hown⟩, fun within made r after hlog hwithin => ?_⟩
  have hr : r ∈ own := (hown r).mpr ⟨within, made, after, hlog, hwithin⟩
  obtain ⟨e, he⟩ := Option.isSome_iff_exists.mp (hlocals r (by simp [hscopes, hr]))
  rw [hlog] at hruns
  exact ⟨e, he, hruns.remains_of_alloc room hs he⟩

/-- What calls do to what the heap of a world keeps for calls. -/
structure HeapWorld.CallsRestore (code : UserCode F I) (stack : List (Surroundings I ω))
    (w : HeapWorld F ω) : Prop where
  /-- After a call it is what it was before, whether the body has returned, failed or panicked, and
  also if the call was refused. -/
  ended : ∀ f args,
    ((HeapWorld.call (Runner.ofStack code stack) f args).start w).2.heap.scopes = w.heap.scopes ∧
    ((HeapWorld.call (Runner.ofStack code stack) f args).start w).2.heap.markedRoots =
      w.heap.markedRoots
  /-- At every point of the body, those in calls that are nested in it included, what the call has
  allocated itself is there. -/
  during : ∀ {f : ObjRef} {args : StateViews ObjRef} {function : NativeFunction F}
    {v : HeapWorld F ω}, w.heap.function f = .ok function →
      (∀ arg ∈ args.toList, w.heap.isLive arg) →
      Visits code stack (code function.code args) (w.update Heap.openScope) v →
      v.heap.table.Addressable →
      ∃ log, .enter :: log <+: HeapWorld.callLog (Journal.ofStack code stack) f args w ∧
        w.heap.Runs (.enter :: log) v.heap ∧ w.KeepsCall log v

/-- **Calls restore the scopes that they find, and lose nothing of their own.**  What a heap keeps
for calls in progress is one list that is cut by marks.  A call leaves list and marks as they were
when it began, however its body ends and whatever is nested in it.  At every point of the body
what was allocated while the call was the innermost one is there, however many nested calls have
begun and ended since and however often there was a collection.

This holds in every world to which a run of events has led, and everything that acts on a heap is
such a run, up to each call that it makes.  References are 32-bit words, so an object is only
sure to be there as long as the heap has no more places than there are numbers. -/
theorem calls_restore_scopes (code : UserCode F I) (config : HeapConfig) :
    (∀ {past : List (HeapEvent F)} {w : HeapWorld F ω} (stack : List (Surroundings I ω)),
      (Heap.ofConfig config).Runs past w.heap →
        w.heap.markedRoots = .replay past ∧ w.CallsRestore code stack) ∧
    ∀ (stack : List (Surroundings I ω)) (w : HeapWorld F ω), w.ActsByLogs code stack := by
  refine ⟨fun {past w} stack hpast => ⟨hpast.markedRoots, ?_, ?_⟩,
    fun stack w => w.actsByLogs code stack⟩
  · intro f args
    have hscopes := HeapWorld.scopes_call code stack f args w
    exact ⟨hscopes, congrArg MarkedRoots.ofScopes hscopes⟩
  · intro f args function v hf hargs hvisits room
    exact hvisits.keepsCall hpast hf hargs room

/-! ## A call that panics after a nested call has failed

The outer function allocates an array, calls the inner one, which allocates an array and fails,
collects and panics. -/

namespace Nested

/-- What the outer function does before it panics. -/
def body (args : StateViews ObjRef) : HeapProgram Bool Echo.interface Unit := do
  let _ ← (HeapCommand.array [.zero]).ask
  let _ ← (HeapCommand.call ⟨0, 0⟩ args).ask
  discard HeapCommand.collect.ask

/-- The code of the inner function and of the outer one. -/
def code : UserCode Bool Echo.interface
  | false, _ => do
    let _ ← (HeapCommand.array [.one]).ask
    Program.fail (.userFailure "inner")
  | true, args => do
    body args
    Program.panic "outer"

/-- Defines both functions and an array. -/
def setUp : HeapProgram Bool Echo.interface Unit := do
  let inner ← (HeapCommand.function ⟨"inner", false⟩).ask
  let _ ← (HeapCommand.define "inner" inner).ask
  let outer ← (HeapCommand.function ⟨"outer", true⟩).ask
  let _ ← (HeapCommand.define "outer" outer).ask
  let x ← (HeapCommand.array []).ask
  discard (HeapCommand.define "x" x).ask

/-- The heap before anything was defined. -/
def start : HeapWorld Bool Unit := ⟨Heap.ofConfig .manual, {}, ()⟩

/-- The heap when the outer function is called. -/
def world : HeapWorld Bool Unit := start.perform Echo.surroundings (Runner.ofStack code []) setUp

/-- The outer function. -/
def outer : ObjRef := ⟨1, 0⟩

/-- The arguments of the call. -/
def args : StateViews ObjRef := ⟨⟨2, 0⟩, ⟨2, 0⟩, ⟨2, 0⟩⟩

/-- The levels of the machine, one for each function. -/
def stack : List (Surroundings Echo.interface Unit) := [Echo.surroundings, Echo.surroundings]

/-- The heap in the outer function before it panics. -/
def inside : HeapWorld Bool Unit :=
  (world.update Heap.openScope).perform Echo.surroundings (Runner.ofStack code [Echo.surroundings])
    (body args)

end Nested

/-- The call panics and leaves no scope; before that the collection has kept what the outer
function has allocated, and nothing of the inner one. -/
theorem calls_restore_scopes_nested :
    ((HeapWorld.call (Runner.ofStack Nested.code Nested.stack) Nested.outer Nested.args).start
      Nested.world).1 = .error (.panic "outer") ∧
    ((HeapWorld.call (Runner.ofStack Nested.code Nested.stack) Nested.outer Nested.args).start
      Nested.world).2.heap.markedRoots = {} ∧
    Nested.inside.heap.markedRoots = ⟨[⟨3, 0⟩], [0]⟩ ∧
    Nested.inside.heap.isLive ⟨3, 0⟩ ∧ Nested.inside.heap.isLive ⟨4, 0⟩ = false ∧
    ∃ log, Nested.world.heap.Runs (.enter :: log) Nested.inside.heap ∧
      Nested.world.KeepsCall log Nested.inside := by
  obtain ⟨hrestore, hacts⟩ := calls_restore_scopes (ω := Unit) Nested.code .manual
  have hbuilt : (Heap.ofConfig .manual).Runs
      (Nested.setUp.logOn Nested.code [Echo.surroundings] Nested.start) Nested.world.heap :=
    (hacts [] Nested.start).client Echo.surroundings Nested.setUp
  obtain ⟨-, hcalls⟩ := hrestore Nested.stack hbuilt
  have hnone : Nested.world.heap.markedRoots = {} := by decide +kernel
  have hvisits : Visits Nested.code Nested.stack (Nested.code true Nested.args)
      (Nested.world.update Heap.openScope) Nested.inside := by
    unfold Nested.inside HeapWorld.perform Nested.stack
    exact .first_part Nested.code Echo.surroundings [Echo.surroundings] (Nested.body Nested.args)
      (fun _ => Program.panic "outer") _
  have room : Nested.inside.heap.table.Addressable := by decide +kernel
  obtain ⟨function, houter, hcode⟩ : ∃ function,
      Nested.world.heap.function Nested.outer = .ok function ∧ function.code = true := by
    have hfound : (Nested.world.heap.function Nested.outer).toOption.map NativeFunction.code =
        some true := by decide +kernel
    cases hf : Nested.world.heap.function Nested.outer with
    | error e =>
      rw [hf] at hfound
      cases hfound
    | ok function =>
      rw [hf] at hfound
      exact ⟨function, rfl, Option.some.inj hfound⟩
  rw [← hcode] at hvisits
  have hargs : ∀ arg ∈ Nested.args.toList, Nested.world.heap.isLive arg := by decide +kernel
  obtain ⟨log, -, hruns, hkeeps⟩ := hcalls.during houter hargs hvisits room
  refine ⟨by decide +kernel, ?_, by decide +kernel, by decide +kernel, by decide +kernel, log,
    hruns, hkeeps⟩
  rw [← hnone]
  exact (hcalls.ended Nested.outer Nested.args).2

end CallbackBridge
