/-
# Which calls are in progress

A heap keeps for each call in progress what was allocated while that call was the innermost
one.  A log tells the same by itself: a call is in progress if it has begun and what follows
does not end it, and it is the innermost one where every call has ended that has begun inside
it.

* `HeapEvent.nesting` counts the calls that a part of a log leaves in progress.
* `HeapEvent.AllocatedIn` says that a reference was allocated directly in a call that is still
  in progress, in terms of a log alone.
* `Heap.Runs.mem_scopes_iff` is the result: this is what the heap keeps.
-/
import CallbackBridge.Proofs.IdealHeap
import Mathlib.Data.List.Induction
namespace CallbackBridge

variable {F : Type}

/-! ## Nesting -/

namespace HeapEvent

/-- The number of calls in progress after one more event, of those that have begun in a part of
a log; nothing once a call has ended that had begun before. -/
def nest (depth : Option Nat) : HeapEvent F → Option Nat
  | .enter => depth.map (· + 1)
  | .leave =>
    match depth with
    | some (outer + 1) => some outer
    | _ => none
  | _ => depth

/-- The number of calls in progress, of those that have begun in a part of a log; nothing if a
call has ended in it that had begun before. -/
def nesting (log : List (HeapEvent F)) : Option Nat := log.foldl nest (some 0)

/-- The log is in a call, with the given number of calls inside it in progress. -/
def InCall (log : List (HeapEvent F)) (depth : Nat) : Prop :=
  ∃ before within, log = before ++ .enter :: within ∧ nesting within = some depth

/-- The reference was allocated when a call was the innermost one that is still in progress, with
the given number of calls inside it. -/
def AllocatedIn (log : List (HeapEvent F)) (depth : Nat) (r : ObjRef) : Prop :=
  ∃ before within made after, log = before ++ .enter :: (within ++ .alloc made r :: after) ∧
    nesting within = some 0 ∧ nesting after = some depth

variable {log : List (HeapEvent F)} {event : HeapEvent F} {depth : Nat} {r : ObjRef}

theorem nesting_concat (log : List (HeapEvent F)) (event : HeapEvent F) :
    nesting (log ++ [event]) = nest (nesting log) event := by
  unfold nesting
  rw [List.foldl_concat]

/-- A call that had begun before ends for good. -/
theorem nest_eq_some_iff {part : Option Nat} :
    nest part event = some depth ↔
      ∃ inner, part = some inner ∧ nest (some inner) event = some depth := by
  cases part with
  | some inner => simp
  | none => cases event <;> simp [nest]

/-- A longer log is split at its last event or before. -/
theorem concat_eq_iff {before within : List (HeapEvent F)} {first : HeapEvent F} :
    log ++ [event] = before ++ first :: within ↔
      (within = [] ∧ log = before ∧ event = first) ∨
        ∃ part, within = part ++ [event] ∧ log = before ++ first :: part := by
  rcases List.eq_nil_or_concat within with rfl | ⟨part, last, rfl⟩
  · simp
  · rw [List.concat_eq_append, ← List.cons_append, ← List.append_assoc, List.append_singleton_inj]
    constructor
    · rintro ⟨rfl, rfl⟩
      exact Or.inr ⟨part, rfl, rfl⟩
    · rintro (⟨hnil, -⟩ | ⟨part', hpart, rfl⟩)
      · simp at hnil
      · obtain ⟨rfl, rfl⟩ := List.append_singleton_inj.mp hpart
        exact ⟨rfl, rfl⟩

/-- A log is in a call after one more event if that begins the call, or if it was in the call
before. -/
theorem inCall_concat_iff : InCall (log ++ [event]) depth ↔
    (event = .enter ∧ depth = 0) ∨
      ∃ inner, InCall log inner ∧ nest (some inner) event = some depth := by
  constructor
  · rintro ⟨before, within, hlog, hdepth⟩
    rcases concat_eq_iff.mp hlog with ⟨rfl, -, rfl⟩ | ⟨part, rfl, rfl⟩
    · exact Or.inl ⟨rfl, (Option.some_inj.mp hdepth).symm⟩
    · rw [nesting_concat, nest_eq_some_iff] at hdepth
      obtain ⟨inner, hinner, hevent⟩ := hdepth
      exact Or.inr ⟨inner, ⟨before, part, rfl, hinner⟩, hevent⟩
  · rintro (⟨rfl, rfl⟩ | ⟨inner, ⟨before, within, rfl, hinner⟩, hevent⟩)
    · exact ⟨log, [], rfl, rfl⟩
    · refine ⟨before, within ++ [event], by simp, ?_⟩
      rw [nesting_concat, hinner]
      exact hevent

/-- A reference was allocated in a call after one more event if that allocates it in the innermost
call, or if it was allocated before. -/
theorem allocatedIn_concat_iff : AllocatedIn (log ++ [event]) depth r ↔
    ((∃ made, event = .alloc made r) ∧ depth = 0 ∧ InCall log 0) ∨
      ∃ inner, AllocatedIn log inner r ∧ nest (some inner) event = some depth := by
  constructor
  · rintro ⟨before, within, made, after, hlog, hwithin, hdepth⟩
    rw [← List.cons_append, ← List.append_assoc] at hlog
    rcases concat_eq_iff.mp hlog with ⟨rfl, rfl, rfl⟩ | ⟨part, rfl, rfl⟩
    · exact Or.inl ⟨⟨made, rfl⟩, (Option.some_inj.mp hdepth).symm, before, within, rfl, hwithin⟩
    · rw [nesting_concat, nest_eq_some_iff] at hdepth
      obtain ⟨inner, hinner, hevent⟩ := hdepth
      exact Or.inr ⟨inner, ⟨before, within, made, part, by simp, hwithin, hinner⟩, hevent⟩
  · rintro (⟨⟨made, rfl⟩, rfl, before, within, rfl, hwithin⟩ |
      ⟨inner, ⟨before, within, made, after, rfl, hwithin, hinner⟩, hevent⟩)
    · exact ⟨before, within, made, [], by simp, hwithin, rfl⟩
    · refine ⟨before, within, made, after ++ [event], by simp, hwithin, ?_⟩
      rw [nesting_concat, hinner]
      exact hevent

/-- The reference was allocated while a call that is still in progress was the innermost one. -/
def AllocatedInOpenCall (log : List (HeapEvent F)) (r : ObjRef) : Prop :=
  ∃ depth, AllocatedIn log depth r

end HeapEvent

/-! ## What the heap keeps for calls -/

open HeapEvent

variable {config : HeapConfig} {log : List (HeapEvent F)} {depth : Nat} {r : ObjRef}

/-- Only allocations and the beginnings and ends of calls change what is kept for calls. -/
theorem IdealHeap.scopes_apply (ideal : IdealHeap F) (event : HeapEvent F) :
    (ideal.apply event).scopes =
      match event with
      | .alloc _ r =>
        match ideal.scopes with
        | [] => []
        | innermost :: outer => (r :: innermost) :: outer
      | .enter => [] :: ideal.scopes
      | .leave => ideal.scopes.tail
      | _ => ideal.scopes := by
  cases event with
  | alloc made r =>
    have hprepare : ideal.prepare.scopes = ideal.scopes := by
      unfold prepare
      dsimp only
      split <;> rfl
    exact congrArg (fun scopes : List (List ObjRef) =>
      match scopes with
      | [] => []
      | innermost :: outer => (r :: innermost) :: outer) hprepare
  | _ => rfl

/-- The ideal heap keeps something for each call in progress, and for each what was allocated in
it. -/
theorem IdealHeap.scopes_replay (config : HeapConfig) (log : List (HeapEvent F)) :
    (∀ depth, depth < ((ofConfig config).replay log).scopes.length ↔ InCall log depth) ∧
      ∀ depth r, (∃ frame, ((ofConfig config).replay log).scopes[depth]? = some frame ∧
        r ∈ frame) ↔ AllocatedIn log depth r := by
  induction log using List.reverseRecOn with
  | nil => simp [IdealHeap.replay, IdealHeap.ofConfig, InCall, AllocatedIn]
  | append_singleton log event ih =>
    have hreplay : ((ofConfig config : IdealHeap F).replay (log ++ [event])) =
        ((ofConfig config).replay log).apply event := by
      unfold replay
      rw [List.foldl_concat]
    obtain ⟨hlength, hframes⟩ := ih
    rw [hreplay, scopes_apply]
    generalize ((ofConfig config : IdealHeap F).replay log).scopes = scopes at hlength hframes
    simp only [inCall_concat_iff, allocatedIn_concat_iff, ← hlength, ← hframes]
    cases event with
    | alloc made q =>
      cases scopes with
      | nil => simp [nest]
      | cons innermost outer =>
        refine ⟨by simp [nest], fun depth r => ?_⟩
        cases depth with
        | zero => simp [nest, eq_comm]
        | succ depth => simp [nest]
    | enter =>
      refine ⟨fun depth => ?_, fun depth r => ?_⟩ <;> cases depth <;> simp [nest]
    | leave =>
      have hleave : ∀ inner depth, nest (some inner) (.leave : HeapEvent F) = some depth ↔
          inner = depth + 1 := by
        intro inner depth
        cases inner <;> simp [nest, eq_comm]
      refine ⟨fun depth => ?_, fun depth r => by simp [hleave]⟩
      simp only [hleave, exists_eq_right, List.length_tail, reduceCtorEq, false_and, false_or]
      omega
    | _ => simp [nest]

/-- **What a heap keeps for calls in progress is what was allocated in them**, each time in the
innermost one. -/
theorem Heap.Runs.mem_scopes_iff {h : Heap F} (hruns : (Heap.ofConfig config).Runs log h)
    (room : h.table.Addressable) :
    r ∈ h.scopes.flatten ↔ AllocatedInOpenCall log r := by
  have hscopes := ((Heap.Realizes.ofConfig config).replay hruns room).scopes
  rw [← hscopes, List.mem_flatten]
  unfold AllocatedInOpenCall
  simp only [← (IdealHeap.scopes_replay config log).2]
  constructor
  · rintro ⟨frame, hframe, hr⟩
    obtain ⟨depth, hdepth⟩ := List.mem_iff_getElem?.mp hframe
    exact ⟨depth, frame, hdepth, hr⟩
  · rintro ⟨depth, frame, hdepth, hr⟩
    exact ⟨frame, List.mem_of_getElem? hdepth, hr⟩

end CallbackBridge
