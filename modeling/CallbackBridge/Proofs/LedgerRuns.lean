/-
# What a run of the ledger leads to

* `RefLedger.history` is the log of a run, and `RefLedger.Recorded` what a ledger has to do with its
  log.  Each call keeps it (`RefLedger.Recorded.does`).
* `RefLedger.record_about` says that in a run each address is served as if it were alone.
* `RefLedger.DerivesFromViews` says that results are derived from tracked views only.  Then nothing
  is left of the earlier views at an address but pins, and `RefLedger.ledger_conduct` is what such a
  run leads to.
* The reference-counting host keeps to that in every invocation (`Engine.derivesFromViews`).
-/
import CallbackBridge.Proofs.Bookkeeping
import CallbackBridge.Proofs.LedgerAccounts
import CallbackBridge.Proofs.UserLevels
namespace CallbackBridge

variable {α : Type} [DecidableEq α]

/-! ## Runs -/

namespace RefLedger

open LedgerEvent

variable {l l' : RefLedger α} {log : List (LedgerEvent α)} {calls : List (LedgerCall α)}
  {view : α}

/-- The ledger after some calls. -/
def replay (l : RefLedger α) (calls : List (LedgerCall α)) : RefLedger α :=
  calls.foldl (fun l call => (l.perform call).2) l

/-- The calls with the answers that the ledger gives to them. -/
def record (l : RefLedger α) : List (LedgerCall α) → List (LedgerEvent α)
  | [] => []
  | call :: calls => ⟨call, (l.perform call).1⟩ :: (l.perform call).2.record calls

/-- The ledger of a run: it is empty at first. -/
def after (calls : List (LedgerCall α)) : RefLedger α := replay {} calls

/-- The log of a run. -/
def history (calls : List (LedgerCall α)) : List (LedgerEvent α) := record {} calls

theorem record_concat (l : RefLedger α) (calls : List (LedgerCall α)) (call : LedgerCall α) :
    l.record (calls ++ [call]) = l.record calls ++ [⟨call, ((l.replay calls).perform call).1⟩] := by
  induction calls generalizing l with
  | nil => rfl
  | cons first calls ih =>
    rw [List.cons_append, record, record, ih, List.cons_append]
    rfl

theorem history_concat (calls : List (LedgerCall α)) (call : LedgerCall α) :
    history (calls ++ [call]) = history calls ++ [⟨call, ((after calls).perform call).1⟩] :=
  record_concat {} calls call

theorem after_concat (calls : List (LedgerCall α)) (call : LedgerCall α) :
    after (calls ++ [call]) = ((after calls).perform call).2 := by
  unfold after replay
  rw [List.foldl_append]
  rfl

/-- There are entries only for what has pins, and for what results were derived from. -/
structure Positive (l : RefLedger α) : Prop where
  /-- Each entry for pins counts some. -/
  pins : l.pins.Positive
  /-- Each entry for derived results counts some. -/
  derived : l.derived.Positive

/-- Every call keeps to that. -/
theorem Positive.perform (h : l.Positive) (call : LedgerCall α) : (l.perform call).2.Positive := by
  cases call with
  | trackView view role => exact ⟨h.pins, h.derived⟩
  | derive view => exact ⟨h.pins, h.derived.increment view⟩
  | pin value => exact ⟨h.pins.increment value, h.derived⟩
  | unpin value =>
    show (l.unpin value).2.Positive
    unfold unpin
    split
    · next pins hpins => exact ⟨h.pins.decrement? hpins, h.derived⟩
    · exact h
  | retire view held =>
    show (l.retire view held).2.Positive
    unfold retire
    split
    · exact h
    · exact ⟨h.pins, h.derived.erase view⟩

/-- What a ledger has to do with its log. -/
structure Recorded (log : List (LedgerEvent α)) (l : RefLedger α) : Prop where
  /-- The tables say of each address what the log says of it: how many of its pins have not ended,
  what it was last tracked as since it was last retired, and how many results were derived from it
  since then. -/
  account : ∀ a, l.account a = LedgerEvent.account log a
  /-- Only pins that there were have ended. -/
  paired : ∀ a, unpinnings log a ≤ pinnings log a
  /-- What has no pins any more has no entry for them, and what has nothing derived has none. -/
  positive : l.Positive

namespace Recorded

/-- The record of an empty ledger. -/
theorem empty : Recorded [] ({} : RefLedger α) where
  account _ := rfl
  paired _ := Nat.le_refl _
  positive := ⟨Tally.positive_empty, Tally.positive_empty⟩

/-- The record of one more call. -/
theorem does (h : Recorded log l) (call : LedgerCall α) :
    Recorded (log ++ [⟨call, (l.perform call).1⟩]) (l.perform call).2 := by
  rw [answer_perform, h.account]
  refine ⟨fun a => ?_, fun a => paired_concat (h.paired a) call, h.positive.perform call⟩
  rw [account_perform, h.account]
  split
  · next hself =>
    subst hself
    exact (account_concat_self (h.paired _) rfl).symm
  · next hother => exact (account_concat_of_ne hother).symm

/-- The log of every run is on record. -/
theorem of_run (calls : List (LedgerCall α)) : Recorded (history calls) (after calls) := by
  induction calls using List.reverseRecOn with
  | nil => exact empty
  | append_singleton calls call ih =>
    rw [history_concat, after_concat]
    exact ih.does call

end Recorded

/-! ## Results that are derived from tracked views -/

/-- A result may be derived from a view that is tracked.  Anything else may be asked at any time. -/
def Allows (log : List (LedgerEvent α)) : LedgerCall α → Prop
  | .derive view => (lastRole log view).isSome
  | _ => True

instance (log : List (LedgerEvent α)) : (call : LedgerCall α) → Decidable (Allows log call)
  | .derive view => inferInstanceAs (Decidable ((lastRole log view).isSome = true))
  | .trackView _ _ => .isTrue trivial
  | .pin _ => .isTrue trivial
  | .unpin _ => .isTrue trivial
  | .retire _ _ => .isTrue trivial

/-- In a run results are derived only from views that are tracked at that time. -/
def DerivesFromViews (calls : List (LedgerCall α)) : Prop :=
  ∀ k, ∀ h : k < calls.length, Allows (history (calls.take k)) calls[k]

instance (calls : List (LedgerCall α)) : Decidable (DerivesFromViews calls) :=
  inferInstanceAs
    (Decidable (∀ k, ∀ h : k < calls.length, Allows (history (calls.take k)) calls[k]))

theorem derivesFromViews_concat {call : LedgerCall α} :
    DerivesFromViews (calls ++ [call]) ↔ DerivesFromViews calls ∧ Allows (history calls) call := by
  constructor
  · intro h
    constructor
    · intro k hk
      have hlater : k < (calls ++ [call]).length := by
        rw [List.length_append]
        exact Nat.lt_add_right _ hk
      have hallows := h k hlater
      rwa [List.take_append_of_le_length (Nat.le_of_lt hk), List.getElem_append_left hk]
        at hallows
    · have hallows := h calls.length (by simp)
      simpa using hallows
  · rintro ⟨h, hlast⟩ k hk
    rcases Nat.lt_or_ge k calls.length with hlt | hge
    · rw [List.take_append_of_le_length (Nat.le_of_lt hlt), List.getElem_append_left hlt]
      exact h k hlt
    · have hend : k = calls.length := by
        rw [List.length_append, List.length_singleton] at hk
        omega
      subst hend
      simpa using hlast

/-- The log tells which addresses are those of views. -/
theorem Recorded.isView_iff (h : Recorded log l) :
    l.isView view = true ↔ (lastRole log view).isSome = true := by
  have hrole : (l.account view).role = lastRole log view := congrArg _ (h.account view)
  rw [← hrole]
  rfl

/-- What the log says of an address after one more call. -/
theorem account_history_concat (calls : List (LedgerCall α)) (call : LedgerCall α) (a : α) :
    LedgerEvent.account (history (calls ++ [call])) a =
      if a = call.address then ((LedgerEvent.account (history calls) a).perform call).2
      else LedgerEvent.account (history calls) a := by
  rw [← (Recorded.of_run (calls ++ [call])).account, after_concat, account_perform,
    (Recorded.of_run calls).account]

/-- From an address that is not tracked nothing is derived: what was derived from earlier views
there is forgotten. -/
theorem derivations_eq_zero (h : DerivesFromViews calls)
    (hnone : lastRole (history calls) view = none) : derivations (history calls) view = 0 := by
  -- the account of the address is followed through the run
  suffices haccount : (LedgerEvent.account (history calls) view).role = none →
      (LedgerEvent.account (history calls) view).derived = 0 from haccount hnone
  clear hnone
  induction calls using List.reverseRecOn with
  | nil => exact fun _ => rfl
  | append_singleton calls call ih =>
    obtain ⟨hbefore, hallows⟩ := derivesFromViews_concat.mp h
    rw [account_history_concat]
    split
    · next hself =>
      subst hself
      refine LedgerAccount.derived_perform (ih hbefore) call ?_
      rintro view rfl hnone
      have hsome : (lastRole (history calls) view).isSome = true := hallows
      rw [show lastRole (history calls) view = none from hnone] at hsome
      cases hsome
    · exact ih hbefore

/-! ## Each address by itself -/

/-- What happens at one address, whatever happens at the others: two ledgers that say the same of it
answer the same calls about it alike. -/
theorem record_about (h : l.account view = l'.account view) (calls : List (LedgerCall α)) :
    (l.record calls).filter (fun event => event.call.address = view) =
      l'.record (calls.filter fun call => call.address = view) := by
  induction calls generalizing l l' with
  | nil => rfl
  | cons call calls ih =>
    by_cases hself : call.address = view
    · have hanswer : (l.perform call).1 = (l'.perform call).1 := by
        rw [answer_perform, answer_perform, hself, h]
      have hnext : (l.perform call).2.account view = (l'.perform call).2.account view := by
        rw [account_perform, account_perform, h]
      rw [record, List.filter_cons_of_pos (by simpa using hself),
        List.filter_cons_of_pos (by simpa using hself), record, ih hnext, hanswer]
    · have hnext : (l.perform call).2.account view = l'.account view := by
        rw [account_perform, if_neg (Ne.symm hself), h]
      rw [record, List.filter_cons_of_neg (by simpa using hself),
        List.filter_cons_of_neg (by simpa using hself), ih hnext]

/-- An address that has only been pinned. -/
theorem account_after_pins (view : α) (n : Nat) :
    (after (List.replicate n (.pin view))).account view = { pins := n } := by
  induction n with
  | zero => rfl
  | succ n ih =>
    rw [List.replicate_succ', after_concat]
    show ((after _).pin view).account view = _
    rw [account_pin, if_pos rfl, ih]

/-- An address that is not tracked is left with its pins. -/
theorem account_of_untracked (h : DerivesFromViews calls)
    (hnone : lastRole (history calls) view = none) :
    (after calls).account view = { pins := outstanding (history calls) view } := by
  rw [(Recorded.of_run calls).account]
  unfold LedgerEvent.account
  rw [hnone, derivations_eq_zero h hnone]

/-! ## What a run leads to -/

/-- What some calls have led to. -/
structure Conducted (calls : List (LedgerCall α)) : Prop
    extends Recorded (history calls) (after calls) where
  /-- A pin is found if the value was pinned more often than pins of it have ended. -/
  unpin_iff : ∀ value, ((after calls).unpin value).1 = true ↔
    unpinnings (history calls) value < pinnings (history calls) value
  /-- Then this value counts one pin less, and nothing else changes. -/
  unpin_found : ∀ value, ((after calls).unpin value).1 = true → ∀ other,
    ((after calls).unpin value).2.account other =
      if other = value then
        { (after calls).account other with pins := ((after calls).account other).pins - 1 }
      else (after calls).account other
  /-- Otherwise nothing changes. -/
  unpin_missed : ∀ value, ((after calls).unpin value).1 = false →
    ((after calls).unpin value).2 = after calls
  /-- Nothing happens to an address that is not tracked when it is retired. -/
  retire_missed : ∀ view held, lastRole (history calls) view = none →
    (after calls).retire view held = (none, after calls)
  /-- A view that is tracked is forgotten, except for its pins.  Of the references held, one is
  accounted for, and one more for each pin that has not ended and for each result derived from the
  view since it was last retired. -/
  retire_found : ∀ view held role, lastRole (history calls) view = some role →
    ((after calls).retire view held).1 = some (role, held -
        (1 + outstanding (history calls) view + derivations (history calls) view)) ∧
      ∀ other, ((after calls).retire view held).2.account other =
        if other = view then { pins := ((after calls).account other).pins }
        else (after calls).account other
  /-- The ledger tells from which addresses results may be derived. -/
  isView_iff : ∀ view, (after calls).isView view = true ↔
    DerivesFromViews (calls ++ [.derive view])
  /-- Nothing that was derived from an earlier view at an address is still counted. -/
  derivations_zero : ∀ view, lastRole (history calls) view = none →
    derivations (history calls) view = 0
  /-- For its later views an address is served as if it were alone, and as if nothing had been done
  before but to make the pins that have not ended. -/
  lives : ∀ view, lastRole (history calls) view = none → ∀ later : List (LedgerCall α),
    ((after calls).record later).filter (fun event => event.call.address = view) =
      (after (List.replicate (outstanding (history calls) view) (.pin view))).record
        (later.filter fun call => call.address = view)

/-- **What a run of the ledger leads to.**  A pin can be undone as long as more pins were made than
undone.  When a view is retired, its pins and the results derived from it are accounted for, and of
the earlier views at its address nothing counts but pins that have not ended.  Addresses may be used
again any number of times. -/
theorem ledger_conduct (h : DerivesFromViews calls) : Conducted calls := by
  have hrecorded := Recorded.of_run calls
  have hpins : ∀ a, ((after calls).account a).pins = outstanding (history calls) a := by
    intro a
    rw [hrecorded.account]
    rfl
  have hrole : ∀ a, ((after calls).account a).role = lastRole (history calls) a := by
    intro a
    rw [hrecorded.account]
    rfl
  constructor
  case toRecorded => exact hrecorded
  case unpin_iff =>
    intro value
    rw [← Nat.sub_pos_iff_lt]
    change _ ↔ 0 < outstanding (history calls) value
    rw [← hpins]
    by_cases hpos : 0 < ((after calls).account value).pins
    · exact iff_of_true (unpin_of_pos hpos).1 hpos
    · rw [unpin_of_not_pos hpos]
      exact iff_of_false Bool.false_ne_true hpos
  case unpin_found =>
    intro value hfound other
    have hpos : 0 < ((after calls).account value).pins := by
      by_contra hnot
      rw [unpin_of_not_pos hnot] at hfound
      cases hfound
    exact (unpin_of_pos hpos).2 other
  case unpin_missed =>
    intro value hmissed
    by_cases hpos : 0 < ((after calls).account value).pins
    · rw [(unpin_of_pos hpos).1] at hmissed
      cases hmissed
    · rw [unpin_of_not_pos hpos]
  case retire_missed =>
    intro view held hnone
    exact retire_of_none ((hrole view).trans hnone) held
  case retire_found =>
    intro view held role hsome
    obtain ⟨hgiven, hleft⟩ := retire_of_some ((hrole view).trans hsome) held
    refine ⟨?_, hleft⟩
    rw [hgiven, hrecorded.account]
    rfl
  case isView_iff =>
    intro view
    rw [hrecorded.isView_iff, derivesFromViews_concat, and_iff_right h]
    rfl
  case derivations_zero => exact fun view hnone => derivations_eq_zero h hnone
  case lives =>
    intro view hnone later
    refine record_about ?_ later
    rw [account_of_untracked h hnone, account_after_pins]

/-- A view is pinned and a result derived from it, and after it is retired another view is tracked
at its address, of which the pin is still known and the result is not. -/
theorem ledger_conduct_reused :
    let calls : List (LedgerCall Nat) := [.trackView 16 .time, .pin 16, .derive 16, .retire 16 3,
      .trackView 16 .state]
    DerivesFromViews calls ∧ Conducted calls ∧
      ((after calls).retire 16 3).1 = some (.state, 1) := by
  intro calls
  have hderives : DerivesFromViews calls := by decide
  have hconducted : Conducted calls := ledger_conduct hderives
  refine ⟨hderives, hconducted, ?_⟩
  rw [(hconducted.retire_found 16 3 .state (by decide)).1]
  decide

end RefLedger

/-! ## The ledger of an invocation -/

namespace CountedWorld

open RefLedger

variable {F G : Type} {run : CallableRunner F G} {w w' : CountedWorld F G}
  {op : HostOperation ObjId ObjId}
  {moments : List (Moment (CountedWorld F G) ObjId ObjId)}

/-- A warning is no matter of the ledger. -/
theorem ledger_retire (view : ObjId) (w : CountedWorld F G) :
    (w.retire view).ledger = (w.ledger.retire view (w.refCount view)).2 := by
  unfold CountedWorld.retire
  rcases w.ledger.retire view (w.refCount view) with ⟨_ | ⟨role, extra⟩, ledger⟩
  · rfl
  · dsimp only
    split <;> rfl

theorem ledger_unpin (id : ObjId) (w : CountedWorld F G) :
    (w.unpin id).ledger = (w.ledger.unpin id).2 := by
  unfold CountedWorld.unpin
  rcases w.ledger.unpin id with ⟨_ | _, ledger⟩ <;> rfl

/-- The ledger has come about by calls that derive results from tracked views only. -/
def DerivesFromViews (w : CountedWorld F G) : Prop :=
  ∃ calls, RefLedger.DerivesFromViews calls ∧ w.ledger = after calls

namespace DerivesFromViews

/-- There may be one more call, if it may follow every log of the ledger. -/
theorem extend (h : w.DerivesFromViews) (call : LedgerCall ObjId)
    (hallows : ∀ log, RefLedger.Recorded log w.ledger → Allows log call)
    (hledger : w'.ledger = (w.ledger.perform call).2) : w'.DerivesFromViews := by
  obtain ⟨calls, hderives, hcalls⟩ := h
  have hrecorded : RefLedger.Recorded (history calls) w.ledger := hcalls ▸ .of_run calls
  refine ⟨calls ++ [call], derivesFromViews_concat.mpr ⟨hderives, hallows _ hrecorded⟩, ?_⟩
  rw [hledger, hcalls, after_concat]

/-- Nothing but the ledger counts. -/
theorem of_ledger_eq (h : w.DerivesFromViews) (hledger : w'.ledger = w.ledger) :
    w'.DerivesFromViews := by
  unfold DerivesFromViews
  rwa [hledger]

/-- A result is only noted if what it was derived from is a view. -/
theorem noteDerived (h : w.DerivesFromViews) (r : ObjId) : (w.noteDerived r).DerivesFromViews := by
  rw [noteDerived_eq]
  cases hsource : (w.store.base? r).filter w.ledger.isView with
  | none => exact h.of_ledger_eq rfl
  | some view =>
    have hview : w.ledger.isView view = true := (Option.filter_eq_some_iff.mp hsource).2
    exact h.extend (.derive view) (fun _ hrecorded => hrecorded.isView_iff.mp hview) rfl

/-- A call notes its result, if it has one. -/
theorem call (h : w.DerivesFromViews) (f : ObjId) (views : StateViews ObjId) :
    (CountedWorld.call run f views w).2.DerivesFromViews := by
  unfold CountedWorld.call
  split
  · split
    · next r p _ =>
      have hp : CountedWorld.DerivesFromViews { w with process := p } := h.of_ledger_eq rfl
      exact hp.noteDerived r
    · exact h.of_ledger_eq rfl
    · exact h.of_ledger_eq rfl
  · exact h

/-- Every operation of the host keeps to it. -/
theorem performs (h : w.DerivesFromViews) (hperforms : op.Performs (runtime run) w w') :
    w'.DerivesFromViews := by
  cases op with
  | materialize buffer made =>
    obtain rfl : (w.materialize buffer).2 = w' := congrArg Prod.snd hperforms
    exact h.extend (.trackView (w.materialize buffer).1 buffer.role) (fun _ _ => trivial) rfl
  | retire view =>
    obtain rfl : w.retire view = w' := hperforms
    exact h.extend (.retire view (w.refCount view)) (fun _ _ => trivial)
      (w.ledger_retire view)
  | pin id =>
    obtain rfl : w.pin id = w' := hperforms
    exact h.extend (.pin id) (fun _ _ => trivial) rfl
  | unpin id =>
    obtain rfl : w.unpin id = w' := hperforms
    exact h.extend (.unpin id) (fun _ _ => trivial) (w.ledger_unpin id)
  | release handle =>
    obtain rfl : w = w' := hperforms
    exact h
  | call f views called =>
    obtain rfl : (CountedWorld.call run f views w).2 = w' := congrArg Prod.snd hperforms
    exact h.call f views
  | _ =>
    obtain rfl : w = w' := congrArg Prod.snd hperforms
    exact h

/-- So do operations one after the other. -/
theorem of_chain (h : w.DerivesFromViews) (hchain : Chain (runtime run) w moments w') :
    ∀ moment ∈ moments, moment.before.DerivesFromViews ∧ moment.after.DerivesFromViews := by
  induction moments generalizing w with
  | nil => exact fun moment hmoment => nomatch hmoment
  | cons first rest ih =>
    obtain ⟨rfl, hperforms, hrest⟩ := hchain
    have hafter : first.after.DerivesFromViews := h.performs hperforms
    exact List.forall_mem_cons.mpr ⟨⟨h, hafter⟩, ih hafter hrest⟩

end DerivesFromViews

end CountedWorld

/-- **An invocation derives results from tracked views only.**  At all times its ledger is what such
calls lead to. -/
theorem Engine.derivesFromViews {F G : Type} (engine : Engine F G) (bridge : Bridge ObjId)
    (dict : Option ObjId) (entry : Entry) (windows : Windows) (p : Process F G) :
    ∀ moment ∈ engine.countedMoments bridge dict entry windows p,
      moment.before.DerivesFromViews ∧ moment.after.DerivesFromViews := by
  intro moment hmoment
  have hconducted := bridge.evaluate_traced (CountedWorld.runtime engine.callable) entry
    (windows.expose {}).1 { process := p, memory := (windows.expose {}).2, dict }
  refine CountedWorld.DerivesFromViews.of_chain ?_ hconducted.chain moment hmoment
  exact ⟨[], by decide, rfl⟩

end CallbackBridge
