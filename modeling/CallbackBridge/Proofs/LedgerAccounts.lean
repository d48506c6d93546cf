/-
# What a ledger says about single addresses

The ledger keeps three tables by address.  Their entries go at different moments, and an address
is used again for another object when its own is gone.

* `LedgerCall` is what can be asked of a ledger, and `LedgerAccount` what its tables say about one
  address.  A call is answered from the account of its own address and changes no other one
  (`RefLedger.answer_perform`, `RefLedger.account_perform`).
* `LedgerEvent` is a call with its answer.  From a log of events it can be read which pins there
  are, what was derived from a view and what the view was tracked as (`LedgerEvent.outstanding`,
  `LedgerEvent.derivations`, `LedgerEvent.lastRole`), and so a log gives an account, too.  If calls
  are answered from the account that the log gives, this changes as the account of a ledger does
  (`LedgerEvent.account_concat_self`, `LedgerEvent.account_concat_of_ne`).
-/
import Mathlib.Data.List.DropRight
import CallbackBridge.Proofs.Ledgers
namespace CallbackBridge

variable {α : Type}

/-! ## Calls and their log -/

/-- What can be asked of a ledger. -/
inductive LedgerCall (α : Type) where
  /-- To track a view. -/
  | trackView (view : α) (role : Role)
  /-- To note a result that was derived from a view. -/
  | derive (view : α)
  /-- To note a pin. -/
  | pin (value : α)
  /-- To note the end of a pin. -/
  | unpin (value : α)
  /-- To retire a view to which so many references are held. -/
  | retire (view : α) (held : Nat)
  deriving DecidableEq

/-- The address that a call is about. -/
def LedgerCall.address : LedgerCall α → α
  | trackView view _ => view
  | derive view => view
  | pin value => value
  | unpin value => value
  | retire view _ => view

/-- What a ledger answers. -/
inductive LedgerAnswer where
  /-- Nothing. -/
  | noted
  /-- Whether there was a pin. -/
  | unpinned (found : Bool)
  /-- The argument of the view and how many references are not accounted for, if it was tracked. -/
  | retired (found : Option (Role × Nat))
  deriving DecidableEq

/-- A call with its answer. -/
structure LedgerEvent (α : Type) where
  /-- The call. -/
  call : LedgerCall α
  /-- The answer. -/
  answer : LedgerAnswer
  deriving DecidableEq

/-! ## Accounts of single addresses -/

/-- What a ledger says about one address. -/
structure LedgerAccount where
  /-- How many pins there are. -/
  pins : Nat := 0
  /-- The argument, if the address is that of a view. -/
  role : Option Role := none
  /-- How many results were derived from the view. -/
  derived : Nat := 0
  deriving DecidableEq

/-- Answers a call about the address. -/
def LedgerAccount.perform (a : LedgerAccount) : LedgerCall α → LedgerAnswer × LedgerAccount
  | .trackView _ role => (.noted, { a with role := some role })
  | .derive _ => (.noted, { a with derived := a.derived + 1 })
  | .pin _ => (.noted, { a with pins := a.pins + 1 })
  | .unpin _ =>
    if 0 < a.pins then (.unpinned true, { a with pins := a.pins - 1 }) else (.unpinned false, a)
  | .retire _ held =>
    match a.role with
    | none => (.retired none, a)
    | some role => (.retired (some (role, held - (1 + a.pins + a.derived))), { pins := a.pins })

namespace LedgerAccount

variable {a : LedgerAccount}

theorem perform_unpin_of_pos (h : 0 < a.pins) (value : α) :
    a.perform (.unpin value) = (.unpinned true, { a with pins := a.pins - 1 }) := if_pos h

theorem perform_unpin_of_not_pos (h : ¬ 0 < a.pins) (value : α) :
    a.perform (.unpin value) = (.unpinned false, a) := if_neg h

theorem perform_retire_of_none (h : a.role = none) (view : α) (held : Nat) :
    a.perform (.retire view held) = (.retired none, a) := by
  unfold perform
  rw [h]

theorem perform_retire_of_some {role : Role} (h : a.role = some role) (view : α) (held : Nat) :
    a.perform (.retire view held) =
      (.retired (some (role, held - (1 + a.pins + a.derived))), { pins := a.pins }) := by
  unfold perform
  rw [h]

/-- As long as nothing is derived from what is no view, what is no view has nothing derived. -/
theorem derived_perform (h : a.role = none → a.derived = 0)
    (call : LedgerCall α) (hderive : ∀ view, call = .derive view → a.role ≠ none) :
    (a.perform call).2.role = none → (a.perform call).2.derived = 0 := by
  cases call with
  | trackView view role => exact fun hnone => nomatch hnone
  | derive view => exact fun hnone => absurd hnone (hderive view rfl)
  | pin value => exact h
  | unpin value =>
    by_cases hpos : 0 < a.pins
    · rw [perform_unpin_of_pos hpos]
      exact h
    · rw [perform_unpin_of_not_pos hpos]
      exact h
  | retire view held =>
    cases hrole : a.role with
    | none =>
      rw [perform_retire_of_none hrole]
      exact h
    | some role =>
      rw [perform_retire_of_some hrole]
      exact fun _ => rfl

end LedgerAccount

variable [DecidableEq α]

/-! ## Calls on a ledger -/

namespace RefLedger

/-- Answers a call. -/
def perform (l : RefLedger α) : LedgerCall α → LedgerAnswer × RefLedger α
  | .trackView view role => (.noted, l.trackView view role)
  | .derive view => (.noted, l.derive view)
  | .pin value => (.noted, l.pin value)
  | .unpin value => (.unpinned (l.unpin value).1, (l.unpin value).2)
  | .retire view held => (.retired (l.retire view held).1, (l.retire view held).2)

/-- The account of an address. -/
def account (l : RefLedger α) (address : α) : LedgerAccount :=
  ⟨l.pins.count address, l.views.lookup address, l.derived.count address⟩

variable {l l' : RefLedger α} {value view other : α} {role : Role} {held : Nat}

theorem account_trackView (l : RefLedger α) (view : α) (role : Role) (other : α) :
    (l.trackView view role).account other =
      if other = view then { l.account other with role := some role } else l.account other := by
  show LedgerAccount.mk (l.pins.count other)
    (((view, role) :: l.views.filter fun entry => entry.1 ≠ view).lookup other)
    (l.derived.count other) = _
  rw [lookup_cons_filter_ne]
  split <;> rfl

theorem account_derive (l : RefLedger α) (view other : α) :
    (l.derive view).account other =
      if other = view then { l.account other with derived := (l.account other).derived + 1 }
      else l.account other := by
  show LedgerAccount.mk _ _ ((l.derived.increment view).count other) = _
  rw [Tally.count_increment]
  split
  · next h =>
    subst h
    rfl
  · rfl

theorem account_pin (l : RefLedger α) (value other : α) :
    (l.pin value).account other =
      if other = value then { l.account other with pins := (l.account other).pins + 1 }
      else l.account other := by
  show LedgerAccount.mk ((l.pins.increment value).count other) _ _ = _
  rw [Tally.count_increment]
  split
  · next h =>
    subst h
    rfl
  · rfl

/-- What has no pin cannot be unpinned. -/
theorem unpin_of_not_pos (h : ¬ 0 < (l.account value).pins) : l.unpin value = (false, l) := by
  have hzero : l.pins.count value = 0 := Nat.eq_zero_of_not_pos h
  unfold unpin
  rw [Tally.decrement?_eq_none.mpr hzero]

/-- A pin that there is can be undone, and counts no more. -/
theorem unpin_of_pos (h : 0 < (l.account value).pins) :
    (l.unpin value).1 = true ∧ ∀ other, (l.unpin value).2.account other =
      if other = value then { l.account other with pins := (l.account other).pins - 1 }
      else l.account other := by
  obtain ⟨pins, hpins⟩ := Tally.exists_decrement? h
  have hunpin : l.unpin value = (true, { l with pins }) := by
    unfold unpin
    rw [hpins]
  rw [hunpin]
  refine ⟨rfl, fun other => ?_⟩
  show LedgerAccount.mk (pins.count other) _ _ = _
  rw [(Tally.count_decrement? hpins).2 other]
  split
  · next h =>
    subst h
    rfl
  · rfl

/-- What is not tracked cannot be retired. -/
theorem retire_of_none (h : (l.account view).role = none) (held : Nat) :
    l.retire view held = (none, l) := by
  have hlookup : l.views.lookup view = none := h
  unfold retire
  rw [hlookup]

/-- A view that is tracked is forgotten, but for its pins. -/
theorem retire_of_some (h : (l.account view).role = some role) (held : Nat) :
    (l.retire view held).1 =
        some (role, held - (1 + (l.account view).pins + (l.account view).derived)) ∧
      ∀ other, (l.retire view held).2.account other =
        if other = view then { pins := (l.account other).pins } else l.account other := by
  have hlookup : l.views.lookup view = some role := h
  unfold retire
  rw [hlookup]
  refine ⟨rfl, fun other => ?_⟩
  show LedgerAccount.mk (l.pins.count other)
    ((l.views.filter fun entry => entry.1 ≠ view).lookup other)
    ((l.derived.erase view).count other) = _
  rw [lookup_filter_ne, Tally.count_erase]
  split <;> rfl

/-- A call is answered from the account of its address. -/
theorem answer_perform (l : RefLedger α) (call : LedgerCall α) :
    (l.perform call).1 = ((l.account call.address).perform call).1 := by
  cases call with
  | trackView view role => rfl
  | derive view => rfl
  | pin value => rfl
  | unpin value =>
    show LedgerAnswer.unpinned (l.unpin value).1 = ((l.account value).perform (.unpin value)).1
    by_cases hpos : 0 < (l.account value).pins
    · rw [(unpin_of_pos hpos).1, LedgerAccount.perform_unpin_of_pos hpos]
    · rw [unpin_of_not_pos hpos, LedgerAccount.perform_unpin_of_not_pos hpos]
  | retire view held =>
    show LedgerAnswer.retired (l.retire view held).1 =
      ((l.account view).perform (.retire view held)).1
    cases hrole : (l.account view).role with
    | none => rw [retire_of_none hrole, LedgerAccount.perform_retire_of_none hrole]
    | some role =>
      rw [(retire_of_some hrole held).1, LedgerAccount.perform_retire_of_some hrole]

/-- A call changes the account of its address, and no other one. -/
theorem account_perform (l : RefLedger α) (call : LedgerCall α) (other : α) :
    (l.perform call).2.account other =
      if other = call.address then ((l.account other).perform call).2 else l.account other := by
  cases call with
  | trackView view role => exact l.account_trackView view role other
  | derive view => exact l.account_derive view other
  | pin value => exact l.account_pin value other
  | unpin value =>
    show (l.unpin value).2.account other =
      if other = value then ((l.account other).perform (.unpin value)).2 else l.account other
    by_cases hpos : 0 < (l.account value).pins
    · rw [(unpin_of_pos hpos).2 other]
      split
      · next h => rw [h, LedgerAccount.perform_unpin_of_pos hpos]
      · rfl
    · rw [unpin_of_not_pos hpos]
      split
      · next h => rw [h, LedgerAccount.perform_unpin_of_not_pos hpos]
      · rfl
  | retire view held =>
    show (l.retire view held).2.account other =
      if other = view then ((l.account other).perform (.retire view held)).2 else l.account other
    cases hrole : (l.account view).role with
    | none =>
      rw [retire_of_none hrole]
      split
      · next h => rw [h, LedgerAccount.perform_retire_of_none hrole]
      · rfl
    | some role =>
      rw [(retire_of_some hrole held).2 other]
      split
      · next h => rw [h, LedgerAccount.perform_retire_of_some hrole]
      · rfl

end RefLedger

/-! ## What can be read off a log -/

namespace LedgerEvent

/-- The value was pinned. -/
@[simp]
def pins (value : α) (event : LedgerEvent α) : Bool := event.call = .pin value

/-- A pin of the value has ended. -/
@[simp]
def unpins (value : α) (event : LedgerEvent α) : Bool := event = ⟨.unpin value, .unpinned true⟩

/-- A result was derived from the view. -/
@[simp]
def derives (view : α) (event : LedgerEvent α) : Bool := event.call = .derive view

/-- The view was retired, and had been tracked. -/
@[simp]
def forgets (view : α) : LedgerEvent α → Bool
  | ⟨.retire other _, .retired (some _)⟩ => other = view
  | _ => false

/-- What the view was tracked as. -/
@[simp]
def role? (view : α) : LedgerEvent α → Option Role
  | ⟨.trackView other role, _⟩ => if other = view then some role else none
  | _ => none

/-- How often a value was pinned. -/
def pinnings (log : List (LedgerEvent α)) (value : α) : Nat := log.countP (pins value)

/-- How often a pin of a value has ended. -/
def unpinnings (log : List (LedgerEvent α)) (value : α) : Nat := log.countP (unpins value)

/-- How many pins of a value have not ended. -/
def outstanding (log : List (LedgerEvent α)) (value : α) : Nat :=
  pinnings log value - unpinnings log value

/-- What has happened since a view was last retired, or from the beginning. -/
def sinceRetired (log : List (LedgerEvent α)) (view : α) : List (LedgerEvent α) :=
  log.rtakeWhile fun event => !event.forgets view

/-- How many results were derived from a view since it was last retired. -/
def derivations (log : List (LedgerEvent α)) (view : α) : Nat :=
  (sinceRetired log view).countP (derives view)

/-- What a view was last tracked as since it was last retired.  It is not tracked if there is
nothing. -/
def lastRole (log : List (LedgerEvent α)) (view : α) : Option Role :=
  ((sinceRetired log view).filterMap (role? view)).getLast?

section Later

variable (log : List (LedgerEvent α)) (event : LedgerEvent α) (a : α)

theorem pinnings_concat :
    pinnings (log ++ [event]) a = pinnings log a + if event.pins a then 1 else 0 := by
  unfold pinnings
  rw [List.countP_append, List.countP_singleton]

theorem unpinnings_concat :
    unpinnings (log ++ [event]) a = unpinnings log a + if event.unpins a then 1 else 0 := by
  unfold unpinnings
  rw [List.countP_append, List.countP_singleton]

theorem sinceRetired_concat :
    sinceRetired (log ++ [event]) a =
      if event.forgets a then [] else sinceRetired log a ++ [event] := by
  unfold sinceRetired
  rw [List.rtakeWhile_concat]
  cases event.forgets a <;> rfl

theorem derivations_concat :
    derivations (log ++ [event]) a =
      if event.forgets a then 0 else derivations log a + if event.derives a then 1 else 0 := by
  unfold derivations
  rw [sinceRetired_concat]
  split
  · rfl
  · rw [List.countP_append, List.countP_singleton]

theorem lastRole_concat :
    lastRole (log ++ [event]) a =
      if event.forgets a then none else (event.role? a).or (lastRole log a) := by
  have hlast : ([event].filterMap (role? a)).getLast? = event.role? a := by
    cases hrole : event.role? a with
    | none => rw [List.filterMap_cons_none hrole]; rfl
    | some role => rw [List.filterMap_cons_some hrole]; rfl
  unfold lastRole
  rw [sinceRetired_concat]
  split
  · rfl
  · rw [List.filterMap_append, List.getLast?_append, hlast]

end Later

variable {log : List (LedgerEvent α)} {event : LedgerEvent α} {a : α}

/-- What a log says about one address. -/
def account (log : List (LedgerEvent α)) (a : α) : LedgerAccount :=
  ⟨outstanding log a, lastRole log a, derivations log a⟩

/-- An event is about the address of its call only. -/
theorem silent_of_ne (h : a ≠ event.call.address) :
    event.pins a = false ∧ event.unpins a = false ∧ event.derives a = false ∧
      event.forgets a = false ∧ event.role? a = none := by
  obtain ⟨call, answer⟩ := event
  have hother : call.address ≠ a := Ne.symm h
  cases call with
  | retire view held => rcases answer with _ | _ | _ | _ <;> simp_all [LedgerCall.address]
  | _ => simp_all [LedgerCall.address]

/-- What one more event makes of the account. -/
theorem account_concat (log : List (LedgerEvent α)) (event : LedgerEvent α) (a : α) :
    account (log ++ [event]) a =
      { pins := (pinnings log a + if event.pins a then 1 else 0) -
          (unpinnings log a + if event.unpins a then 1 else 0)
        role := if event.forgets a then none else (event.role? a).or (lastRole log a)
        derived :=
          if event.forgets a then 0
          else derivations log a + if event.derives a then 1 else 0 } := by
  unfold account outstanding
  rw [pinnings_concat, unpinnings_concat, lastRole_concat, derivations_concat]

/-- What happens to other addresses does not count. -/
theorem account_concat_of_ne (h : a ≠ event.call.address) :
    account (log ++ [event]) a = account log a := by
  obtain ⟨hpins, hunpins, hderives, hforgets, hrole⟩ := silent_of_ne h
  rw [account_concat, hpins, hunpins, hderives, hforgets, hrole]
  rfl

/-- If a call is answered from the account that the log gives, the log gives the new account. -/
theorem account_concat_self (hpaired : unpinnings log a ≤ pinnings log a) {call : LedgerCall α}
    (ha : call.address = a) :
    account (log ++ [⟨call, ((account log a).perform call).1⟩]) a =
      ((account log a).perform call).2 := by
  cases call with
  | trackView view role =>
    obtain rfl : view = a := ha
    rw [account_concat]
    simp [LedgerAccount.perform, account, outstanding]
  | derive view =>
    obtain rfl : view = a := ha
    rw [account_concat]
    simp [LedgerAccount.perform, account, outstanding]
  | pin value =>
    obtain rfl : value = a := ha
    have hpins : pinnings log value + 1 - unpinnings log value =
        pinnings log value - unpinnings log value + 1 := Nat.sub_add_comm hpaired
    rw [account_concat]
    simp [LedgerAccount.perform, account, outstanding, hpins]
  | unpin value =>
    obtain rfl : value = a := ha
    by_cases hpos : 0 < (account log value).pins
    · rw [LedgerAccount.perform_unpin_of_pos hpos, account_concat]
      simp [account, outstanding, Nat.sub_sub]
    · rw [LedgerAccount.perform_unpin_of_not_pos hpos, account_concat]
      simp [account, outstanding]
  | retire view held =>
    obtain rfl : view = a := ha
    cases hrole : (account log view).role with
    | none =>
      rw [LedgerAccount.perform_retire_of_none hrole, account_concat]
      simp [account, outstanding]
    | some role =>
      rw [LedgerAccount.perform_retire_of_some hrole, account_concat]
      simp [account, outstanding]

/-- If every call is answered so, no more pins end than there are. -/
theorem paired_concat (hpaired : unpinnings log a ≤ pinnings log a) (call : LedgerCall α) :
    unpinnings (log ++ [⟨call, ((account log call.address).perform call).1⟩]) a ≤
      pinnings (log ++ [⟨call, ((account log call.address).perform call).1⟩]) a := by
  rw [pinnings_concat, unpinnings_concat]
  cases hends : unpins a ⟨call, ((account log call.address).perform call).1⟩ with
  | false =>
    rw [if_neg Bool.false_ne_true]
    exact Nat.le_add_right_of_le hpaired
  | true =>
    obtain ⟨rfl, hanswer⟩ := LedgerEvent.mk.inj (of_decide_eq_true hends)
    have hpos : 0 < (account log a).pins := by
      by_contra hnot
      change ((account log a).perform (.unpin a)).1 = .unpinned true at hanswer
      rw [LedgerAccount.perform_unpin_of_not_pos hnot] at hanswer
      cases hanswer
    have hlt : unpinnings log a < pinnings log a := Nat.lt_of_sub_pos hpos
    rw [if_pos rfl]
    exact Nat.le_add_right_of_le hlt

end LedgerEvent

end CallbackBridge
