/-
# Object table

A table hands out references made of a slot and a generation.  Freeing a slot moves
it to the next generation, so an old reference never leads to the object that took
the slot over.  Free slots are taken again in the opposite order of their freeing;
a slot whose generations are used up is not taken again.
-/
import Std.Data.TreeSet.Lemmas
namespace CallbackBridge

/-! ## References -/

/-- A reference to an object of a table. -/
structure ObjRef where
  /-- The place in the table. -/
  slot : UInt32
  /-- How often the place had been freed when the reference was made. -/
  generation : UInt32
  deriving DecidableEq, Repr, Inhabited

namespace ObjRef

/-- The written form: slot and generation. -/
def text (r : ObjRef) : String :=
  "#" ++ toString r.slot.toNat ++ "." ++ toString r.generation.toNat

/-- The reference as one word, the slot in the upper half. -/
def toRaw (r : ObjRef) : UInt64 := r.slot.toUInt64 <<< 32 ||| r.generation.toUInt64

/-- References in the order of their slots, and of generations within a slot. -/
instance : Ord ObjRef := ⟨compareLex (compareOn ObjRef.slot) (compareOn ObjRef.generation)⟩

instance : Std.TransOrd ObjRef :=
  inferInstanceAs <|
    Std.TransCmp (compareLex (compareOn ObjRef.slot) (compareOn ObjRef.generation))

instance : Std.LawfulEqOrd ObjRef where
  eq_of_compare {a b} h := by
    change (compareOn slot a b).then (compareOn generation a b) = .eq at h
    rw [Ordering.then_eq_eq] at h
    cases a
    cases b
    simpa [compareOn] using h

end ObjRef

/-! ## Tables -/

/-- A place for one object. -/
structure Slot (α : Type) where
  /-- How often the place has been freed. -/
  generation : UInt32
  /-- The object, if the place is taken. -/
  data : Option α
  deriving Repr, Inhabited

/-- A table of objects. -/
structure Table (α : Type) where
  /-- All places ever made. -/
  slots : List (Slot α) := []
  /-- The free places, the one to take next first. -/
  free : List UInt32 := []
  /-- The number of taken places. -/
  live : Nat := 0
  deriving Inhabited

namespace Table

variable {α : Type}

/-- The object that a reference leads to, if it is still there. -/
def get? (t : Table α) (r : ObjRef) : Option α :=
  match t.slots[r.slot.toNat]? with
  | none => none
  | some slot => if slot.generation = r.generation then slot.data else none

/-- Puts an object into the table. -/
def insert (t : Table α) (value : α) : ObjRef × Table α :=
  match t.free with
  | slot :: free =>
    let generation := ((t.slots[slot.toNat]?).map Slot.generation).getD 0
    (⟨slot, generation⟩,
      { slots := t.slots.set slot.toNat ⟨generation, some value⟩, free, live := t.live + 1 })
  | [] =>
    (⟨UInt32.ofNat t.slots.length, 0⟩,
      { t with slots := t.slots ++ [⟨0, some value⟩], live := t.live + 1 })

/-- Changes the object that a reference leads to; nothing happens if it is gone. -/
def modify (t : Table α) (r : ObjRef) (f : α → α) : Table α :=
  match t.get? r with
  | none => t
  | some value => { t with slots := t.slots.set r.slot.toNat ⟨r.generation, some (f value)⟩ }

/-! ## Sweeping -/

/-- Whether a sweep empties a place. -/
def dooms (keep : ObjRef → α → Bool) (index : Nat) (slot : Slot α) : Bool :=
  match slot.data with
  | none => false
  | some value => !keep ⟨UInt32.ofNat index, slot.generation⟩ value

/-- The place after its object was freed. -/
def vacate (slot : Slot α) : Slot α := ⟨slot.generation + 1, none⟩

/-- Frees every object that is not to be kept, in the order of the places, and
counts them. -/
def sweep (t : Table α) (keep : ObjRef → α → Bool) : Nat × Table α :=
  let doomed := t.slots.zipIdx.filter fun entry => dooms keep entry.2 entry.1
  let recyclable := doomed.filter fun entry => (vacate entry.1).generation ≠ 0
  let slots := t.slots.mapIdx fun index slot =>
    if dooms keep index slot then vacate slot else slot
  let free := (recyclable.map fun entry => UInt32.ofNat entry.2).reverse ++ t.free
  (doomed.length, { slots, free, live := t.live - doomed.length })

end Table

end CallbackBridge
