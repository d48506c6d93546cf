/-
# Handles that are lost

A bridge to given functions takes over their handles, and only a host can release what a handle
roots.  The constructor that checks the settings has none, so where it refuses them the handles
are gone and the pins are left: the functions are rooted for good (`rejections_leak`).  A setup
by name checks the settings before it makes a handle.

* `Bridge.inject` persists functions and hands the handles over.
* `HeapEvent.hold` keeps the account of the pins that others hold on an object.
* `Heap.Runs.pinCount?_eq` says that pins which nobody holds are there after every run.
-/
import CallbackBridge.Proofs.HeapActors
import Mathlib.Data.Nat.PSub
namespace CallbackBridge

variable {F ω : Type} {I : Interface}

/-! ## Handing functions over -/

section Injection

variable {σ R K : Type}

/-- Makes handles of the functions. -/
def Bindings.persist (host : HostRuntime σ R K) (residual : R) (event : Option R) (s : σ) :
    Bindings K × σ :=
  let (residual, s) := host.persist residual s
  match event with
  | none => (⟨residual, none⟩, s)
  | some event =>
    let (event, s) := host.persist event s
    (⟨residual, some event⟩, s)

/-- Makes handles of the functions and a bridge of the handles. -/
def Bridge.inject (host : HostRuntime σ R K) (config : BridgeConfig) (residual : R)
    (event : Option R) (s : σ) : Except BridgeError (Bridge K) × σ :=
  let (bindings, s) := Bindings.persist host residual event s
  (Bridge.ofBindings config bindings, s)

end Injection

/-- On the heap each handle is a pin, whatever becomes of the bridge. -/
theorem Bridge.runs_inject (run : Runner F ω) (config : BridgeConfig) (residual : ObjRef)
    (event : Option ObjRef) (w : HeapWorld F ω) :
    w.heap.Runs ((residual :: event.toList).map .pin)
      (Bridge.inject (HeapWorld.runtime run) config residual event w).2.heap := by
  cases event with
  | none => exact w.heap.runs_pinAll ⟨⟨residual⟩, none⟩
  | some event => exact w.heap.runs_pinAll ⟨⟨residual⟩, some ⟨event⟩⟩

/-! ## Pins that nobody holds -/

/-- The pins that others hold on what the reference leads to, after an event; nothing if they undo a
pin that they do not hold. -/
def HeapEvent.hold (r : ObjRef) (held : Nat) : HeapEvent F → Option Nat
  | .pin q => some (if q = r then held + 1 else held)
  | .unpin q => if q = r then held.ppred else some held
  | _ => some held

namespace Heap

variable {h h' : Heap F} {log : List (HeapEvent F)} {r : ObjRef} {held left lost : Nat}

theorem pinCount?_pin (h : Heap F) (q r : ObjRef) :
    (h.pin q).pinCount? r = if q = r then (h.pinCount? r).map (· + 1) else h.pinCount? r := by
  unfold pinCount?
  rw [entry?_pin]
  by_cases hsame : r = q
  · subst hsame
    simp [Option.map_map, Function.comp_def]
  · simp [hsame, Ne.symm hsame]

theorem pinCount?_unpin (h : Heap F) (q r : ObjRef) :
    (h.unpin q).pinCount? r = if q = r then (h.pinCount? r).map (· - 1) else h.pinCount? r := by
  unfold pinCount?
  rw [entry?_unpin]
  by_cases hsame : r = q
  · subst hsame
    simp [Option.map_map, Function.comp_def]
  · simp [hsame, Ne.symm hsame]

theorem pinCount?_setObject (h : Heap F) (q r : ObjRef) (object : Object F) :
    (h.setObject q object).pinCount? r = h.pinCount? r := by
  unfold pinCount?
  rw [entry?_setObject]
  by_cases hsame : r = q
  · subst hsame
    simp [Option.map_map, Function.comp_def]
  · simp [hsame]

/-- Pins that are made one after the other are counted. -/
theorem Runs.pinCount?_pins {refs : List ObjRef} (hruns : h.Runs (refs.map .pin) h') {pins : Nat}
    (hcount : h.pinCount? r = some pins) : h'.pinCount? r = some (pins + refs.count r) := by
  induction refs generalizing h pins with
  | nil =>
    cases hruns
    exact hcount
  | cons q refs ih =>
    obtain ⟨m, hdoes, hruns⟩ := hruns
    cases hdoes
    have hpin := h.pinCount?_pin q r
    rw [hcount, Option.map_some] at hpin
    by_cases hsame : q = r
    · rw [if_pos hsame] at hpin
      rw [ih hruns hpin, hsame, List.count_cons_self, Nat.add_assoc, Nat.add_comm 1]
    · rw [if_neg hsame] at hpin
      rw [ih hruns hpin, List.count_cons_of_ne hsame]

/-- What has a pin is rooted. -/
theorem exists_rooted_of_pinCount? {pins : Nat} (hpins : 0 < pins)
    (hcount : h.pinCount? r = some pins) :
    ∃ e, h.entry? r = some e ∧ h.isRooted r e ∧ e.pins = pins := by
  obtain ⟨e, he, rfl⟩ := Option.map_eq_some_iff.mp hcount
  exact ⟨e, he, by simp [isRooted, hpins], rfl⟩

/-- What is pinned is there after a collection, with its pins. -/
theorem pinCount?_collect {pins : Nat} (hpins : 0 < pins) (hcount : h.pinCount? r = some pins) :
    Heap.pinCount? h.collect.2 r = some pins := by
  obtain ⟨e, he, hrooted, rfl⟩ := exists_rooted_of_pinCount? hpins hcount
  unfold pinCount?
  rw [entry?_collect, he, Option.filter_some_pos hrooted]
  rfl

/-- Detaching a view changes no pins. -/
theorem pinCount?_retire (h : Heap F) (q r : ObjRef) :
    (h.retire q).pinCount? r = h.pinCount? r := by
  rcases h.retire_cases q with ⟨view, pins, -, htable⟩ | ⟨-, hsame⟩
  · rw [← h.pinCount?_setObject q r (.view view.retire)]
    unfold pinCount? entry?
    rw [htable]
  · rw [hsame]

/-- **Pins that nobody holds are not undone** by any event, and they keep the object where it is. -/
theorem Does.pinCount?_eq {event : HeapEvent F} (hdoes : h.Does event h') (hs : h.table.Sound)
    (room : h'.table.Addressable) (hlost : 0 < lost) (hcount : h.pinCount? r = some (held + lost))
    (hheld : event.hold r held = some left) : h'.pinCount? r = some (left + lost) := by
  cases event with
  | alloc made q =>
    cases hheld
    have hafter : (h.alloc made.object).2 = h' := congrArg Prod.snd hdoes
    subst hafter
    obtain ⟨e, he, hrooted, hpins⟩ := exists_rooted_of_pinCount? (Nat.add_pos_right held hlost) hcount
    unfold pinCount?
    rw [entry?_alloc_of_rooted room hs he hrooted]
    exact congrArg some hpins
  | collect =>
    cases hheld
    cases hdoes
    exact pinCount?_collect (Nat.add_pos_right held hlost) hcount
  | pin q =>
    cases hheld
    cases hdoes
    rw [pinCount?_pin, hcount]
    split
    · exact congrArg some (Nat.add_right_comm held lost 1)
    · rfl
  | unpin q =>
    cases hdoes
    rw [pinCount?_unpin, hcount]
    change (if q = r then held.ppred else some held) = some left at hheld
    by_cases hsame : q = r
    · rw [if_pos hsame] at hheld ⊢
      rw [← Nat.ppred_eq_some.mp hheld, Nat.succ_add]
      rfl
    · rw [if_neg hsame] at hheld ⊢
      cases hheld
      rfl
  | repoint q buffer =>
    cases hheld
    obtain ⟨-, rfl⟩ := repoint_eq_ok hdoes
    rw [pinCount?_setObject]
    exact hcount
  | retire q =>
    cases hheld
    cases hdoes
    rw [pinCount?_retire]
    exact hcount
  | _ =>
    cases hheld
    cases hdoes
    exact hcount

/-- **Pins that nobody holds are there after every run.** -/
theorem Runs.pinCount?_eq (hruns : h.Runs log h') (hs : h.table.Sound)
    (room : h'.table.Addressable) (hlost : 0 < lost) (hcount : h.pinCount? r = some (held + lost))
    (hheld : log.foldlM (HeapEvent.hold r) held = some left) :
    h'.pinCount? r = some (left + lost) := by
  induction log generalizing h held with
  | nil =>
    cases hruns
    cases hheld
    exact hcount
  | cons event log ih =>
    obtain ⟨m, hdoes, hruns⟩ := hruns
    rw [List.foldlM_cons] at hheld
    obtain ⟨now, hnow, hheld⟩ := Option.bind_eq_some_iff.mp hheld
    have room' := hruns.evolves.addressable room
    exact ih hruns (hdoes.evolves.sound room' hs)
      (hdoes.pinCount?_eq hs room' hlost hcount hnow) hheld

/-- The pins of the handles are there, and nobody is left who undoes them. -/
structure Loses (h h' : Heap F) (refs : List ObjRef) : Prop where
  /-- Each handle is one more pin. -/
  counted : ∀ r pins, h.pinCount? r = some pins → h'.pinCount? r = some (pins + refs.count r)
  /-- Whatever is done then, if others undo no pins that they do not hold, the pins of the handles
  stay, and a collection does not take the object away. -/
  stays : ∀ r ∈ refs, ∀ pins, h.pinCount? r = some pins → ∀ {log : List (HeapEvent F)} {u left},
    h'.Runs log u → u.table.Addressable → log.foldlM (HeapEvent.hold r) pins = some left →
    u.pinCount? r = some (left + refs.count r) ∧ Heap.isLive u.collect.2 r

/-- Pins that are made and forgotten are lost. -/
theorem Runs.loses {refs : List ObjRef} (hruns : h.Runs (refs.map .pin) h') (hs : h.table.Sound) :
    h.Loses h' refs where
  counted r pins hcount := hruns.pinCount?_pins hcount
  stays r hr pins hcount {log u left} hlater room hheld := by
    have hlost : 0 < refs.count r := List.count_pos_iff.mpr hr
    have room' := hlater.evolves.addressable room
    have hstays := hlater.pinCount?_eq (hruns.evolves.sound room' hs) room hlost
      (hruns.pinCount?_pins hcount) hheld
    have hcollected := pinCount?_collect (Nat.add_pos_right left hlost) hstays
    obtain ⟨e, he, -⟩ := Option.map_eq_some_iff.mp hcollected
    exact ⟨hstays, isLive_of_eq_some he⟩

end Heap

/-! ## Settings that are refused -/

/-- **A bridge that is refused keeps the pins of its handles.**  With settings that are not in order
no bridge is made of functions that are given, and each of their handles is a pin that stays for
good: whatever is done to the heap later on, by user code, by bridges or by other owners that
undo no pins but their own, the function is not collected.  A setup by name refuses the same
settings before it has pinned anything. -/
theorem rejections_leak (run : Runner F ω) {config : BridgeConfig} {e : ConfigError}
    (hinvalid : config.validate = .error e) {w : HeapWorld F ω} (hs : w.heap.table.Sound) :
    (∀ residual event,
      (Bridge.inject (HeapWorld.runtime run) config residual event w).1 = .error (.config e) ∧
        w.heap.Loses (Bridge.inject (HeapWorld.runtime run) config residual event w).2.heap
          (residual :: event.toList)) ∧
      (Bridge.resolveAtSetup (HeapWorld.runtime run) config).start w =
        (.error (.error (.config e)), w) := by
  refine ⟨fun residual event => ⟨?_, (Bridge.runs_inject run config residual event w).loses hs⟩, ?_⟩
  · unfold Bridge.inject Bridge.ofBindings Bridge.validated
    rw [hinvalid]
  · unfold Bridge.resolveAtSetup
    rw [hinvalid]
    rfl

/-! ## A function without a name

The residual name is empty, and nothing refers to the function but its handle. -/

namespace Unnamed

/-- The settings that are refused. -/
def config : BridgeConfig := { names := ⟨"", none⟩ }

/-- The machine, with one level. -/
def run : Runner Unit Unit := Runner.ofStack Echo.code [Echo.surroundings]

/-- The heap with the function. -/
def world : HeapWorld Unit Unit :=
  HeapWorld.perform Echo.surroundings run (HeapCommand.function ⟨"f", ()⟩).ask
    ⟨Heap.ofConfig .manual, {}, ()⟩

/-- What is left of the attempt to make a bridge. -/
def attempt : Except BridgeError (Bridge Rooted) × HeapWorld Unit Unit :=
  Bridge.inject (HeapWorld.runtime run) config ⟨0, 0⟩ none world

/-- The settings are refused. -/
theorem invalid : config.validate = .error (.emptyBindingName "residual") := rfl

/-- The heap was built by a program. -/
theorem sound : world.heap.table.Sound := by
  have hbuilt : Built Echo.code world := .program
  refine hbuilt.sound ?_
  decide +kernel

end Unnamed

/-- The function had no pin and would have been collected; now it has one and is not. -/
theorem rejections_leak_unnamed :
    Unnamed.attempt.1 = .error (.config (.emptyBindingName "residual")) ∧
    Unnamed.world.heap.pinCount? ⟨0, 0⟩ = some 0 ∧
    Heap.isLive Unnamed.world.heap.collect.2 ⟨0, 0⟩ = false ∧
    Unnamed.attempt.2.heap.pinCount? ⟨0, 0⟩ = some 1 ∧
    Heap.isLive Unnamed.attempt.2.heap.collect.2 ⟨0, 0⟩ = true := by
  have hnone : Unnamed.world.heap.pinCount? ⟨0, 0⟩ = some 0 := by decide +kernel
  obtain ⟨hrefused, hloses⟩ := (rejections_leak Unnamed.run Unnamed.invalid Unnamed.sound).1
    ⟨0, 0⟩ none
  have room : Unnamed.attempt.2.heap.table.Addressable := by decide +kernel
  obtain ⟨hpins, hlive⟩ := hloses.stays ⟨0, 0⟩ List.mem_cons_self 0 hnone
    (show Unnamed.attempt.2.heap.Runs [] Unnamed.attempt.2.heap from rfl) room rfl
  exact ⟨hrefused, hnone, by decide +kernel, hpins, hlive⟩

/-- So the pins are not back to what they were, and the function is not collected. -/
theorem not_forall_rejections_restore :
    ¬ ∀ (run : Runner Unit Unit) (config : BridgeConfig) (e : ConfigError)
      (w : HeapWorld Unit Unit) (residual : ObjRef) (event : Option ObjRef),
      config.validate = .error e → w.heap.table.Sound →
      (Bridge.inject (HeapWorld.runtime run) config residual event w).1 = .error (.config e) ∧
        ∀ r ∈ residual :: event.toList,
          (Bridge.inject (HeapWorld.runtime run) config residual event w).2.heap.pinCount? r =
            w.heap.pinCount? r := by
  intro hclaim
  have hback := (hclaim Unnamed.run Unnamed.config _ Unnamed.world ⟨0, 0⟩ none Unnamed.invalid
    Unnamed.sound).2 ⟨0, 0⟩ List.mem_cons_self
  revert hback
  decide +kernel

end CallbackBridge
