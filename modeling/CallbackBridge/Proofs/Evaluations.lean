/-
# Evaluations and the registry

An evaluation borrows the registry for one callback: it registers a target made for it, runs
the callback, and puts back what was registered before.

* `ClientBridge.calling` is the callback that an evaluation runs, with the process as the
  callback finds it, if the evaluation gets that far.
* `ClientBridge.evaluate_cases` says what an evaluation does in terms of that callback.
* `evaluation_restores_target` says that the slot is afterwards as it was before, and which
  targets can be entered meanwhile; `evaluation_lastStatus` says what becomes of the last status.
-/
import CallbackBridge.Proofs.CountedCalls
import CallbackBridge.Proofs.RegistryHistory
namespace CallbackBridge

open HostOperation

variable {τ F G : Type}

/-! ## The callback of an evaluation -/

/-- A callback that is about to be run. -/
structure PendingCallback (F G : Type) where
  /-- The entry point. -/
  native : NativeEntry
  /-- The pointers. -/
  args : CallbackArguments
  /-- The process as the callback finds it. -/
  process : Process F G

namespace PendingCallback

/-- Runs the callback. -/
def run (engine : Engine F G) (call : PendingCallback F G) : CallbackEffect × Process F G :=
  engine.callback call.native call.args call.process

/-- The status with which it ends. -/
def status (engine : Engine F G) (call : PendingCallback F G) : Status :=
  engine.statusOf call.native call.args call.process

/-- The callback records the status with which it ends. -/
theorem lastStatus_run (engine : Engine F G) (call : PendingCallback F G) :
    (call.run engine).2.registry.lastStatus = call.status engine := rfl

end PendingCallback

namespace Process

/-- The target that a process makes next, if this is what it does. -/
def nextTarget (body : TargetBody F) (p : Process F G) : Target F := ⟨p.rest.nextSerial, body⟩

/-- The process with its next target registered, and the previous one held meanwhile. -/
def lending (body : TargetBody F) (p : Process F G) : Process F G where
  registry := { slot := some (p.nextTarget body) }
  rest := { p.rest with nextSerial := p.rest.nextSerial + 1, displaced := p.registry.slot }

/-- The process with the previous target back in its place.  An installation resets the last
status, and a removal does not. -/
def putBack (previous : Option (Target F)) (p : Process F G) : Process F G where
  registry :=
    { slot := previous
      lastStatus := if previous.isSome then .ok else p.registry.lastStatus }
  rest := { p.rest with displaced := none }

end Process

namespace ClientBridge

/-- The callback that an evaluation runs, if it gets that far. -/
def calling (engine : Engine F G) (bridge : ClientBridge) (request : Request) (t : Binary64)
    (y yp : List Binary64) (stride : Nat) (p : Process F G) : Option (PendingCallback F G) :=
  match arguments request t y yp stride, (bridge.install engine).start p with
  | .ok (native, args), (.ok previous, p') =>
    some ⟨native, args, p'.update fun s => { s with displaced := previous }⟩
  | _, _ => none

/-- What the client is told of a status and an output. -/
def reply (status : Status) (res : Option Output) : Outcome ClientException CountedArray :=
  match ClientException.ofCode? status.code with
  | some e => .error (.error e)
  | none => .ok (.ofValues ((res.map Output.toList).getD []))

end ClientBridge

/-! ## Making the target -/

/-- Looking for functions and rooting them leaves the reference-counting host as it is. -/
theorem CountedWorld.eq_of_binds {run : CallableRunner F G} {op : HostOperation ObjId ObjId}
    {w w' : CountedWorld F G} (h : op.Performs (CountedWorld.runtime run) w w')
    (hop : op.Looks ∨ ∃ value handle, op = .persist value handle) : w' = w := by
  rcases hop with hlooks | ⟨value, handle, rfl⟩
  · exact eq_of_looks h hlooks
  · exact (congrArg Prod.snd h).symm

/-- Binding functions looks for them and roots them, and does nothing else. -/
theorem Binding.looks_or_persists {R K : Type} {names : BindingNames}
    {ops : List (HostOperation R K)} {result : Except BridgeError (Bindings K)}
    (h : Binding names ops result) :
    ∀ op ∈ ops, op.Looks ∨ ∃ value handle, op = .persist value handle := by
  have hlooks : ∀ {entry : Entry} {looking : List (HostOperation R K)} {found},
      Lookup names entry .perCall looking found →
        ∀ op ∈ looking, op.Looks ∨ ∃ value handle, op = .persist value handle :=
    fun hlookup op hop => Or.inl (hlookup.looks op hop)
  cases h with
  | unfound hresidual => exact hlooks hresidual
  | unusable hresidual hevent =>
    rw [List.forall_mem_append]
    exact ⟨hlooks hresidual, hlooks hevent⟩
  | alone hresidual hevent =>
    rw [List.forall_mem_append, List.forall_mem_append]
    exact ⟨hlooks hresidual, hlooks hevent, by simp⟩
  | both hresidual hevent =>
    rw [List.forall_mem_append, List.forall_mem_append]
    exact ⟨hlooks hresidual, hlooks hevent, by simp⟩

/-- Setting up a bridge leaves the reference-counting host as it is. -/
theorem CountedWorld.start_resolveAtSetup (run : CallableRunner F G) (config : BridgeConfig)
    (w : CountedWorld F G) :
    ∃ result : Except BridgeError (Bridge ObjId),
      (Bridge.resolveAtSetup (runtime run) config).start w = (Outcome.ofExcept result, w) := by
  obtain ⟨moments, result, w', hstart, hchain, hsetup⟩ :=
    Bridge.exists_setup (runtime run) config w
  have hbinds : ∀ op ∈ moments.map Moment.operation,
      op.Looks ∨ ∃ value handle, op = .persist value handle := by
    rcases hsetup with ⟨e, rfl, -⟩ | ⟨bound, hbinding, -⟩
    · intro op hop
      cases hop
    · exact hbinding.looks_or_persists
  have hcarries : Carries (fun op u u' => op.Performs (runtime run) u u') w
      (moments.map Moment.operation) w' := hchain.performs
  have hsame : w' = w := hcarries.relates (P := fun u u' => u' = u) (fun u => rfl)
    (fun hu hv => hv.trans hu) fun op hop u u' hperforms => eq_of_binds hperforms (hbinds op hop)
  rw [hsame] at hstart
  exact ⟨result, hstart⟩

namespace ClientBridge

/-- Finding out what a new target does leaves the process as it is. -/
theorem start_targetBody (engine : Engine F G) (bridge : ClientBridge) (p : Process F G) :
    ∃ body : Except BridgeError (TargetBody F),
      (bridge.targetBody engine).start p = (Outcome.ofExcept body, p) := by
  unfold targetBody
  split
  · exact ⟨_, rfl⟩
  · exact ⟨_, rfl⟩
  · next dict _ =>
    obtain ⟨built, hbuilt⟩ := CountedWorld.start_resolveAtSetup engine.callable bridge.config
      { process := p, dict := some dict }
    refine ⟨built.map fun built => .counted built (some dict), ?_⟩
    unfold Act.start at hbuilt ⊢
    simp only [hbuilt]
    cases built <;> rfl

end ClientBridge

/-! ## Borrowing and putting back -/

/-- While no callback runs, installations succeed. -/
theorem Registry.install_of_unlocked {r : Registry τ} (hunlocked : r.locked = false) (target : τ) :
    r.install target = (.ok r.slot, { slot := some target }) := by
  unfold install
  rw [hunlocked]
  rfl

/-- While no callback runs, removals succeed. -/
theorem Registry.uninstall_of_unlocked {r : Registry τ} (hunlocked : r.locked = false) :
    r.uninstall = (.ok r.slot, { lastStatus := r.lastStatus }) := by
  unfold uninstall
  rw [hunlocked]
  rfl

namespace ClientBridge

variable {engine : Engine F G} {bridge : ClientBridge} {p : Process F G} {body : TargetBody F}

/-- What becomes of the registry when the new target is installed that has been made. -/
theorem start_install (hbody : (bridge.targetBody engine).start p = (.ok body, p)) :
    (bridge.install engine).start p =
      (Outcome.mapError ClientException.ofRefusal
          (Outcome.ofExcept (p.registry.install (p.nextTarget body)).1),
        ⟨(p.registry.install (p.nextTarget body)).2,
          { p.rest with nextSerial := p.rest.nextSerial + 1 }⟩) := by
  unfold install
  rw [Act.start_bind, Act.start_mapError, hbody]
  rfl

/-- A target that cannot be made is not installed. -/
theorem start_install_of_error {e : BridgeError}
    (hbody : (bridge.targetBody engine).start p = (.error (.error e), p)) :
    (bridge.install engine).start p = (.error (.error (.ofBridgeError e)), p) := by
  unfold install
  rw [Act.start_bind, Act.start_mapError, hbody]
  rfl

/-- Putting back succeeds while no callback runs. -/
theorem restore_of_unlocked (hunlocked : p.registry.locked = false)
    (previous : Option (Target F)) : restore previous p = (.ok (), p.putBack previous) := by
  unfold restore Process.putBack
  cases previous with
  | some target =>
    dsimp only
    unfold Process.install
    rw [Registry.install_of_unlocked (by exact hunlocked)]
    rfl
  | none =>
    dsimp only
    unfold Process.uninstall
    rw [Registry.uninstall_of_unlocked (by exact hunlocked)]
    rfl

end ClientBridge

/-- A callback that finds no other one running leaves none running. -/
theorem Engine.unlocked_callback (engine : Engine F G) (native : NativeEntry)
    (args : CallbackArguments) {p : Process F G} (hunlocked : p.registry.locked = false) :
    (engine.callback native args p).2.registry.locked = false := by
  unfold callback
  cases hadmitted : (native.restrict args).admitted native.entry p.registry with
  | error status =>
    rw [engine.targetSystem.callback_of_error hadmitted]
    exact hunlocked
  | ok admitted =>
    rw [engine.targetSystem.callback_of_ok hadmitted rfl]
    rfl

/-- The target that a callback finds in the slot is still there afterwards, as the callback has
left it. -/
theorem Engine.slot_callback (engine : Engine F G) (native : NativeEntry)
    (args : CallbackArguments) {p : Process F G} {target : Target F}
    (hslot : p.registry.slot = some target) :
    ∃ left, (engine.callback native args p).2.registry.slot = some left ∧
      left.serial = target.serial := by
  unfold callback
  cases hadmitted : (native.restrict args).admitted native.entry p.registry with
  | error status =>
    rw [engine.targetSystem.callback_of_error hadmitted]
    exact ⟨target, hslot, rfl⟩
  | ok admitted =>
    obtain ⟨windows, entered⟩ := admitted
    obtain ⟨hentered, -, -⟩ :=
      Registry.available_eq_ok (CallbackArguments.available_of_admitted hadmitted)
    rw [hslot] at hentered
    cases hentered
    rw [engine.targetSystem.callback_of_ok hadmitted rfl]
    exact ⟨_, rfl, engine.serial_runTarget target native.entry windows _⟩

/-- A callback enters no target but the one in the slot. -/
theorem TargetSystem.target_of_entered {ω : Type} (system : TargetSystem τ ω) {entry : Entry}
    {args : CallbackArguments} {s : NativeState τ ω} {target : τ}
    (hslot : s.registry.slot = some target) :
    ∀ entering ∈ system.entered entry args s, entering.target = target := by
  intro entering hentering
  cases hadmitted : args.admitted entry s.registry with
  | error status =>
    rw [system.entered_of_error hadmitted] at hentering
    cases hentering
  | ok admitted =>
    obtain ⟨hentered, -, -⟩ :=
      Registry.available_eq_ok (CallbackArguments.available_of_admitted hadmitted)
    rw [system.entered_of_ok hadmitted, List.mem_singleton] at hentering
    rw [hslot] at hentered
    cases hentered
    rw [hentering]

/-! ## The whole evaluation -/

namespace ClientBridge

variable {engine : Engine F G} {bridge : ClientBridge} {p : Process F G} {body : TargetBody F}

/-- The one callback, once the target can be made and registered. -/
theorem start_callOnce (hbody : (bridge.targetBody engine).start p = (.ok body, p))
    (hunlocked : p.registry.locked = false) (native : NativeEntry) (args : CallbackArguments) :
    (bridge.callOnce engine native args).start p =
      (.ok (engine.statusOf native args (p.lending body),
          (engine.callback native args (p.lending body)).1.res),
        (engine.callback native args (p.lending body)).2.putBack p.registry.slot) := by
  have hinstall := start_install hbody
  rw [Registry.install_of_unlocked hunlocked] at hinstall
  have hrestore := restore_of_unlocked
    (engine.unlocked_callback native args (p := p.lending body) rfl) p.registry.slot
  have hputBack :
      (Act.mapError ClientException.ofRefusal (Act.checked (restore p.registry.slot))).start
        (engine.callback native args (p.lending body)).2 =
        (.ok (), (engine.callback native args (p.lending body)).2.putBack p.registry.slot) := by
    unfold Act.mapError Act.checked Act.start
    simp only [hrestore]
    rfl
  unfold callOnce
  rw [Act.start_bind_of_ok hinstall, Act.start_bind_total, Act.start_bind_total,
    Act.start_bind_total]
  exact Act.start_bind_of_ok hputBack _

variable (engine bridge p) in
/-- An evaluation whose arguments are in order makes the one callback and replies. -/
theorem start_evaluate {request : Request} {t : Binary64} {y yp : List Binary64} {stride : Nat}
    {native : NativeEntry} {args : CallbackArguments}
    (harguments : arguments request t y yp stride = .ok (native, args)) :
    (bridge.evaluate engine request t y yp stride).start p =
      (bridge.callOnce engine native args >>= fun ended =>
        Act.finish (reply ended.1 ended.2)).start p := by
  have hasked : (Act.finish (Outcome.ofExcept (arguments request t y yp stride)) :
      Act (Process F G) ClientException _).start p = (.ok (native, args), p) := by
    rw [harguments]
    rfl
  have hreplies : (fun ended : Status × Option Output =>
      (match ClientException.ofCode? ended.1.code with
        | some e => Act.fail e
        | none => pure (.ofValues ((ended.2.map Output.toList).getD [])) :
        Act (Process F G) ClientException CountedArray)) =
      fun ended => Act.finish (reply ended.1 ended.2) := by
    funext ended
    unfold reply
    cases ClientException.ofCode? ended.1.code <;> rfl
  unfold evaluate
  rw [Act.start_bind_of_ok hasked]
  exact congrArg (fun replies => (bridge.callOnce engine native args >>= replies).start p) hreplies

variable (engine bridge p) in
/-- An evaluation whose arguments are not in order leaves the process as it is. -/
theorem evaluate_of_arguments_error {request : Request} {t : Binary64} {y yp : List Binary64}
    {stride : Nat} {e : ClientException}
    (harguments : arguments request t y yp stride = .error e) :
    bridge.calling engine request t y yp stride p = none ∧
      (bridge.evaluate engine request t y yp stride).start p = (.error (.error e), p) := by
  unfold calling evaluate
  rw [harguments]
  exact ⟨rfl, rfl⟩

/-- What is known of an evaluation that gets to its callback. -/
structure Borrows (engine : Engine F G) (bridge : ClientBridge) (request : Request)
    (t : Binary64) (y yp : List Binary64) (stride : Nat) (p : Process F G)
    (call : PendingCallback F G) (body : TargetBody F) : Prop where
  /-- The arguments are in order. -/
  arguments : arguments request t y yp stride = .ok (call.native, call.args)
  /-- The target can be made. -/
  targetBody : (bridge.targetBody engine).start p = (.ok body, p)
  /-- No callback is running. -/
  unlocked : p.registry.locked = false
  /-- The target is registered, and the previous one held meanwhile. -/
  process : call.process = p.lending body
  /-- The client is told of the status, and the previous target is put back. -/
  evaluate : (bridge.evaluate engine request t y yp stride).start p =
    (reply (call.status engine) (call.run engine).1.res,
      (call.run engine).2.putBack p.registry.slot)

/-- An evaluation gets to its callback if its arguments are in order, its target can be made and
no callback is running. -/
theorem calling_eq_some {request : Request} {t : Binary64} {y yp : List Binary64} {stride : Nat}
    {native : NativeEntry} {args : CallbackArguments}
    (harguments : arguments request t y yp stride = .ok (native, args))
    (hbody : (bridge.targetBody engine).start p = (.ok body, p))
    (hunlocked : p.registry.locked = false) :
    bridge.calling engine request t y yp stride p = some ⟨native, args, p.lending body⟩ := by
  have hinstall := start_install hbody
  rw [Registry.install_of_unlocked hunlocked] at hinstall
  unfold calling
  rw [harguments, hinstall]
  rfl

/-- **An evaluation gets to its callback, or it ends with an exception** and has at most used
up an identity for a target. -/
theorem evaluate_cases (engine : Engine F G) (bridge : ClientBridge) (request : Request)
    (t : Binary64) (y yp : List Binary64) (stride : Nat) (p : Process F G) :
    (bridge.calling engine request t y yp stride p = none ∧
      ∃ e serial, (bridge.evaluate engine request t y yp stride).start p =
        (.error (.error e), { p with rest := { p.rest with nextSerial := serial } })) ∨
    ∃ call body, bridge.calling engine request t y yp stride p = some call ∧
      bridge.Borrows engine request t y yp stride p call body := by
  cases harguments : ClientBridge.arguments request t y yp stride with
  | error e =>
    obtain ⟨hnone, hevaluate⟩ := bridge.evaluate_of_arguments_error engine p harguments
    exact Or.inl ⟨hnone, e, p.rest.nextSerial, hevaluate⟩
  | ok asked =>
    obtain ⟨native, args⟩ := asked
    have hevaluate := bridge.start_evaluate engine p harguments
    rw [hevaluate]
    obtain ⟨built, hbuilt⟩ := bridge.start_targetBody engine p
    cases built with
    | error e =>
      have hinstall := start_install_of_error hbuilt
      refine Or.inl ⟨?_, .ofBridgeError e, p.rest.nextSerial, ?_⟩
      · unfold calling
        rw [harguments, hinstall]
      · exact Act.start_bind_of_error (Act.start_bind_of_error hinstall _) _
    | ok body =>
      have hinstall := start_install hbuilt
      cases hlocked : p.registry.locked with
      | true =>
        rw [Registry.install_of_locked hlocked] at hinstall
        refine Or.inl ⟨?_, .ofRefusal .busy, p.rest.nextSerial + 1, ?_⟩
        · unfold calling
          rw [harguments, hinstall]
          rfl
        · exact Act.start_bind_of_error (Act.start_bind_of_error hinstall _) _
      | false =>
        refine Or.inr ⟨⟨native, args, p.lending body⟩, body,
          calling_eq_some harguments hbuilt hlocked, harguments, hbuilt, hlocked, rfl, ?_⟩
        rw [hevaluate]
        exact Act.start_bind_of_ok (start_callOnce hbuilt hlocked native args) _

/-- The callback that an evaluation gets to finds the target that was made for it. -/
theorem borrows_of_calling {request : Request} {t : Binary64} {y yp : List Binary64}
    {stride : Nat} {call : PendingCallback F G}
    (h : bridge.calling engine request t y yp stride p = some call) :
    ∃ body, bridge.Borrows engine request t y yp stride p call body := by
  rcases bridge.evaluate_cases engine request t y yp stride p with
    ⟨hnone, -⟩ | ⟨call', body, hsome, hborrows⟩
  · rw [h] at hnone
    cases hnone
  · rw [h] at hsome
    cases hsome
    exact ⟨body, hborrows⟩

end ClientBridge

/-! ## The slot -/

/-- The callback is the only one that enters a target, and it enters this one. -/
structure PendingCallback.Alone (language : Language F G) (depth : Nat) (temporary : Target F)
    (call : PendingCallback F G) : Prop where
  /-- The target is registered. -/
  slot : call.process.registry.slot = some temporary
  /-- The callback enters no other one. -/
  enters : ∀ entering ∈ (Engine.ofDepth language depth).targetSystem.entered call.native.entry
    (call.native.restrict call.args) call.process, entering.target = temporary
  /-- Wherever user code is meanwhile, it cannot take the target out, and callbacks that it
  makes enter none. -/
  guarded : ∀ windows q, Engine.During language depth call.native.entry windows
    { call.process with registry := call.process.registry.enter } temporary q →
      q.Guarded temporary
  /-- When the callback has ended, the target is there to be replaced. -/
  left : ∃ left, (call.run (Engine.ofDepth language depth)).2.registry.slot = some left ∧
    left.serial = temporary.serial

/-- A callback that finds the target in the slot of an unlocked registry enters no other
one. -/
theorem PendingCallback.alone_of_slot (language : Language F G) (depth : Nat)
    {temporary : Target F} {call : PendingCallback F G}
    (hslot : call.process.registry.slot = some temporary) :
    call.Alone language depth temporary where
  slot := hslot
  enters := TargetSystem.target_of_entered _ hslot
  guarded windows q hduring := by
    obtain ⟨status, hregistry⟩ := hduring.sealed rfl
    refine Process.guarded_of_locked ?_ ?_
    · rw [hregistry]
      rfl
    · rw [hregistry]
      exact hslot
  left := (Engine.ofDepth language depth).slot_callback call.native call.args hslot

/-- **An evaluation puts back what was registered before.**  Whatever the state of the registry
is, empty, with a target, poisoned or with a callback running, and however the evaluation ends,
on machines of any depth and with any user code: the slot holds afterwards what it held before.
An evaluation that does not get to its callback ends with an exception and leaves all of the
process as it was, but for an identity used up.  One that does registers a new target; only
this target is entered until the evaluation has ended, by its one callback, and nothing is held
back afterwards. -/
theorem evaluation_restores_target (language : Language F G) (depth : Nat)
    (bridge : ClientBridge) (request : Request) (t : Binary64) (y yp : List Binary64)
    (stride : Nat) (p : Process F G) :
    ((bridge.evaluate (Engine.ofDepth language depth) request t y yp stride).start
      p).2.registry.slot = p.registry.slot ∧
    ((bridge.evaluate (Engine.ofDepth language depth) request t y yp stride).start
      p).2.registry.locked = p.registry.locked ∧
    (bridge.calling (Engine.ofDepth language depth) request t y yp stride p = none →
      ∃ e serial, (bridge.evaluate (Engine.ofDepth language depth) request t y yp stride).start p =
        (.error (.error e), { p with rest := { p.rest with nextSerial := serial } })) ∧
    ∀ call, bridge.calling (Engine.ofDepth language depth) request t y yp stride p = some call →
      p.registry.locked = false ∧
      ∃ body, (bridge.targetBody (Engine.ofDepth language depth)).start p = (.ok body, p) ∧
        call.process = p.lending body ∧
        call.Alone language depth (p.nextTarget body) ∧
        (bridge.evaluate (Engine.ofDepth language depth) request t y yp stride).start p =
          (ClientBridge.reply (call.status (Engine.ofDepth language depth))
              (call.run (Engine.ofDepth language depth)).1.res,
            (call.run (Engine.ofDepth language depth)).2.putBack p.registry.slot) := by
  rcases bridge.evaluate_cases (Engine.ofDepth language depth) request t y yp stride p with
    ⟨hnone, e, serial, hevaluate⟩ | ⟨call, body, hsome, hborrows⟩
  · rw [hevaluate, hnone]
    refine ⟨rfl, rfl, fun _ => ⟨e, serial, rfl⟩, ?_⟩
    intro call hcall
    cases hcall
  · rw [hborrows.evaluate, hsome]
    refine ⟨rfl, hborrows.unlocked.symm, ?_, ?_⟩
    · intro hnone
      cases hnone
    · intro call' hcall
      cases hcall
      refine ⟨hborrows.unlocked, body, hborrows.targetBody, hborrows.process, ?_, rfl⟩
      refine PendingCallback.alone_of_slot language depth ?_
      rw [hborrows.process]
      rfl

/-! ## A small process in which a bridge is evaluated

A target is registered, and a bridge to a callable that gives the state back is evaluated. -/

namespace Lending

/-- The bridge. -/
def bridge : ClientBridge where
  source := .injected ⟨0⟩ none
  config := { names := ⟨"f", none⟩ }

/-- The process in which the other target is registered. -/
def process : Process Unit Unit where
  registry := { slot := some Panicking.other }
  rest :=
    { nextSerial := 2
      store := { objects := #[.callable "function" (some "f") true ()] } }

/-- The machines. -/
abbrev engine : Engine Unit Unit := .ofDepth Meddling.language 1

/-- What the target does that is made for an evaluation. -/
def body : TargetBody Unit := .counted (Bridge.start bridge.config (.bound ⟨⟨0⟩, none⟩)) none

/-- The pointers of the callback for an output length and a number of event functions. -/
def args (outLen : Nat) (m : Int) : CallbackArguments where
  t := some [.zero]
  y := some [.zero]
  yp := some [.zero]
  res := some (.fresh outLen)
  ipar := some [1, m]
  ires := some 0
  neq := some 1
  nrt := some m

/-- The callback for the residual. -/
def call : PendingCallback Unit Unit := ⟨.daskrResidual, args 1 0, process.lending body⟩

/-- The callback for one event function, of which the bridge has none. -/
def eventCall : PendingCallback Unit Unit := ⟨.daskrEvent, args 1 1, process.lending body⟩

theorem targetBody_eq : (bridge.targetBody engine).start process = (.ok body, process) := rfl

theorem calling_eq :
    bridge.calling engine .residual .zero [.zero] [.zero] 1 process = some call := rfl

theorem calling_events_eq :
    bridge.calling engine (.events 1) .zero [.zero] [.zero] 1 process = some eventCall := rfl

/-- The moment is a call of a callable. -/
def isEntry (moment : Moment (CountedWorld Unit Unit) ObjId ObjId) : Bool :=
  match moment.operation with
  | .call f _ _ =>
    match moment.before.store.get? f with
    | some (.callable _ _ true _) => true
    | _ => false
  | _ => false

/-- What the target gets to see. -/
def windows : Windows where
  t := [.zero]
  y := [.zero]
  yp := [.zero]
  ipar := ⟨[1]⟩
  res := .fresh 1

/-- The process while the callback runs. -/
def running : Process Unit Unit :=
  { call.process with registry := call.process.registry.enter }

/-- The callable is run. -/
theorem exists_during : ∃ q, Engine.During Meddling.language 1 .residual windows running
    (process.nextTarget body) q := by
  have hentered : (engine.countedMoments (Bridge.start bridge.config (.bound ⟨⟨0⟩, none⟩)) none
      .residual windows running).any isEntry = true := by decide +kernel
  obtain ⟨moment, hmoment, hentry⟩ := List.any_eq_true.mp hentered
  unfold isEntry at hentry
  split at hentry
  · next f views outcome hcall =>
    split at hentry
    · next name label code hf => exact ⟨_, .callable rfl hmoment hcall hf .here⟩
    · cases hentry
  · cases hentry

end Lending

/-- In the small process, the callable is run while only the new target can be entered, and
afterwards the other target is in its place again. -/
theorem evaluation_restores_target_lending :
    ((Lending.bridge.evaluate (Engine.ofDepth Meddling.language 1) .residual .zero [.zero]
        [.zero] 1).start Lending.process).2.registry.slot = some Panicking.other ∧
      Lending.call.Alone Meddling.language 1 (Lending.process.nextTarget Lending.body) ∧
      ∃ q, Engine.During Meddling.language 1 .residual Lending.windows Lending.running
        (Lending.process.nextTarget Lending.body) q ∧
        q.Guarded (Lending.process.nextTarget Lending.body) := by
  obtain ⟨hslot, -, -, hcalls⟩ := evaluation_restores_target Meddling.language 1 Lending.bridge
    .residual .zero [.zero] [.zero] 1 Lending.process
  obtain ⟨-, body, hbody, -, halone, -⟩ := hcalls Lending.call Lending.calling_eq
  rw [show (Lending.bridge.targetBody (Engine.ofDepth Meddling.language 1)).start
    Lending.process = _ from Lending.targetBody_eq] at hbody
  cases hbody
  obtain ⟨q, hduring⟩ := Lending.exists_during
  exact ⟨hslot.trans rfl, halone, q, hduring, halone.guarded _ q hduring⟩

/-! ## The last status -/

/-- **The status of an evaluation is kept exactly if nothing was registered before.**  Let an
evaluation get to its callback, on any machines.  The client is told of the status with which
the callback ends.  Afterwards it is the last status if the registry was empty; if a target was
registered, putting that back is an installation, and the last status is success, whatever the
callback has recorded. -/
theorem evaluation_lastStatus (engine : Engine F G) (bridge : ClientBridge) (request : Request)
    (t : Binary64) (y yp : List Binary64) (stride : Nat) (p : Process F G)
    (call : PendingCallback F G)
    (hcalling : bridge.calling engine request t y yp stride p = some call) :
    ((bridge.evaluate engine request t y yp stride).start p).1 =
      ClientBridge.reply (call.status engine) (call.run engine).1.res ∧
    (call.run engine).2.registry.lastStatus = call.status engine ∧
    ((bridge.evaluate engine request t y yp stride).start p).2.registry.lastStatus =
      (if p.registry.slot.isSome then .ok else call.status engine) ∧
    (((bridge.evaluate engine request t y yp stride).start p).2.registry.lastStatus =
        call.status engine ↔ p.registry.slot = none ∨ call.status engine = .ok) := by
  obtain ⟨body, hborrows⟩ := ClientBridge.borrows_of_calling hcalling
  rw [hborrows.evaluate]
  refine ⟨rfl, rfl, rfl, ?_⟩
  show (if p.registry.slot.isSome then Status.ok else call.status engine) = _ ↔ _
  cases p.registry.slot with
  | none => simp
  | some target => simp [eq_comm]

/-- In the small process, the client is told that there is no event function, and the last
status says that all is well. -/
theorem evaluation_lastStatus_lending :
    Lending.bridge.calling Lending.engine (.events 1) .zero [.zero] [.zero] 1 Lending.process =
        some Lending.eventCall ∧
      Lending.eventCall.status Lending.engine = .unresolvedBinding ∧
      ((Lending.bridge.evaluate Lending.engine (.events 1) .zero [.zero] [.zero] 1).start
        Lending.process).2.registry.lastStatus = .ok := by
  have hcalling := Lending.calling_events_eq
  obtain ⟨-, -, hstatus, -⟩ := evaluation_lastStatus Lending.engine Lending.bridge (.events 1)
    .zero [.zero] [.zero] 1 Lending.process Lending.eventCall hcalling
  exact ⟨hcalling, by decide +kernel, hstatus⟩

/-- So the last status is not always that of the callback of an evaluation. -/
theorem not_forall_evaluation_lastStatus :
    ¬ ∀ (bridge : ClientBridge) (request : Request) (p : Process Unit Unit)
        (call : PendingCallback Unit Unit),
      bridge.calling Lending.engine request .zero [.zero] [.zero] 1 p = some call →
      ((bridge.evaluate Lending.engine request .zero [.zero] [.zero] 1).start
        p).2.registry.lastStatus = call.status Lending.engine := by
  intro hall
  have hstatus := hall Lending.bridge (.events 1) Lending.process Lending.eventCall
    Lending.calling_events_eq
  revert hstatus
  decide +kernel

end CallbackBridge
