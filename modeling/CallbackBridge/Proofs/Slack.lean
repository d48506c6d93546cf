/-
# What lies behind the declared lengths is never seen

The buffers of an invocation may be longer than the lengths that its parameters declare, there may
be more parameters than the entry point reads, and the output holds whatever it held before.  Two
invocations that differ in nothing but that end alike on the same bridge and the same heap, deliver
the same, and leave the same bridge, heap and surroundings; and in both of them user code gets to
see the same (`slack_unseen`).

* Worlds with heaps that show the same (`HeapWorld.Alike`) cannot be told apart by user code
  (`HeapWorld.coupling_alike`), nor by the operations of an invocation
  (`HeapWorld.runtime_alike`), whose views are retired when it ends.
* `Bridge.observations` is what user code gets to see in an invocation, written down by a machine
  that otherwise does what the machine without notes does (`Bridge.evaluate_observed`).
-/
import CallbackBridge.Proofs.AlikeHeaps
import CallbackBridge.Proofs.PairedBridges
import CallbackBridge.Proofs.Sessions
namespace CallbackBridge

variable {F ω : Type} {I : Interface} {m m' : Memory} {moved : Prop}

/-! ## Worlds that show the same -/

/-- Two worlds with memories of their own, in which the heaps show the same. -/
structure HeapWorld.Alike (m m' : Memory) (moved : Prop) (pending views : List ObjRef)
    (w w' : HeapWorld F ω) : Prop where
  /-- The first memory. -/
  memory : w.memory = m
  /-- The second memory. -/
  memory' : w'.memory = m'
  /-- The heaps show the same. -/
  heap : w.heap.Alike m m' moved pending views w'.heap
  /-- The surroundings are in the same state. -/
  outside : w.outside = w'.outside

/-- If user code makes a view itself, that shows the same in both memories. -/
def HeapCommand.ShowsSame (m m' : Memory) : HeapCommand F I → Prop
  | materialize buffer => buffer.values m = buffer.values m'
  | repoint _ buffer => buffer.values m = buffer.values m'
  | _ => True

namespace HeapWorld

variable {pending pending' views views' : List ObjRef}

/-- A step on the heaps alone. -/
theorem alongside_onHeap {α : Type} {step : Heap F → α × Heap F}
    (hstep : ∀ {h h' : Heap F}, h.Alike m m' moved pending views h' →
      Agree (Heap.Alike m m' moved pending views) (step h) (step h')) :
    Alongside (HeapWorld.Alike (ω := ω) m m' moved pending views) (onHeap step) (onHeap step) := by
  intro w w' hrel
  obtain ⟨heq, hheap⟩ := hstep hrel.heap
  exact ⟨heq, hrel.memory, hrel.memory', hheap, hrel.outside⟩

/-- A change of the heaps alone. -/
theorem Alike.update {w w' : HeapWorld F ω} (hrel : w.Alike m m' moved pending views w')
    {step : Heap F → Heap F}
    (hstep : ∀ {h h' : Heap F}, h.Alike m m' moved pending views h' →
      (step h).Alike m m' moved pending' views' (step h')) :
    (w.update step).Alike m m' moved pending' views' (w'.update step) :=
  ⟨hrel.memory, hrel.memory', hstep hrel.heap, hrel.outside⟩

/-- The same is read, if no view is pending. -/
theorem Alike.read {w w' : HeapWorld F ω} (hrel : w.Alike m m' moved [] views w') (r : ObjRef) :
    w.heap.read w.memory r = w'.heap.read w'.memory r := by
  rw [hrel.memory, hrel.memory']
  exact hrel.heap.read List.not_mem_nil

/-- Views are pointed alike at windows that are alike. -/
theorem Alike.repoint {w w' : HeapWorld F ω} (hrel : w.Alike m m' moved pending views w')
    (r : ObjRef) {b b' : Buffer} (hbuffer : b.Alike m m' moved b')
    (hpending : ∀ q ∈ pending, q ≠ r → q ∈ pending') (hviews : views ⊆ views')
    (hnew : (moved ∧ r ∈ views') ∨ b = b') :
    Ended (fun _ => HeapWorld.Alike m m' moved pending' views')
      (HeapWorld.Alike m m' moved pending views) (HeapWorld.repoint r b w)
      (HeapWorld.repoint r b' w') := by
  unfold HeapWorld.repoint
  rcases hrel.heap.repoint r hbuffer hpending hviews hnew with
    ⟨e, herror, herror'⟩ | ⟨k, k', hok, hok', halike⟩
  · rw [herror, herror']
    exact ⟨rfl, nofun, fun _ _ => hrel⟩
  · rw [hok, hok']
    exact ⟨rfl, fun _ _ => ⟨hrel.memory, hrel.memory', halike, hrel.outside⟩, nofun⟩

/-- **User code cannot tell such worlds apart**, unless it makes a view that does. -/
theorem coupling_alike (m m' : Memory) (moved : Prop) (views : List ObjRef) :
    Coupling (F := F) (I := I) (HeapCommand.ShowsSame m m') Eq
      (HeapWorld.Alike (ω := ω) m m' moved [] views) where
  plain := by
    rintro surroundings _ rfl run run' command hallowed henters
    have hsame := List.Subset.refl views
    cases command with
    | array values =>
      exact .total (alongside_onHeap fun halike => halike.alloc (.array values) hsame (.inr rfl))
    | text text =>
      exact .total (alongside_onHeap fun halike => halike.alloc (.text text) hsame (.inr rfl))
    | function f =>
      exact .total (alongside_onHeap fun halike => halike.alloc (.function f) hsame (.inr rfl))
    | define name value =>
      exact .total (alongside_onHeap fun halike => halike.define name value)
    | undefine name => exact .total (alongside_onHeap fun halike => halike.undefine name)
    | lookup name => exact .total fun w w' hrel => ⟨hrel.heap.lookup name, hrel⟩
    | read r => exact .total fun w w' hrel => ⟨hrel.read r, hrel⟩
    | inspect r => exact .total fun w w' hrel => ⟨hrel.heap.inspect r, hrel⟩
    | collect => exact .total (alongside_onHeap fun halike => halike.collect)
    | call f args => exact (henters trivial).elim
    | direct f args => exact (henters trivial).elim
    | pin r => exact .total fun w w' hrel => ⟨rfl, hrel.update fun halike => halike.pin r⟩
    | unpin r => exact .total fun w w' hrel => ⟨rfl, hrel.update fun halike => halike.unpin r⟩
    | materialize buffer =>
      have hbuffer : buffer.Alike m m' moved buffer := ⟨rfl, rfl, hallowed, .inr rfl⟩
      exact .total (alongside_onHeap fun halike => halike.alloc hbuffer.view hsame (.inr rfl))
    | repoint r buffer =>
      have hbuffer : buffer.Alike m m' moved buffer := ⟨rfl, rfl, hallowed, .inr rfl⟩
      refine .total fun w w' hrel => ?_
      have hended := hrel.repoint r hbuffer (fun _ hq _ => hq) hsame (.inr rfl)
      exact ⟨hended.same, hended.related fun _ _ _ halike => halike⟩
    | retire r =>
      refine .total fun w w' hrel => ?_
      have hretired : (w.update fun h => h.retire r).Alike m m' moved [] views
          (w'.update fun h => h.retire r) :=
        hrel.update fun halike => (halike.mono (List.subset_cons_self r views)).retire
      exact ⟨rfl, hretired⟩
    | outside command =>
      rintro ⟨heap, memory, outside⟩ ⟨heap', memory', outside'⟩ hrel
      cases hrel.outside
      exact ⟨rfl, hrel.memory, hrel.memory', hrel.heap, rfl⟩
  function hrel := hrel.heap.function
  isLive hrel := hrel.heap.isLive
  openScope hrel := hrel.update Heap.Alike.openScope
  closeScope hrel := hrel.update Heap.Alike.closeScope

/-- **An invocation cannot tell such worlds apart**, if its user code cannot.  The views that it
makes of windows that are alike may be apart until they are retired. -/
theorem runtime_alike {run : Runner F ω}
    (hcall : ∀ views f args, (HeapWorld.call run f args).Coupled
      (HeapWorld.Alike m m' moved [] views) (HeapWorld.call run f args)) :
    (HeapWorld.runtime run).Coupling (HeapWorld.runtime run) (Buffer.Alike m m' moved) Rooted.ref
      (HeapWorld.Alike m m' moved) where
  supportsReuse := rfl
  resolve pending views name w w' hrel := ⟨hrel.heap.lookup name, hrel⟩
  isCallable pending views r w w' hrel :=
    ⟨congrArg (· == some "function") (hrel.heap.kind? r), hrel⟩
  typeName pending views r w w' hrel :=
    ⟨congrArg (Option.getD · "stale reference") (hrel.heap.kind? r), hrel⟩
  persist pending views r w w' hrel := ⟨rfl, hrel.update fun halike => halike.pin r⟩
  attach pending views handle w w' hrel := ⟨rfl, hrel⟩
  behind handle w := rfl
  call := hcall
  read views r w w' hrel := ⟨hrel.read r, hrel⟩
  pin r hrel := hrel.update fun halike => halike.pin r
  unpin r hrel := hrel.update fun halike => halike.unpin r
  materialize {pending views b b' w w'} hbuffer hrel := by
    have hviews : views ⊆ views ++ [(w.heap.materialize b).1] := List.subset_append_left _ _
    obtain ⟨hr, halike⟩ := hrel.heap.alloc hbuffer.view hviews <|
      hbuffer.moved_or_eq.imp (fun hmoved => ⟨hmoved, List.mem_append_right _ List.mem_cons_self⟩)
        fun heq => by rw [heq]
    refine ⟨congrArg Except.ok hr, ?_, nofun⟩
    rintro view ⟨⟩
    exact ⟨hrel.memory, hrel.memory', halike, hrel.outside⟩
  repoint {view pending views b b' w w'} hbuffer hrel :=
    hrel.repoint view hbuffer (fun _ hq hne => (List.mem_cons.mp hq).resolve_left hne)
      (List.subset_append_left _ _) <| hbuffer.moved_or_eq.imp_left fun hmoved =>
        ⟨hmoved, List.mem_append_right _ List.mem_cons_self⟩
  retire hrel := hrel.update Heap.Alike.retire

end HeapWorld

/-! ## What user code gets to see -/

/-- An invocation does the same, whether notes are written or not. -/
theorem HeapWorld.runtime_forgets (code : UserCode F I) (stack : List (Surroundings I ω)) :
    (HeapWorld.runtime (Runner.observed code stack)).Coupling
      (HeapWorld.runtime (Runner.ofStack code stack)) Eq Rooted.ref (fun _ _ => HeapWorld.Forgets)
      where
  supportsReuse := rfl
  resolve := by
    rintro pending views name w _ rfl
    exact ⟨rfl, rfl⟩
  isCallable := by
    rintro pending views r w _ rfl
    exact ⟨rfl, rfl⟩
  typeName := by
    rintro pending views r w _ rfl
    exact ⟨rfl, rfl⟩
  persist := by
    rintro pending views r w _ rfl
    exact ⟨rfl, rfl⟩
  attach := by
    rintro pending views handle w _ rfl
    exact ⟨rfl, rfl⟩
  behind handle w := rfl
  call _ f args :=
    Runner.coupling_forget.call (Runner.coupled_forget code stack) f args
  read := by
    rintro views r w _ rfl
    exact ⟨rfl, rfl⟩
  pin := by
    rintro pending views w _ r rfl
    rfl
  unpin := by
    rintro pending views w _ r rfl
    rfl
  materialize := by
    rintro pending views b _ w _ rfl rfl
    exact ⟨rfl, fun _ _ => rfl, nofun⟩
  repoint := by
    rintro view pending views b _ w _ rfl hrel
    exact .of_agree (Runner.alongside_repoint view b w _ hrel) fun _ _ hafter => hafter
  retire := by
    rintro pending view views w _ rfl
    rfl

namespace Bridge

/-- The views that an invocation points at its own buffers before anything is called. -/
def keptViews (bridge : Bridge Rooted) : List ObjRef :=
  bridge.config.strategy.pending Rooted.ref bridge.reusable

variable (code : UserCode F I) (stack : List (Surroundings I ω)) (bridge : Bridge Rooted)
  (entry : Entry) (call : Invocation) (w : HeapWorld F ω)

/-- The evaluation on a machine that writes down what user code gets to see. -/
def evaluateObserved : Evaluation (HeapWorld F (Noted F I ω)) Rooted :=
  bridge.evaluate (HeapWorld.runtime (Runner.observed code stack)) entry call (w.unnoted I)

/-- What user code gets to see in an invocation, the latest first. -/
def observations : List (Observation F I) :=
  (bridge.evaluateObserved code stack entry call w).host.outside.2

/-- **Nothing but the notes tells whether notes are written.** -/
theorem evaluate_observed {admission : Admission}
    (hcheck : bridge.config.check entry call = .ok admission) :
    Evaluation.Alike (fun w w' => ∃ _ : List ObjRef, HeapWorld.Forgets w w') admission.outLen
      (bridge.evaluateObserved code stack entry call w)
      (bridge.evaluate (HeapWorld.runtime (Runner.ofStack code stack)) entry call w) :=
  bridge.evaluate_alike (HeapWorld.runtime_forgets code stack) hcheck hcheck rfl ⟨rfl, rfl, rfl⟩ rfl

end Bridge

/-! ## Invocations that differ in slack only -/

/-- Two invocations, each in its memory, that agree on all that is declared. -/
structure Invocation.SameButSlack (entry : Entry) (m m' : Memory) (call call' : Invocation) :
    Prop where
  /-- The times are passed as the same argument. -/
  role_t : call.t.role = call'.t.role
  /-- So are the states. -/
  role_y : call.y.role = call'.y.role
  /-- So are the derivatives. -/
  role_yp : call.yp.role = call'.yp.role
  /-- The parameters that the entry point reads are the same. -/
  parameters : call.ipar.entries.take entry.parameterCount =
    call'.ipar.entries.take entry.parameterCount
  /-- The time is the same. -/
  time : (m.read call.t.region).take 1 = (m'.read call'.t.region).take 1
  /-- The states are the same in their declared length. -/
  state : ∀ n, call.ipar.stateLen = .ok n →
    (m.read call.y.region).take n = (m'.read call'.y.region).take n
  /-- So are the derivatives. -/
  derivative : ∀ n, call.ipar.stateLen = .ok n →
    (m.read call.yp.region).take n = (m'.read call'.yp.region).take n

/-- The buffers of two invocations are at the same addresses. -/
def Invocation.SamePlaces (call call' : Invocation) : Prop :=
  call.t.region = call'.t.region ∧ call.y.region = call'.y.region ∧
    call.yp.region = call'.yp.region

namespace Invocation.SameButSlack

variable {entry : Entry} {call call' : Invocation} {config : BridgeConfig}
  {admission admission' : Admission} {n n' : Nat}

/-- A parameter that is read is the same. -/
theorem parameter (h : SameButSlack entry m m' call call') {index : Nat}
    (hindex : index < entry.parameterCount) :
    call.ipar.entries[index]? = call'.ipar.entries[index]? := by
  have hsame := congrArg (fun entries : List Int => entries[index]?) h.parameters
  rwa [List.getElem?_take_of_lt hindex, List.getElem?_take_of_lt hindex] at hsame

/-- Such invocations are accepted with the same lengths. -/
theorem lengths (h : SameButSlack entry m m' call call')
    (haccepted : Accepted config entry call admission n)
    (haccepted' : Accepted config entry call' admission' n') :
    n = n' ∧ admission.outLen = admission'.outLen := by
  have hstate : LengthParameters.stateLenIndex < entry.parameterCount := by
    cases entry <;> decide
  have hout : entry.lengthIndex < entry.parameterCount := by
    cases entry <;> decide
  have hn := (LengthParameters.stateLen_eq_ok haccepted.stateLen).1
  have hlen := haccepted.declared
  rw [h.parameter hstate, (LengthParameters.stateLen_eq_ok haccepted'.stateLen).1] at hn
  rw [h.parameter hout, haccepted'.declared] at hlen
  exact ⟨(Int.ofNat.inj (Option.some.inj hn)).symm, (Int.ofNat.inj (Option.some.inj hlen)).symm⟩

/-- The windows that are accepted are alike. -/
theorem paired_leading (h : SameButSlack entry m m' call call')
    (hn : call.ipar.stateLen = .ok n) :
    StateViews.Paired (Buffer.Alike m m' (¬ call.SamePlaces call')) (call.leading n)
      (call'.leading n) := by
  have hplaces : ∀ {region region' : Region}, (call.SamePlaces call' → region = region') →
      ¬ call.SamePlaces call' ∨ region = region' := by
    intro region region' hregion
    by_cases hsame : call.SamePlaces call'
    · exact Or.inr (hregion hsame)
    · exact Or.inl hsame
  exact ⟨⟨h.role_t, rfl, h.time, hplaces fun hsame => hsame.1⟩,
    ⟨h.role_y, rfl, h.state n hn, hplaces fun hsame => hsame.2.1⟩,
    ⟨h.role_yp, rfl, h.derivative n hn, hplaces fun hsame => hsame.2.2⟩⟩

end Invocation.SameButSlack

/-! ## The two evaluations -/

/-- Two invocations cannot be told apart: by how they end, by what they deliver, by what user code
gets to see, or by what they leave. -/
structure Unseen (outLen : Nat) (unmoved : Prop)
    (result result' : Evaluation (HeapWorld F ω) Rooted) (seen seen' : List (Observation F I)) :
    Prop where
  /-- They end alike. -/
  outcome : result.outcome = result'.outcome
  /-- If they deliver, they deliver the same. -/
  output : result.outcome = .ok () → result.res.toList.take outLen = result'.res.toList.take outLen
  /-- User code gets to see the same. -/
  observations : seen = seen'
  /-- They leave the same bridge. -/
  bridge : result.bridge = result'.bridge
  /-- They leave the surroundings in the same state. -/
  outside : result.host.outside = result'.host.outside
  /-- They leave the same heap, if the buffers are at the same addresses or references have not run
  out. -/
  heap : unmoved ∨ result.host.heap.table.Addressable → result.host.heap = result'.host.heap

/-- The evaluations with notes end alike, and with the same notes. -/
theorem Invocation.SameButSlack.evaluateObserved {code : UserCode F I}
    {bridge : Bridge Rooted} {entry : Entry} {call call' : Invocation} {w : HeapWorld F ω}
    {admission admission' : Admission} (h : SameButSlack entry w.memory m' call call')
    (stack : List (Surroundings I ω))
    (hcheck : bridge.config.check entry call = .ok admission)
    (hcheck' : bridge.config.check entry call' = .ok admission')
    (houtLen : admission.outLen = admission'.outLen)
    (hheap : w.heap.ShowsSame w.memory m' bridge.keptViews)
    (hcode : ∀ f args, (code f args).All (HeapCommand.ShowsSame w.memory m')) :
    Evaluation.Alike (fun v v' => ∃ pending,
      v.Alike w.memory m' (¬ call.SamePlaces call') pending [] v') admission.outLen
      (bridge.evaluateObserved code stack entry call w)
      (bridge.evaluateObserved code stack entry call' { w with memory := m' }) := by
  obtain ⟨n, haccepted⟩ := BridgeConfig.accepted_of_check hcheck
  obtain ⟨n', haccepted'⟩ := BridgeConfig.accepted_of_check hcheck'
  obtain ⟨rfl, -⟩ := h.lengths haccepted haccepted'
  have hbuffers := h.paired_leading haccepted.stateLen
  rw [← haccepted.buffers, ← haccepted'.buffers] at hbuffers
  have hcoupling := fun views => HeapWorld.coupling_alike (F := F) (I := I) (ω := Noted F I ω)
    w.memory m' (¬ call.SamePlaces call') views
  have hrun : ∀ views f args, (Runner.observed code stack f args).Coupled
      (HeapWorld.Alike w.memory m' (¬ call.SamePlaces call') [] views)
      (Runner.observed code stack f args) := by
    intro views f args
    refine Runner.coupled_observed (hcoupling views) (fun observation v v' hrel => ?_) hcode stack
      f args
    refine ⟨hrel.memory, hrel.memory', hrel.heap, ?_⟩
    show (v.outside.1, observation :: v.outside.2) = (v'.outside.1, observation :: v'.outside.2)
    rw [hrel.outside]
  have hhost := HeapWorld.runtime_alike fun views => (hcoupling views).call (hrun views)
  have hstart : (w.unnoted I).Alike w.memory m' (¬ call.SamePlaces call') bridge.keptViews []
      (HeapWorld.unnoted I { w with memory := m' }) := ⟨rfl, rfl, hheap.alike _, rfl⟩
  exact bridge.evaluate_alike hhost hcheck hcheck' houtLen hbuffers hstart

/-- **What lies behind the declared lengths is never seen.**  Both invocations are accepted, and
agree on all that is declared.  They begin on the same heap, and each view there shows the same,
but for those that the bridge keeps: they are pointed at the invocation's own buffers before
anything is called, whatever an earlier invocation has left behind them.  User code may do what it
likes, but a view that it makes itself has to be of memory that is the same. -/
theorem slack_unseen (code : UserCode F I) (stack : List (Surroundings I ω))
    (bridge : Bridge Rooted) (entry : Entry) (call call' : Invocation) (w : HeapWorld F ω)
    (m' : Memory) (admission admission' : Admission)
    (hcheck : bridge.config.check entry call = .ok admission)
    (hcheck' : bridge.config.check entry call' = .ok admission')
    (hsame : Invocation.SameButSlack entry w.memory m' call call')
    (hheap : w.heap.ShowsSame w.memory m' bridge.keptViews)
    (hcode : ∀ f args, (code f args).All (HeapCommand.ShowsSame w.memory m')) :
    admission.outLen = admission'.outLen ∧
      Unseen admission.outLen (call.SamePlaces call')
        (bridge.evaluate (HeapWorld.runtime (Runner.ofStack code stack)) entry call w)
        (bridge.evaluate (HeapWorld.runtime (Runner.ofStack code stack)) entry call'
          { w with memory := m' })
        (bridge.observations code stack entry call w)
        (bridge.observations code stack entry call' { w with memory := m' }) := by
  obtain ⟨n, haccepted⟩ := BridgeConfig.accepted_of_check hcheck
  obtain ⟨n', haccepted'⟩ := BridgeConfig.accepted_of_check hcheck'
  obtain ⟨rfl, houtLen⟩ := hsame.lengths haccepted haccepted'
  refine ⟨houtLen, ?_⟩
  -- the machine that writes notes is compared with itself, and with the one that writes none
  have hnoted := hsame.evaluateObserved stack hcheck hcheck' houtLen hheap hcode
  have hfirst := bridge.evaluate_observed code stack entry call w hcheck
  have hsecond := bridge.evaluate_observed code stack entry call' { w with memory := m' } hcheck'
  rw [← houtLen] at hsecond
  have houtcome := hfirst.outcome.symm.trans (hnoted.outcome.trans hsecond.outcome)
  obtain ⟨-, hforgets⟩ := hfirst.host
  obtain ⟨-, hforgets'⟩ := hsecond.host
  obtain ⟨pending, hworlds⟩ := hnoted.host
  constructor
  case outcome => exact houtcome
  case output =>
    intro hok
    have hok' := hfirst.outcome.trans hok
    have hok'' := hnoted.outcome.symm.trans hok'
    exact (hfirst.output hok').symm.trans ((hnoted.output hok').trans (hsecond.output hok''))
  case observations => exact congrArg Prod.snd hworlds.outside
  case bridge => exact hfirst.bridge.symm.trans (hnoted.bridge.trans hsecond.bridge)
  case outside =>
    rw [← hforgets, ← hforgets']
    exact congrArg Prod.fst hworlds.outside
  case heap =>
    intro hroom
    rw [← hforgets] at hroom ⊢
    rw [← hforgets']
    exact hworlds.heap.eq_of_retired fun hmoved => hroom.resolve_left hmoved

/-! ## Slack in a small session -/

namespace Roomy

/-- Arguments for one state variable, and nothing behind them. -/
def tight : Windows := ⟨[.zero], [.one], [.half], ⟨[1]⟩, .fresh 1⟩

/-- The same arguments, with more behind each of them. -/
def roomy : Windows :=
  ⟨[.zero, .one], [.one, .canary], [.half, .canary, .zero], ⟨[1, -7]⟩,
    .ofList [.canary, .one, .canary]⟩

/-- The second invocation of the small session; the views that it keeps were made for two state
variables. -/
def second (windows : Windows) : Invocation × HeapWorld Unit Unit :=
  Echo.served.host.expose windows

/-- The memory that an object aliases, if it is a view that is not retired. -/
def region? {F : Type} : Object F → Option Region
  | .view view => view.region
  | _ => none

/-- How the second invocation ends. -/
def evaluation (windows : Windows) : Evaluation (HeapWorld Unit Unit) Rooted :=
  Echo.served.bridge.evaluate (HeapWorld.runtime Echo.run) .residual (second windows).1
    (second windows).2

/-- What user code gets to see in it. -/
def seen (windows : Windows) : List (Observation Unit Echo.interface) :=
  Echo.served.bridge.observations Echo.code [Echo.surroundings] .residual (second windows).1
    (second windows).2

/-- The invocations begin in worlds with memories of their own, and that are otherwise the same. -/
theorem second_roomy : { (second tight).2 with memory := (second roomy).2.memory } =
    (second roomy).2 := by
  have hexpose : ∀ w : HeapWorld Unit Unit,
      { (w.expose tight).2 with memory := (w.expose roomy).2.memory } = (w.expose roomy).2 :=
    fun _ => rfl
  exact hexpose Echo.served.host

/-- All views on that heap are retired. -/
theorem showsSame (m m' : Memory) (hidden : List ObjRef) :
    (second tight).2.heap.ShowsSame m m' hidden := by
  have hretired : ∀ slot ∈ (second tight).2.heap.table.slots, ∀ e ∈ slot.data,
      region? e.object = none := by
    decide +kernel
  intro r _ view pins hview
  obtain ⟨slot, hslot, -, hdata⟩ := Table.get?_eq_some_iff.mp hview
  have hregion : view.region = none := hretired slot (List.mem_of_getElem? hslot) _ hdata
  unfold ArrayView.read
  rw [hregion]

/-- The arguments differ in slack only. -/
theorem sameButSlack : Invocation.SameButSlack .residual (second tight).2.memory
    (second roomy).2.memory (second tight).1 (second roomy).1 := by
  have hlen : (second tight).1.ipar.stateLen = .ok 1 := by decide +kernel
  refine ⟨by decide +kernel, by decide +kernel, by decide +kernel, by decide +kernel,
    by decide +kernel, fun n hn => ?_, fun n hn => ?_⟩
  · cases hlen.symm.trans hn
    decide +kernel
  · cases hlen.symm.trans hn
    decide +kernel

end Roomy

/-- The second invocation of the small session answers the one state that it is passed, whatever
lies behind that. -/
theorem slack_unseen_roomy :
    (Roomy.evaluation Roomy.roomy).outcome = .ok () ∧
      (Roomy.evaluation Roomy.roomy).res = .ofList [.one, .one, .canary] ∧
      Unseen 1 ((Roomy.second Roomy.tight).1.SamePlaces (Roomy.second Roomy.roomy).1)
        (Roomy.evaluation Roomy.tight) (Roomy.evaluation Roomy.roomy) (Roomy.seen Roomy.tight)
        (Roomy.seen Roomy.roomy) := by
  refine ⟨by decide +kernel, by decide +kernel, ?_⟩
  have hcheck : Echo.served.bridge.config.check .residual (Roomy.second Roomy.tight).1 =
      .ok ⟨1, (Roomy.second Roomy.tight).1.leading 1⟩ := by decide +kernel
  have hcheck' : Echo.served.bridge.config.check .residual (Roomy.second Roomy.roomy).1 =
      .ok ⟨1, (Roomy.second Roomy.roomy).1.leading 1⟩ := by decide +kernel
  have hunseen := (slack_unseen Echo.code [Echo.surroundings] Echo.served.bridge .residual
    (Roomy.second Roomy.tight).1 (Roomy.second Roomy.roomy).1 (Roomy.second Roomy.tight).2
    (Roomy.second Roomy.roomy).2.memory _ _ hcheck hcheck' Roomy.sameButSlack
    (Roomy.showsSame _ _ _) (Echo.all_code (fun _ => trivial) fun _ => trivial)).2
  rw [Roomy.second_roomy] at hunseen
  exact hunseen

end CallbackBridge
