/-
# The moment of the call

On the managed heap an invocation whose arguments are accepted calls the function, unless
there is none (`evaluate_cases`).  What is known of that moment is a `CallSite`: the
function and its arguments are pinned, and what the solver gets in the end depends on how
the body ends.
-/
import CallbackBridge.Proofs.Lifetimes
namespace CallbackBridge

open HostOperation

variable {F ω : Type} {I : Interface}

/-! ## Secured sessions -/

/-- A session begins secured. -/
theorem Begun.secured {w : HeapWorld F ω} {session : Session (HeapWorld F ω) Rooted}
    (h : Begun w session) (hs : w.heap.table.Sound) :
    session.bridge.Secured session.host.heap := by
  have hnothing : w.heap.Holds [] := ⟨hs, by simp⟩
  cases h with
  | perCall => exact ⟨hnothing, .nil, by simp [Bridge.start, keptRefs]⟩
  | @bound config bindings hlive =>
    refine ⟨?_, .nil, by simp [Bridge.start, keptRefs]⟩
    have hfirst := hnothing.pin (hlive .residual _ rfl)
    show (w.heap.pinAll bindings).Holds ([] ++ (Symbols.bound bindings).owed)
    unfold Heap.pinAll Symbols.owed
    cases hevent : bindings.event with
    | none => simpa only [hevent, Option.map_none, Option.toList_none, List.nil_append] using hfirst
    | some event =>
      have hthere : (w.heap.pin bindings.residual.ref).isLive event.ref := by
        rw [Heap.isLive_pin]
        exact hlive .event event hevent
      simpa only [hevent, Option.map_some, Option.toList_some, List.nil_append] using
        (hfirst.pin hthere).perm (List.Perm.swap _ _ _)

/-- Code that leaves pins and views alone leaves a bridge secured. -/
theorem Bridge.Secured.spares {names : List String} {bridge : Bridge Rooted} {h h' : Heap F}
    (hsecured : bridge.Secured h) (hspares : Heap.Spares names h h')
    (room : h'.table.Addressable) : bridge.Secured h' where
  holds := hsecured.holds.spares hspares room
  distinct := hsecured.distinct
  views r hr := by
    obtain ⟨view, pins, hentry⟩ := hsecured.views r hr
    obtain ⟨e, he, hpins⟩ := hsecured.holds.exists_pins (List.mem_append_left _ hr)
    cases hentry.symm.trans he
    exact ⟨view, pins, hspares.kept room hsecured.holds.sound hentry (Or.inl hpins)⟩

/-- Whatever keeps what is held leaves a bridge secured. -/
theorem Bridge.Secured.keeps {bridge : Bridge Rooted} {h h' : Heap F}
    (hsecured : bridge.Secured h) (hkeeps : h.KeepsHeld h') (room : h'.table.Addressable) :
    bridge.Secured h' where
  holds := hkeeps.holds room hsecured.holds
  distinct := hsecured.distinct
  views r hr := (hsecured.views r hr).evolves hkeeps.evolves room hsecured.holds.sound
    ((hkeeps.holds room hsecured.holds).isLive (List.mem_append_left _ hr))

/-- An invocation whose calls keep what is held leaves the bridge secured. -/
theorem Bridge.Secured.evaluate {σ : Type} {code : UserCode F I}
    {stack : List (Surroundings I ω)} {host : HostRuntime σ ObjRef Rooted}
    {world : σ → HeapWorld F ω} {bridge : Bridge Rooted} {entry : Entry} {call : Invocation}
    {s : σ} (hsecured : bridge.Secured (world s).heap)
    (hrun : HeldRun code stack (world s) (bridge.operations host entry call s)
      (world (bridge.evaluate host entry call s).host))
    (room : (world (bridge.evaluate host entry call s).host).heap.table.Addressable) :
    (bridge.evaluate host entry call s).bridge.Secured
      (world (bridge.evaluate host entry call s).host).heap := by
  have hconducted := bridge.evaluate_traced host entry call s
  cases hcheck : bridge.config.check entry call with
  | error e =>
    rw [Bridge.evaluate_of_rejected hcheck]
    exact hsecured
  | ok admission =>
    obtain ⟨opening, hopening, hops⟩ := hconducted.admitted admission hcheck
    rw [hops] at hrun
    exact hopening.secured (bridge.config_symbols_evaluate host entry call s).2 hsecured hrun room

/-! ## What the body finds -/

/-- A reference that can be called leads to the function. -/
theorem Heap.entry?_of_function {h : Heap F} {f : ObjRef} {function : NativeFunction F}
    (hf : h.function f = .ok function) : ∃ pins, h.entry? f = some ⟨.function function, pins⟩ := by
  unfold Heap.function at hf
  rcases HeapWorld.entry_cases h f with ⟨⟨object, pins⟩, hentry, hok⟩ | ⟨-, hstale⟩
  · rw [hok] at hf
    cases object with
    | function f =>
      cases hf
      exact ⟨pins, hentry⟩
    | _ => cases hf
  · rw [hstale] at hf
    cases hf

/-- A reference that leads to a function can be called. -/
theorem Heap.function_eq_ok {h : Heap F} {f : ObjRef} {function : NativeFunction F} {pins : Nat}
    (hentry : h.entry? f = some ⟨.function function, pins⟩) : h.function f = .ok function := by
  simp only [Heap.function, Heap.entry, hentry]
  rfl

/-- Code that leaves pins alone leaves a function that is held as it is. -/
theorem Heap.Holds.function_spares {names : List String} {h h' : Heap F} {owed : List ObjRef}
    {f : ObjRef} {function : NativeFunction F} (hholds : h.Holds owed) (hmem : f ∈ owed)
    (hf : h.function f = .ok function) (hspares : Heap.Spares names h h')
    (room : h'.table.Addressable) : h'.function f = .ok function := by
  obtain ⟨pins, hentry⟩ := Heap.entry?_of_function hf
  obtain ⟨e, he, hpins⟩ := hholds.exists_pins hmem
  cases hentry.symm.trans he
  exact Heap.function_eq_ok (hspares.kept room hholds.sound hentry (Or.inl hpins))

/-- The function and its arguments are there, and the arguments show what the solver has
passed. -/
structure Attended (windows : Windows) (n : Nat) (f : ObjRef) (views : StateViews ObjRef)
    (function : NativeFunction F) (v : HeapWorld F ω) : Prop where
  /-- The function can be called. -/
  function_eq : v.heap.function f = .ok function
  /-- The arguments are there. -/
  live : ∀ view ∈ views.toList, v.heap.isLive view
  /-- The time is a single number. -/
  read_t : v.heap.read v.memory views.t = .ok (windows.t.take 1)
  /-- The state has one number for each variable. -/
  read_y : v.heap.read v.memory views.y = .ok (windows.y.take n)
  /-- So has the derivative. -/
  read_yp : v.heap.read v.memory views.yp = .ok (windows.yp.take n)

/-- Whatever leaves pins and views alone leaves the function and its arguments alone. -/
theorem AtCall.attended {names : List String} {bridge : Bridge Rooted} {entry : Entry}
    {call : Invocation} {n : Nat} {kept : Option (StateViews Rooted)} {f : ObjRef}
    {views : StateViews ObjRef} {function : NativeFunction F} {windows : Windows} {m : Memory}
    {w u v : HeapWorld F ω} (h : AtCall bridge entry (call.leading n) kept f views w u)
    (hexposed : Exposed windows m call u.memory) (hf : u.heap.function f = .ok function)
    (hspares : u.heap.Spares names v.heap) (hmemory : v.memory = u.memory)
    (room : v.heap.table.Addressable) : Attended windows n f views function v := by
  -- function and arguments are pinned, so code that spares pins leaves them as they are
  have hmem : ∀ view ∈ views.toList,
      view ∈ keptRefs kept ++ (views.toList ++ f :: bridge.symbols.owed) := fun view hview =>
    List.mem_append_right _ (List.mem_append_left _ hview)
  have hshow : ∀ {view buffer}, view ∈ views.toList → u.heap.Shows view buffer →
      v.heap.Shows view buffer := fun hview hshows =>
    hshows.spares h.holds (hmem _ hview) hspares room
  obtain ⟨ht, hy, hyp⟩ := StateViews.forall₂_toList.mp h.shows
  have ht := hshow (StateViews.mem_toList.mpr (Or.inl rfl)) ht
  have hy := hshow (StateViews.mem_toList.mpr (Or.inr (Or.inl rfl))) hy
  have hyp := hshow (StateViews.mem_toList.mpr (Or.inr (Or.inr rfl))) hyp
  refine ⟨?_, fun view hview => ?_, ?_, ?_, ?_⟩
  · exact h.holds.function_spares (by simp) hf hspares room
  · exact (h.holds.spares hspares room).isLive (hmem view hview)
  · rw [ht.read, hmemory]
    exact congrArg (fun values => Except.ok (List.take 1 values)) hexposed.read_t
  · rw [hy.read, hmemory]
    exact congrArg (fun values => Except.ok (List.take n values)) hexposed.read_y
  · rw [hyp.read, hmemory]
    exact congrArg (fun values => Except.ok (List.take n values)) hexposed.read_yp

/-! ## The moment of the call -/

section Invocation

variable {code : UserCode F I} {stack : List (Surroundings I ω)} {bridge : Bridge Rooted}
  {entry : Entry} {windows : Windows} {call : Invocation} {m : Memory} {s : HeapWorld F ω}

/-- What is known of the moment in which the function is called. -/
structure CallSite (bridge : Bridge Rooted) (entry : Entry) (windows : Windows)
    (call : Invocation) (s : HeapWorld F ω) (outcome : Outcome BridgeError Unit) (res' : Output)
    (moment : Moment (HeapWorld F ω) ObjRef Rooted)
    (post : List (Moment (HeapWorld F ω) ObjRef Rooted)) (f : ObjRef) (views : StateViews ObjRef)
    (result : Outcome HostError ObjRef) (n outLen : Nat) : Prop where
  /-- The declared number of state variables. -/
  stateLen : windows.ipar.stateLen = .ok n
  /-- The number of values that are asked for. -/
  outputLen : entry.outputLen bridge.config windows.ipar n = .ok outLen
  /-- Solver memory shows the windows. -/
  exposed : ∃ m, Exposed windows m call moment.before.memory
  /-- The function and its arguments are pinned. -/
  atCall : ∃ kept, AtCall bridge entry (call.leading n) kept f views s moment.before
  /-- What has happened before brings nothing back to life. -/
  forward : s.Forward moment.before
  /-- What follows depends on how the call ends. -/
  answering : ∃ rest closed, post.map Moment.operation = rest ++ closed ∧
    Answering f (bridge.config.names.reported entry) views outLen windows.res
      (.call f views result :: rest) outcome res'

/-- The moment in which the function is called. -/
theorem callSite_of_trace {pre post : List (Moment (HeapWorld F ω) ObjRef Rooted)}
    {moment : Moment (HeapWorld F ω) ObjRef Rooted} {f : ObjRef} {views : StateViews ObjRef}
    {result : Outcome HostError ObjRef} (hsecured : bridge.Secured s.heap)
    (hexposed : Exposed windows m call s.memory)
    (htrace : bridge.trace (HeapWorld.runtime (Runner.ofStack code stack)) entry call s =
      pre ++ moment :: post)
    (hcall : moment.operation = .call f views result)
    (room : (bridge.evaluate (HeapWorld.runtime (Runner.ofStack code stack)) entry call
      s).host.heap.table.Addressable) :
    (HeapWorld.call (Runner.ofStack code stack) f views).start moment.before =
        (result, moment.after) ∧
      Chain (HeapWorld.runtime (Runner.ofStack code stack)) moment.after post
        (bridge.evaluate (HeapWorld.runtime (Runner.ofStack code stack)) entry call s).host ∧
      ∃ n outLen, CallSite bridge entry windows call s
        (bridge.evaluate (HeapWorld.runtime (Runner.ofStack code stack)) entry call s).outcome
        (bridge.evaluate (HeapWorld.runtime (Runner.ofStack code stack)) entry call s).res
        moment post f views result n outLen := by
  have hconducted := bridge.evaluate_traced (HeapWorld.runtime (Runner.ofStack code stack)) entry
    call s
  have hchain := hconducted.chain
  rw [htrace] at hchain
  obtain ⟨u, hbefore, rfl, hperforms, hafter⟩ := hchain.split
  rw [hcall] at hperforms
  have hbackward : ∀ op s s',
      op.Performs (HeapWorld.runtime (Runner.ofStack code stack)) s s' →
        HeapStep (Runner.ofStack code stack) op s s' := fun _ _ _ hop => Or.inl hop
  have hrun : HeapRun code stack s (pre.map Moment.operation) moment.before :=
    hbefore.carries (g := id) hbackward
  have hlater : HeapRun code stack moment.after (post.map Moment.operation) _ :=
    hafter.carries (g := id) hbackward
  -- the heap only grows, so there was room at the call
  have room' := (hbackward _ _ _ hperforms).forward.1.addressable
    (hlater.forward.1.addressable room)
  refine ⟨hperforms, hafter, ?_⟩
  cases hcheck : bridge.config.check entry call with
  | error e =>
    have hnone := hconducted.rejected e hcheck
    simp [Bridge.operations, htrace] at hnone
  | ok admission =>
    obtain ⟨n, haccepted⟩ := BridgeConfig.accepted_of_check hcheck
    obtain ⟨opening, hopening, hops⟩ := hconducted.admitted admission hcheck
    simp only [Bridge.operations, htrace, List.map_append, List.map_cons, hcall] at hops
    obtain ⟨looking, viewing, rest, hpre, hpost, hlookup, hviewing, hanswering⟩ :=
      hopening.exists_call hops.symm
    rw [hpre] at hrun
    rw [haccepted.buffers] at hviewing
    rw [hexposed.res] at hanswering
    refine ⟨n, admission.outLen, ?_, ?_, ⟨m, ?_⟩,
      ⟨_, atCall_of_viewing hsecured hlookup hviewing hrun room'⟩, hrun.forward,
      ⟨rest, _, hpost, hanswering⟩⟩
    · rw [← hexposed.ipar]
      exact haccepted.stateLen
    · rw [← hexposed.ipar]
      exact haccepted.outputLen
    · rw [hrun.forward.2]
      exact hexposed

variable (code stack) in
/-- On the heap, arguments that are accepted lead to the call of the function, unless there is
no function to call. -/
theorem evaluate_cases {admission : Admission} (hsecured : bridge.Secured s.heap)
    (hcheck : bridge.config.check entry call = .ok admission) :
    (∃ e, bridge.symbols.target bridge.config.names entry s.heap = .error e ∧
      (bridge.evaluate (HeapWorld.runtime (Runner.ofStack code stack)) entry call s).outcome =
        .error (.error e) ∧
      (bridge.evaluate (HeapWorld.runtime (Runner.ofStack code stack)) entry call s).res =
        call.res) ∨
    ∃ pre moment post f views result,
      bridge.trace (HeapWorld.runtime (Runner.ofStack code stack)) entry call s =
        pre ++ moment :: post ∧ moment.operation = .call f views result := by
  have hconducted := bridge.evaluate_traced (HeapWorld.runtime (Runner.ofStack code stack)) entry
    call s
  obtain ⟨opening, hopening, hops⟩ := hconducted.admitted admission hcheck
  have hrun : Carries (fun op => op.Performs (HeapWorld.runtime (Runner.ofStack code stack))) s
      ((bridge.trace _ entry call s).map Moment.operation) _ := hconducted.chain.performs
  rw [show (bridge.trace _ entry call s).map Moment.operation = _ from hops] at hrun
  obtain ⟨u, hrun, -⟩ := carries_append.mp hrun
  generalize (bridge.evaluate _ entry call s).outcome = outcome at hopening ⊢
  generalize (bridge.evaluate _ entry call s).bridge.reusable = kept at hopening
  generalize (bridge.evaluate _ entry call s).res = res' at hopening ⊢
  cases hopening with
  | unfound hlookup => exact Or.inl ⟨_, hlookup.target_of_error hrun, rfl, rfl⟩
  | unseen hlookup hviewing =>
    obtain ⟨views, hviews⟩ := exists_views hsecured hlookup hviewing hrun
    cases hviews
  | @asked looking viewing asking f views _ _ _ hlookup hviewing hanswering =>
    obtain ⟨result, rest, rfl, -⟩ := hanswering.exists_call
    have hsplit : (bridge.trace (HeapWorld.runtime (Runner.ofStack code stack)) entry call
        s).map Moment.operation = (looking ++ .pin f :: viewing) ++ .call f views result ::
          (rest ++ closing (looking ++ .pin f :: (viewing ++ .call f views result :: rest))) := by
      rw [show (bridge.trace _ entry call s).map Moment.operation = _ from hops]
      simp
    obtain ⟨pre, later, htrace, -, hlater⟩ := List.map_eq_append_iff.mp hsplit
    obtain ⟨moment, post, rfl, hcall, -⟩ := List.map_eq_cons_iff.mp hlater
    exact Or.inr ⟨pre, moment, post, f, views, result, htrace, hcall⟩

/-! ## The end of the call -/

/-- How the body of a function ends that is called. -/
def bodyEnd (code : UserCode F I) (stack : List (Surroundings I ω))
    (function : NativeFunction F) (views : StateViews ObjRef) (u : HeapWorld F ω) :
    Outcome HostError ObjRef × HeapWorld F ω :=
  (Runner.ofStack code stack function.code views).start (u.update Heap.openScope)

variable {outcome : Outcome BridgeError Unit} {res' : Output}
  {moment : Moment (HeapWorld F ω) ObjRef Rooted}
  {post : List (Moment (HeapWorld F ω) ObjRef Rooted)} {f r : ObjRef} {views : StateViews ObjRef}
  {result : Outcome HostError ObjRef} {n outLen : Nat} {function : NativeFunction F}
  {final : HeapWorld F ω}

/-- The arguments of the function that is called are there. -/
theorem CallSite.args_live
    (h : CallSite bridge entry windows call s outcome res' moment post f views result n outLen) :
    moment.before.heap.isLive f ∧ ∀ view ∈ views.toList, moment.before.heap.isLive view := by
  obtain ⟨kept, hcall⟩ := h.atCall
  exact ⟨hcall.holds.isLive (by simp), fun view hview =>
    hcall.holds.isLive (List.mem_append_right _ (List.mem_append_left _ hview))⟩

/-- How a call ends whose body has ended. -/
theorem CallSite.settles
    (h : CallSite bridge entry windows call s outcome res' moment post f views result n outLen)
    (hf : moment.before.heap.function f = .ok function)
    (hstart : (HeapWorld.call (Runner.ofStack code stack) f views).start moment.before =
      (result, moment.after)) :
    result = HeapWorld.settle (bodyEnd code stack function views moment.before).1
        (bodyEnd code stack function views moment.before).2.heap ∧
      moment.after = (bodyEnd code stack function views moment.before).2.update
        Heap.closeScope := by
  rw [HeapWorld.start_call_entered _ hf h.args_live.2] at hstart
  obtain ⟨hresult, hafter⟩ := Prod.mk.inj hstart
  exact ⟨hresult.symm, hafter.symm⟩

/-- After a call that returns, the result is pinned and read, and both find it as the call
has left it. -/
theorem chain_of_returned {run : Runner F ω} {w : HeapWorld F ω} {name : String} {res : Output}
    {rest closed : List (HostOperation ObjRef Rooted)}
    (hanswering : Answering f name views outLen res (.call f views (.ok r) :: rest) outcome res')
    (hpost : post.map Moment.operation = rest ++ closed)
    (hchain : Chain (HeapWorld.runtime run) w post final) :
    ∃ later, post = ⟨.pin r, w, w.update fun h => h.pin r⟩ ::
        ⟨.read r (w.heap.read w.memory r), w.update fun h => h.pin r,
          w.update fun h => h.pin r⟩ :: later ∧
      rest = [.pin r, .read r (w.heap.read w.memory r)] := by
  rcases hanswering.disciplined with ⟨stop, heq⟩ | ⟨value, result, heq⟩
  · cases heq
  · cases heq
    obtain ⟨first, post, rfl, hpin, hpost⟩ := List.map_eq_cons_iff.mp hpost
    obtain ⟨second, post, rfl, hread, -⟩ := List.map_eq_cons_iff.mp hpost
    obtain ⟨rfl, hpinned, hbefore, hdone, -⟩ := hchain
    rw [hpin] at hpinned
    rw [hread] at hdone
    obtain ⟨operation, before, after⟩ := first
    obtain ⟨operation', before', after'⟩ := second
    simp only at hpin hread hpinned hbefore hdone
    subst hpin hread hbefore
    cases hpinned
    obtain ⟨rfl, rfl⟩ := Prod.mk.inj hdone
    have hsame : (before.update fun h => h.pin r).heap.read before.memory r =
        before.heap.read before.memory r := before.heap.read_pin _ _ _
    exact ⟨post, by rw [← hsame]; rfl, by rw [← hsame]; rfl⟩

/-- What the body returns is what the call gives; it is pinned and read next, and what is read
is delivered. -/
theorem CallSite.result_upheld {v : HeapWorld F ω}
    (h : CallSite bridge entry windows call s outcome res' moment post f views result n outLen)
    (hf : moment.before.heap.function f = .ok function)
    (hstart : (HeapWorld.call (Runner.ofStack code stack) f views).start moment.before =
      (result, moment.after))
    (hafter : Chain (HeapWorld.runtime (Runner.ofStack code stack)) moment.after post final)
    (hend : bodyEnd code stack function views moment.before = (.ok r, v))
    (hlive : v.heap.isLive r) :
    result = .ok r ∧ moment.after.heap.isLive r ∧
      (∃ pinned rest, pinned.heap.isLive r ∧
        post = ⟨.pin r, moment.after, pinned⟩ ::
          ⟨.read r (v.heap.read v.memory r), pinned, pinned⟩ :: rest) ∧
      Answering (K := Rooted) f (bridge.config.names.reported entry) views outLen windows.res
        [.call f views (.ok r), .pin r, .read r (v.heap.read v.memory r)] outcome res' := by
  obtain ⟨hresult, hclosed⟩ := h.settles hf hstart
  rw [hend] at hresult hclosed
  simp only [HeapWorld.settle, hlive, if_true] at hresult
  obtain ⟨rest, closed, hpost, hanswering⟩ := h.answering
  rw [hresult] at hanswering
  obtain ⟨later, hlater, hrest⟩ := chain_of_returned hanswering hpost hafter
  -- closing a scope moves no entry
  have hread : moment.after.heap.read moment.after.memory r = v.heap.read v.memory r := by
    rw [hclosed]
    rfl
  have hthere : moment.after.heap.isLive r := by
    rw [hclosed]
    exact hlive
  rw [hread] at hlater hrest
  rw [hrest] at hanswering
  exact ⟨hresult, hthere,
    ⟨_, later, (moment.after.heap.isLive_pin r r).trans hthere, hlater⟩, hanswering⟩

end Invocation

end CallbackBridge
