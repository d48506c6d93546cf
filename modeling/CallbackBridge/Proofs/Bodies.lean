/-
# What user code can rely on

User code may allocate, collect, bind and unbind any names, also its own, and call itself
and others.  As long as it leaves pins and views alone, the function and its arguments are
there at every point of its body and show the arguments of the invocation, and what it
returns is there until it was read (`bodies_upheld`).  So whatever the bridge reports as an
error of the host comes from the user code.
-/
import CallbackBridge.Proofs.CallSites
namespace CallbackBridge

open HostOperation

variable {F ω : Type} {I : Interface}

/-! ## Sessions of well-behaved code -/

/-- Steps are tame where all code leaves pins and views alone. -/
theorem HeapStep.tame {code : UserCode F I} {stack : List (Surroundings I ω)}
    {op : HostOperation ObjRef Rooted} {w w' : HeapWorld F ω}
    (h : HeapStep (Runner.ofStack code stack) op w w')
    (hcode : ∀ f args, (code f args).All HeapCommand.SparesRoots) :
    TameStep [] code stack op w w' := by
  refine ⟨h, fun hcalls => ?_⟩
  cases op with
  | call f views outcome =>
    refine h.sparesAll fun function _ v => ?_
    exact (runClosed_sparesAll []).runner (fun f args => (hcode f args).sparesNoNames) stack _ _ v
  | _ => exact hcalls.elim

/-- Calls keep what is held where no code undoes pins. -/
theorem HeapStep.held {code : UserCode F I} {stack : List (Surroundings I ω)}
    {op : HostOperation ObjRef Rooted} {w w' : HeapWorld F ω}
    (h : HeapStep (Runner.ofStack code stack) op w w')
    (hcode : ∀ f args, (code f args).All HeapCommand.KeepsPins) : HeldStep code stack op w w' := by
  refine ⟨h, fun hcalls => ?_⟩
  cases op with
  | call f views outcome =>
    rcases h.call with hcall | ⟨-, rfl⟩
    · have hbody : w.heap.KeepsHeld
          ((HeapWorld.call (Runner.ofStack code stack) f views).start w).2.heap :=
        (runClosed_keepsHeld (I := I)).call fun function _ =>
          (runClosed_keepsHeld (I := I)).runner hcode stack function.code views
      rw [hcall] at hbody
      exact hbody
    · exact .refl _
  | _ => exact hcalls.elim

/-- An invocation on a host that is backed by the heap leaves the bridge secured. -/
theorem Bridge.Secured.evaluate_backed {σ : Type} {code : UserCode F I}
    {stack : List (Surroundings I ω)} {host : HostRuntime σ ObjRef Rooted}
    {world : σ → HeapWorld F ω} {bridge : Bridge Rooted} {entry : Entry} {call : Invocation} {s : σ}
    (hcode : ∀ f args, (code f args).All HeapCommand.KeepsPins)
    (hhost : HeapBacked (Runner.ofStack code stack) host world)
    (hsecured : bridge.Secured (world s).heap)
    (room : (world (bridge.evaluate host entry call s).host).heap.table.Addressable) :
    (bridge.evaluate host entry call s).bridge.Secured
      (world (bridge.evaluate host entry call s).host).heap := by
  have hrun : HeldRun code stack (world s) (bridge.operations host entry call s)
      (world (bridge.evaluate host entry call s).host) :=
    (bridge.evaluate_traced host entry call s).chain.carries
      fun op s s' hop => (hhost op s s' hop).held hcode
  exact hsecured.evaluate hrun room

/-- **The bridge of a session is secured** as long as nobody else undoes pins. -/
theorem Reaches.secured_of_keepsPins {code : UserCode F I} {allowed : HeapCommand F I → Prop}
    {history : History} {session : Session (HeapWorld F ω) Rooted}
    (hcode : ∀ f args, (code f args).All HeapCommand.KeepsPins)
    (hallowed : ∀ command, allowed command → command.KeepsPins)
    (h : Reaches code allowed history session) (room : session.host.heap.table.Addressable) :
    session.bridge.Secured session.host.heap := by
  obtain ⟨hbuilt, hbegins, hcontinues⟩ := h
  induction hcontinues with
  | start =>
    have hbegun := hbegins.begun
    exact hbegun.secured (hbuilt.sound (hbegun.evolves.addressable room))
  | @client _ _ session surroundings stack program hcontinues hprogram ih =>
    have hstep : session.host.heap.KeepsHeld
        (HeapWorld.perform surroundings (Runner.ofStack code stack) program session.host).heap :=
      (runClosed_keepsHeld (I := I)).execute ((runClosed_keepsHeld (I := I)).runner hcode stack)
        surroundings (hprogram.mono hallowed) session.host
    exact (ih (hstep.evolves.addressable room)).keeps hstep room
  | elapses hcontinues hnext ih => exact ih room
  | @enters _ _ session host world s windows call entry stack hcontinues hhost hexpose ih =>
    have hheap : (world s).heap = session.host.heap := by
      rw [(HeapWorld.exposed_of_expose hexpose).1]
    have hforward := session.bridge.forward_evaluate hhost entry call s
    have room' := hforward.1.addressable room
    rw [hheap] at room'
    have hsecured : session.bridge.Secured (world s).heap := hheap ▸ ih room'
    exact hsecured.evaluate_backed hcode hhost room

/-- **The bridge of a session that can be reached is secured.** -/
theorem Reaches.secured {code : UserCode F I} {history : History}
    {session : Session (HeapWorld F ω) Rooted}
    (hcode : ∀ f args, (code f args).All HeapCommand.SparesRoots)
    (h : Reaches code HeapCommand.SparesRoots history session)
    (room : session.host.heap.table.Addressable) :
    session.bridge.Secured session.host.heap :=
  h.secured_of_keepsPins (fun f args => (hcode f args).mono fun _ => HeapCommand.SparesRoots.keepsPins)
    (fun _ => HeapCommand.SparesRoots.keepsPins) room

/-! ## Errors of the host -/

/-- Whatever the host reports comes from the call, or from reading its result. -/
theorem Answering.host_error {R K : Type} {f : R} {name : String} {views : StateViews R}
    {outLen : Nat} {res res' : Output} {ops : List (HostOperation R K)} {e : HostError}
    (h : Answering f name views outLen res ops (.error (.error (.host e))) res') :
    (ops = [.call f views (.error (.error e))] ∧ ∀ found, e ≠ .notCallable found) ∨
      ∃ r, ops = [.call f views (.ok r), .pin r, .read r (.error e)] := by
  generalize houtcome : (Except.error (.error (.host e)) : Outcome BridgeError Unit) = outcome at h
  cases h with
  | stopped stop =>
    refine Or.inl ?_
    cases stop with
    | panic message => cases houtcome
    | error e' => cases e' <;> cases houtcome <;> exact ⟨rfl, by simp⟩
  | @unread r e' =>
    refine Or.inr ⟨r, ?_⟩
    cases e' <;> cases houtcome <;> rfl
  | @refused _ values e' hcopy =>
    cases houtcome
    unfold copyOut at hcopy
    split at hcopy
    · cases hcopy
    · split at hcopy <;> cases hcopy
  | copied _ => cases houtcome

/-- Looking for the function reports no error of the host. -/
theorem Symbols.target_ne_host (symbols : Symbols Rooted) (names : BindingNames) (entry : Entry)
    (h : Heap F) (e : HostError) : symbols.target names entry h ≠ .error (.host e) := by
  unfold target Heap.callable
  split
  · split <;> simp
  · split
    · simp
    · split
      · simp
      · split <;> simp

section Invocation

variable {code : UserCode F I} {stack : List (Surroundings I ω)} {bridge : Bridge Rooted}
  {entry : Entry} {windows : Windows} {call : Invocation} {s : HeapWorld F ω}

/-- An error of the host is reported only after the function was called. -/
theorem exists_call_of_host_error {e : HostError} (hsecured : bridge.Secured s.heap)
    (houtcome : (bridge.evaluate (HeapWorld.runtime (Runner.ofStack code stack)) entry call
      s).outcome = .error (.error (.host e))) :
    ∃ pre moment post f views result,
      bridge.trace (HeapWorld.runtime (Runner.ofStack code stack)) entry call s =
        pre ++ moment :: post ∧ moment.operation = .call f views result := by
  cases hcheck : bridge.config.check entry call with
  | error e' =>
    rw [Bridge.evaluate_of_rejected hcheck] at houtcome
    cases houtcome
    exact (bridge.config.check_ne_host entry call e hcheck).elim
  | ok admission =>
    rcases evaluate_cases code stack hsecured hcheck with ⟨e', htarget, hunfound, -⟩ | hcalled
    · rw [houtcome] at hunfound
      cases hunfound
      exact (bridge.symbols.target_ne_host _ entry s.heap e htarget).elim
    · exact hcalled

/-! ## What user code can rely on -/

/-- What is there can be called, or the call says that it cannot. -/
theorem exists_function_of_call {run : Runner F ω} {f : ObjRef} {args : StateViews ObjRef}
    {w w' : HeapWorld F ω} {result : Outcome HostError ObjRef} (hlive : w.heap.isLive f)
    (hargs : ∀ arg ∈ args.toList, w.heap.isLive arg)
    (hstart : (HeapWorld.call run f args).start w = (result, w'))
    (hresult : ∀ found, result ≠ .error (.error (.notCallable found))) :
    ∃ function, w.heap.function f = .ok function := by
  rcases HeapWorld.call_cases run f args w with
    ⟨e', hf, heq⟩ | ⟨arg, harg, hdead, -⟩ | ⟨function, hf, -⟩
  · rw [heq] at hstart
    obtain ⟨rfl, -⟩ := Prod.mk.inj hstart
    obtain ⟨⟨object, pins⟩, hentry⟩ := Option.isSome_iff_exists.mp hlive
    simp only [Heap.function, Heap.entry, hentry] at hf
    cases object <;> cases hf <;> exact (hresult _ rfl).elim
  · rw [hargs arg harg] at hdead
    cases hdead
  · exact ⟨function, hf⟩

/-- What is reported as an error of the host is how the body ended, or what its result reads
as. -/
theorem CallSite.blameless {moment : Moment (HeapWorld F ω) ObjRef Rooted}
    {post : List (Moment (HeapWorld F ω) ObjRef Rooted)} {f : ObjRef} {views : StateViews ObjRef}
    {result : Outcome HostError ObjRef} {n outLen : Nat} {e : HostError} {res' : Output}
    {final : HeapWorld F ω}
    (h : CallSite bridge entry windows call s (.error (.error (.host e))) res' moment post f
      views result n outLen)
    (hstart : (HeapWorld.call (Runner.ofStack code stack) f views).start moment.before =
      (result, moment.after))
    (hafter : Chain (HeapWorld.runtime (Runner.ofStack code stack)) moment.after post final) :
    ∃ function, moment.before.heap.function f = .ok function ∧
      ((bodyEnd code stack function views moment.before).1 = .error (.error e) ∨
        ∃ r v, bodyEnd code stack function views moment.before = (.ok r, v) ∧
          v.heap.read v.memory r = .error e) := by
  obtain ⟨rest, closed, hpost, hanswering⟩ := h.answering
  obtain ⟨hlive, hargs⟩ := h.args_live
  rcases hanswering.host_error with ⟨heq, hcallable⟩ | ⟨r, heq⟩
  · -- the call has failed, with another error than that there is nothing to call
    simp only [List.cons.injEq, HostOperation.call.injEq, true_and] at heq
    obtain ⟨rfl, rfl⟩ := heq
    obtain ⟨function, hf⟩ := exists_function_of_call hlive hargs hstart fun found hfound => by
      cases hfound
      exact hcallable found rfl
    refine ⟨function, hf, ?_⟩
    obtain ⟨hresult, -⟩ := h.settles hf hstart
    rcases HeapWorld.settle_eq_error hresult.symm
        (bodyEnd code stack function views moment.before).2.memory with hend | ⟨r, hend, hread⟩
    · exact Or.inl hend
    · exact Or.inr ⟨r, _, Prod.ext hend rfl, hread⟩
  · -- the call has given a result that cannot be read
    simp only [List.cons.injEq, HostOperation.call.injEq, true_and] at heq
    obtain ⟨rfl, rfl⟩ := heq
    obtain ⟨function, hf⟩ := exists_function_of_call hlive hargs hstart (by simp)
    refine ⟨function, hf, Or.inr ?_⟩
    obtain ⟨hresult, hclosed⟩ := h.settles hf hstart
    obtain ⟨hend, -⟩ := HeapWorld.settle_eq_ok hresult.symm
    obtain ⟨later, -, hread⟩ := chain_of_returned hanswering hpost hafter
    simp only [List.cons.injEq, HostOperation.read.injEq, true_and, and_true] at hread
    refine ⟨r, _, Prod.ext hend rfl, ?_⟩
    rw [hread, hclosed]
    rfl

/-- What the body of the user function can rely on in an invocation with the given moments
and outcome. -/
structure Upheld (code : UserCode F I) (stack : List (Surroundings I ω)) (windows : Windows)
    (trace : List (Moment (HeapWorld F ω) ObjRef Rooted)) (outcome : Outcome BridgeError Unit) :
    Prop where
  /-- At every point of the body, the function and its arguments are there, and the
  arguments show what the solver has passed. -/
  arguments : ∀ {pre moment post f views result function v}, trace = pre ++ moment :: post →
    moment.operation = .call f views result → moment.before.heap.function f = .ok function →
    Visits code stack (code function.code views) (moment.before.update Heap.openScope) v →
    v.heap.table.Addressable →
    ∃ n, windows.ipar.stateLen = .ok n ∧ Attended windows n f views function v
  /-- What the body returns, if it is there then, is what the call gives; it is pinned next
  and read next, and it is there all along. -/
  result : ∀ {pre moment post f views result function r v}, trace = pre ++ moment :: post →
    moment.operation = .call f views result → moment.before.heap.function f = .ok function →
    bodyEnd code stack function views moment.before = (.ok r, v) → v.heap.isLive r →
    result = .ok r ∧ moment.after.heap.isLive r ∧ ∃ pinned rest, pinned.heap.isLive r ∧
      post = ⟨.pin r, moment.after, pinned⟩ ::
        ⟨.read r (v.heap.read v.memory r), pinned, pinned⟩ :: rest
  /-- What the bridge reports as an error of the host is how the body ended, or what its
  result reads as when the body returns it. -/
  blameless : ∀ {e}, outcome = .error (.error (.host e)) →
    ∃ pre moment post f views result function, trace = pre ++ moment :: post ∧
      moment.operation = .call f views result ∧
      moment.before.heap.function f = .ok function ∧
      ((bodyEnd code stack function views moment.before).1 = .error (.error e) ∨
        ∃ r v, bodyEnd code stack function views moment.before = (.ok r, v) ∧
          v.heap.read v.memory r = .error e)

/-- **User code can rely on its arguments and its result.** On the managed heap, with any
setting of its collector, any strategy and any way to look names up, after any history, and
whatever the code does that leaves pins and views alone: at every point of the body, nested
calls included, the function and its arguments are there and the arguments show exactly what
the solver has passed; what the body returns is there until it was read; and no error of the
host is the bridge's own.  References are 32-bit words, so this holds as long as the heap has
no more places than there are numbers. -/
theorem bodies_upheld {history : History} {session : Session (HeapWorld F ω) Rooted}
    (hcode : ∀ f args, (code f args).All HeapCommand.SparesRoots)
    (hreaches : Reaches code HeapCommand.SparesRoots history session)
    (hexpose : session.host.expose windows = (call, s))
    (room : (session.bridge.evaluate (HeapWorld.runtime (Runner.ofStack code stack)) entry call
      s).host.heap.table.Addressable) :
    Upheld code stack windows
      (session.bridge.trace (HeapWorld.runtime (Runner.ofStack code stack)) entry call s)
      (session.bridge.evaluate (HeapWorld.runtime (Runner.ofStack code stack)) entry call
        s).outcome := by
  obtain ⟨hheap, hexposed⟩ := HeapWorld.exposed_of_expose hexpose
  have hforward := session.bridge.forward_evaluate
    (heapBacked_runtime (Runner.ofStack code stack)) entry call s
  have hsecured : session.bridge.Secured s.heap := by
    have room' := hforward.1.addressable room
    rw [hheap] at room' ⊢
    exact hreaches.secured hcode room'
  have hspares : ∀ f args, (code f args).All fun command =>
      command.SparesRoots ∧ command.SparesNames [] := fun f args => (hcode f args).sparesNoNames
  refine ⟨?_, ?_, ?_⟩
  · intro pre moment post f views result function v htrace hcall hf hvisits room'
    obtain ⟨-, -, n, outLen, hsite⟩ := callSite_of_trace hsecured hexposed htrace hcall room
    obtain ⟨kept, hready⟩ := hsite.atCall
    obtain ⟨m, hwindows⟩ := hsite.exposed
    obtain ⟨hbody, hmemory⟩ := hvisits.spares hspares (hspares _ _)
    exact ⟨n, hsite.stateLen, hready.attended hwindows hf ((Heap.Spares.openScope _).trans hbody)
      hmemory room'⟩
  · intro pre moment post f views result function r v htrace hcall hf hend hlive
    obtain ⟨hstart, hafter, n, outLen, hsite⟩ :=
      callSite_of_trace hsecured hexposed htrace hcall room
    obtain ⟨hresult, hthere, hnext, -⟩ := hsite.result_upheld hf hstart hafter hend hlive
    exact ⟨hresult, hthere, hnext⟩
  · intro e houtcome
    obtain ⟨pre, moment, post, f, views, result, htrace, hcall⟩ :=
      exists_call_of_host_error hsecured houtcome
    obtain ⟨hstart, hafter, n, outLen, hsite⟩ :=
      callSite_of_trace hsecured hexposed htrace hcall room
    rw [houtcome] at hsite
    obtain ⟨function, hf, hend⟩ := hsite.blameless hstart hafter
    exact ⟨pre, moment, post, f, views, result, function, htrace, hcall, hf, hend⟩

end Invocation

/-- The second invocation of the small session, on the views that the first one has kept. -/
theorem bodies_upheld_echo :
    (Echo.served.bridge.evaluate (HeapWorld.runtime Echo.run) .residual Echo.again.1
      Echo.again.2).outcome = .ok () ∧
    Upheld Echo.code [Echo.surroundings] Echo.windows
      (Echo.served.bridge.trace (HeapWorld.runtime Echo.run) .residual Echo.again.1 Echo.again.2)
      (Echo.served.bridge.evaluate (HeapWorld.runtime Echo.run) .residual Echo.again.1
        Echo.again.2).outcome := by
  refine ⟨by decide +kernel, ?_⟩
  refine bodies_upheld (Echo.all_code (fun _ => trivial) fun _ => trivial) (Echo.reaches _)
    (show Echo.served.host.expose Echo.windows = (Echo.again.1, Echo.again.2) from rfl) ?_
  decide +kernel

end CallbackBridge
