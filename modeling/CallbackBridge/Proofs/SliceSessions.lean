/-
# Sessions that serve functions of slices

A session whose names lead to functions of slices has no memory: however it came about and
whatever has happened in it, the next invocation does what one function of the settings,
the functions of slices, the entry point and the windows says (`Windows.reference`).

The invariant is `Serves`: the bridge is secured, and each entry point finds its function of
slices.  Programs of the client that stay away from roots, views and the names keep it, and
so does every invocation, on any host that is backed by the heap and however it ends.
-/
import CallbackBridge.Proofs.Delivery
import CallbackBridge.Proofs.Wiring
namespace CallbackBridge

open HostOperation HeapWorld

variable {F ω : Type} {I : Interface}

/-! ## The reference -/

/-- An argument with the given name has at least the given length. -/
def requireLength (name : String) (len found : Nat) : Except BridgeError Unit :=
  if found < len then .error (.bufferTooShort name len found) else .ok ()

/-- The number of state variables and the number of values that are asked for, or the first
thing that is wrong with the arguments. -/
def Windows.lengths (config : BridgeConfig) (entry : Entry) (windows : Windows) :
    Except BridgeError (Nat × Nat) := do
  let n ← agreedLength (← windows.ipar.stateLen) config.stateLen LengthParameters.stateLenIndex
  let outLen ← entry.outputLen config windows.ipar n
  requireLength "t" 1 windows.t.length
  requireLength "y" n windows.y.length
  requireLength "yp" n windows.yp.length
  requireLength "res" outLen windows.res.length
  return (n, outLen)

/-- How an invocation ends that calls a function of slices, and what is in the output then.
The output is as it was unless the function gives enough values. -/
def Windows.answer (windows : Windows) (name : String) (g : SliceFunction) (n outLen : Nat) :
    Outcome BridgeError Unit × List Binary64 :=
  match g (windows.t.take 1) (windows.y.take n) (windows.yp.take n) with
  | .error (.panic message) => (.error (.panic message), windows.res.toList)
  | .error (.error reason) =>
    (.error (.error (.userFunctionFailure name reason)), windows.res.toList)
  | .ok out =>
    if out.length < outLen then
      (.error (.error (.lengthMismatch outLen out.length)), windows.res.toList)
    else (.ok (), out.take outLen ++ windows.res.toList.drop outLen)

/-- How an invocation ends and what is in the output then. -/
def Windows.reference (config : BridgeConfig) (slices : Entry → Option SliceFunction)
    (entry : Entry) (windows : Windows) : Outcome BridgeError Unit × List Binary64 :=
  match windows.lengths config entry with
  | .error e => (.error (.error e), windows.res.toList)
  | .ok (n, outLen) =>
    match slices entry with
    | none =>
      (.error (.error (.unresolvedBinding (config.names.reported entry))), windows.res.toList)
    | some g => windows.answer (config.names.reported entry) g n outLen

/-- A window can be cut if the buffer is long enough. -/
theorem leadingWindow_eq (buffer : Buffer) (len : Nat) :
    leadingWindow buffer len =
      (fun _ => { buffer with len }) <$> requireLength buffer.role.argument len buffer.len := by
  unfold leadingWindow Buffer.cut? requireLength
  by_cases hshort : buffer.len < len
  · simp only [hshort, if_true]
    rfl
  · simp only [hshort, if_false]
    rfl

/-- The check of the arguments is that of the reference. -/
theorem check_eq_lengths {windows : Windows} {m m' : Memory} {call : Invocation}
    (hexposed : Exposed windows m call m') (config : BridgeConfig) (entry : Entry) :
    config.check entry call =
      (fun lengths => ⟨lengths.2, call.leading lengths.1⟩) <$> windows.lengths config entry := by
  have ht : leadingWindow call.t 1 =
      (fun _ => { call.t with len := 1 }) <$> requireLength "t" 1 windows.t.length := by
    rw [leadingWindow_eq, hexposed.t]
    rfl
  have hy : ∀ n, leadingWindow call.y n =
      (fun _ => { call.y with len := n }) <$> requireLength "y" n windows.y.length := by
    intro n
    rw [leadingWindow_eq, hexposed.y]
    rfl
  have hyp : ∀ n, leadingWindow call.yp n =
      (fun _ => { call.yp with len := n }) <$> requireLength "yp" n windows.yp.length := by
    intro n
    rw [leadingWindow_eq, hexposed.yp]
    rfl
  have hres : ∀ (outLen : Nat) (admission : Admission),
      (if windows.res.length < outLen then do
          throw (.bufferTooShort "res" outLen windows.res.length)
          pure admission
        else pure admission) =
      (do
        requireLength "res" outLen windows.res.length
        pure admission) := by
    intro outLen admission
    unfold requireLength
    split <;> rfl
  unfold BridgeConfig.check Windows.lengths
  simp only [ht, hy, hyp, hexposed.ipar, hexposed.res, map_bind, bind_map_left, map_pure, hres]
  rfl

/-- Lengths that are in order are the declared ones, and there is room for the output. -/
theorem Windows.lengths_eq_ok {windows : Windows} {config : BridgeConfig} {entry : Entry}
    {n outLen : Nat} (h : windows.lengths config entry = .ok (n, outLen)) :
    windows.ipar.stateLen = .ok n ∧ entry.outputLen config windows.ipar n = .ok outLen ∧
      outLen ≤ windows.res.length := by
  unfold lengths at h
  obtain ⟨found, hfound, h⟩ := bind_eq_ok h
  obtain ⟨n', hagreed, h⟩ := bind_eq_ok h
  obtain ⟨outLen', hout, h⟩ := bind_eq_ok h
  obtain ⟨_, -, h⟩ := bind_eq_ok h
  obtain ⟨_, -, h⟩ := bind_eq_ok h
  obtain ⟨_, -, h⟩ := bind_eq_ok h
  obtain ⟨_, hres, h⟩ := bind_eq_ok h
  cases h
  cases agreedLength_eq_ok hagreed
  refine ⟨hfound, hout, ?_⟩
  unfold requireLength at hres
  split at hres
  · cases hres
  · next hlong => exact Nat.le_of_not_lt hlong

/-! ## The invariant -/

/-- The command stays away from roots, from views and from the names, and runs no code. -/
def HeapCommand.StaysAway (names : List String) (command : HeapCommand F I) : Prop :=
  (command.SparesRoots ∧ command.SparesNames names) ∧ ¬ command.Enters

/-- The session serves the functions of slices. -/
structure Serves (code : UserCode F I) (config : BridgeConfig)
    (slices : Entry → Option SliceFunction) (session : Session (HeapWorld F ω) Rooted) : Prop where
  /-- Its handles are pins. -/
  secured : session.bridge.Secured session.host.heap
  /-- The settings are the given ones. -/
  config_eq : session.bridge.config = config
  /-- Each entry point finds its function. -/
  finds : ∀ entry,
    session.bridge.symbols.Finds code config.names session.host.heap entry (slices entry)

section Sessions

variable {code : UserCode F I} {config : BridgeConfig} {slices : Entry → Option SliceFunction}

/-- What leaves the names alone and the bridge secured keeps the invariant. -/
theorem Serves.steady {session session' : Session (HeapWorld F ω) Rooted}
    (hserves : Serves code config slices session)
    (hsteady : session.host.heap.Steady config.names.reserved session'.host.heap)
    (hsecured : session'.bridge.Secured session'.host.heap)
    (hbridge : session'.bridge.config = session.bridge.config ∧
      session'.bridge.symbols = session.bridge.symbols)
    (room : session'.host.heap.table.Addressable) : Serves code config slices session' where
  secured := hsecured
  config_eq := hbridge.1.trans hserves.config_eq
  finds entry := by
    have howed : ∀ r ∈ session'.bridge.symbols.owed, r ∈ session'.bridge.owed := fun r hr =>
      List.mem_append_right _ hr
    rw [hbridge.2] at howed ⊢
    exact (hserves.finds entry).steady hsteady room hserves.secured.holds.sound hsecured.holds howed

/-- What is found leads to a function of slices. -/
theorem Serves.applies {session : Session (HeapWorld F ω) Rooted}
    (hserves : Serves code config slices session) {entry : Entry} {f : ObjRef}
    (hf : session.bridge.symbols.target config.names entry session.host.heap = .ok f) :
    ∃ g, slices entry = some g ∧ session.host.heap.Applies code g f := by
  have hfinds := hserves.finds entry
  cases hslices : slices entry with
  | none =>
    rw [hslices] at hfinds
    rw [hfinds.target_none] at hf
    cases hf
  | some g =>
    rw [hslices] at hfinds
    obtain ⟨r, hr, happlies⟩ := hfinds.target
    rw [hr] at hf
    cases hf
    exact ⟨g, rfl, happlies⟩

/-- A session that looks its names up begins with the invariant. -/
theorem Resolves.serves {run : Runner F ω} {w : HeapWorld F ω}
    {session : Session (HeapWorld F ω) Rooted} (h : Resolves run w config session)
    (hs : w.heap.table.Sound)
    (hbinds : ∀ entry, w.heap.Binds code config.names entry (slices entry))
    (room : session.host.heap.table.Addressable) : Serves code config slices session := by
  have hsecured := (Begins.resolved h).begun.secured hs
  rcases h.cases with ⟨bindings, hbindings, rfl⟩ | rfl
  · -- there is a handle exactly for what is bound
    refine ⟨hsecured, rfl, fun entry => ?_⟩
    have hhandle : ∀ handle, bindings.handle? entry = some handle ↔ _ := fun handle =>
      Heap.handle?_eq_some_iff hbindings
    have hbinds := hbinds entry
    cases hslices : slices entry with
    | none =>
      rw [hslices] at hbinds
      refine Option.eq_none_iff_forall_ne_some.mpr fun handle hsome => ?_
      obtain ⟨name, hname, hcallable⟩ := (hhandle handle).mp hsome
      rw [Heap.callable_of_unbound (hbinds name hname)] at hcallable
      cases hcallable
    | some g =>
      rw [hslices] at hbinds
      obtain ⟨name, r, hname, hfind, happlies⟩ := hbinds
      have hsome := (hhandle ⟨r⟩).mpr ⟨name, hname, happlies.callable hfind⟩
      refine ⟨⟨r⟩, hsome, happlies.evolves (w.heap.evolves_pinAll bindings) room hs ?_⟩
      exact hsecured.holds.isLive (List.mem_append_right _ (Symbols.mem_owed hsome))
  · exact ⟨hsecured, rfl, hbinds⟩

/-- **Whatever happens in a session, it goes on serving its functions of slices.** -/
theorem Continues.serves {begun session : Session (HeapWorld F ω) Rooted} {history : History}
    (h : Continues code (HeapCommand.StaysAway config.names.reserved) begun history session)
    (hbegun : begun.host.heap.table.Addressable → Serves code config slices begun)
    (room : session.host.heap.table.Addressable) : Serves code config slices session := by
  induction h with
  | start => exact hbegun room
  | @client _ _ session surroundings stack program hcontinues hprogram ih =>
    have hspares := (runClosed_sparesAll config.names.reserved).execute_plain
      (Runner.ofStack code stack) surroundings hprogram session.host
    have hserves := ih (hspares.1.evolves.addressable room)
    exact hserves.steady (.of_spares hspares.1) (hserves.secured.spares hspares.1 room) ⟨rfl, rfl⟩
      room
  | elapses hcontinues hnext ih =>
    obtain ⟨hsecured, hconfig, hfinds⟩ := ih room
    exact ⟨hsecured, hconfig, hfinds⟩
  | @enters _ _ session host world s windows call entry stack hcontinues hhost hexpose ih =>
    have hheap : (world s).heap = session.host.heap := by
      rw [(HeapWorld.exposed_of_expose hexpose).1]
    have room' := (session.bridge.forward_evaluate hhost entry call s).1.addressable room
    have hserves := ih (hheap ▸ room')
    have hsecured : session.bridge.Secured (world s).heap := hheap ▸ hserves.secured
    have hrun : TameRun config.names.reserved code stack (world s)
        (session.bridge.operations host entry call s)
        (world (session.bridge.evaluate host entry call s).host) := by
      refine Bridge.tame_operations hhost (fun f hf => ?_) hsecured.holds.sound room
      rw [hheap, hserves.config_eq] at hf
      obtain ⟨g, -, happlies⟩ := hserves.applies hf
      exact ⟨g, hheap ▸ happlies⟩
    -- the names are steady through the invocation, and the closing undoes its pins
    have hsteady := hrun.steady
    rw [hheap] at hsteady
    exact hserves.steady hsteady (hsecured.evaluate hrun.held room)
      (session.bridge.config_symbols_evaluate host entry call s) room

end Sessions

/-! ## The next invocation -/

section Invocation

variable {code : UserCode F I} {surroundings : Surroundings I ω} {stack : List (Surroundings I ω)}
  {bridge : Bridge Rooted} {entry : Entry} {windows : Windows} {call : Invocation}
  {s : HeapWorld F ω}

/-- What the body of a function of slices gives reaches the solver. -/
theorem CallSite.eq_answer {outcome : Outcome BridgeError Unit} {res' : Output}
    {moment : Moment (HeapWorld F ω) ObjRef Rooted}
    {post : List (Moment (HeapWorld F ω) ObjRef Rooted)} {f : ObjRef} {views : StateViews ObjRef}
    {result : Outcome HostError ObjRef} {n outLen : Nat} {g : SliceFunction}
    {final : HeapWorld F ω}
    (h : CallSite bridge entry windows call s outcome res' moment post f views result n outLen)
    (happlies : s.heap.Applies code g f) (hs : s.heap.table.Sound)
    (hstart : (HeapWorld.call (Runner.ofStack code (surroundings :: stack)) f views).start
      moment.before = (result, moment.after))
    (hafter : Chain (HeapWorld.runtime (Runner.ofStack code (surroundings :: stack)))
      moment.after post final)
    (room : moment.after.heap.table.Addressable) (hlen : outLen ≤ windows.res.length) :
    (outcome, res'.toList) =
      windows.answer (bridge.config.names.reported entry) g n outLen := by
  obtain ⟨kept, hready⟩ := h.atCall
  obtain ⟨m, hwindows⟩ := h.exposed
  have hcalled : HeapStep (Runner.ofStack code (surroundings :: stack)) (.call f views result)
      moment.before moment.after := Or.inl hstart
  have room' := hcalled.forward.1.addressable room
  obtain ⟨function, pins, hentry, hcode⟩ :=
    happlies.evolves h.forward.1 room' hs (hready.holds.isLive (by simp))
  have hf := Heap.function_eq_ok hentry
  have hattended : Attended windows n f views function (moment.before.update Heap.openScope) :=
    hready.attended hwindows hf (show Heap.Spares [] _ _ from .openScope _) rfl room'
  -- the arguments are read inside the scope of the call
  have hbody := start_ofSlices surroundings (Runner.ofStack code stack) g
    hattended.read_t hattended.read_y hattended.read_yp
  rw [← hcode views] at hbody
  change bodyEnd code (surroundings :: stack) function views moment.before = _ at hbody
  obtain ⟨hresult, hclosed⟩ := h.settles hf hstart
  unfold Windows.answer
  cases hg : g (windows.t.take 1) (windows.y.take n) (windows.yp.take n) with
  | error stop =>
    obtain ⟨rest, closed, -, hanswering⟩ := h.answering
    rw [hg] at hbody
    cases stop with
    | error reason =>
      rw [hbody] at hresult
      rw [hresult] at hanswering
      obtain ⟨rfl, rfl⟩ := hanswering.eq_of_stopped
      rfl
    | panic message =>
      rw [hbody] at hresult
      rw [hresult] at hanswering
      obtain ⟨rfl, rfl⟩ := hanswering.eq_of_stopped
      rfl
  | ok out =>
    rw [hg] at hbody
    simp only at hbody ⊢
    rw [hbody] at hclosed
    -- the new array is there when the body returns it
    rw [hclosed] at room
    obtain ⟨hlive, hread⟩ := Heap.read_alloc_array (h := moment.before.heap.openScope)
      (h.forward.1.sound room' hs) room moment.before.memory
    obtain ⟨-, -, -, hanswering⟩ := h.result_upheld hf hstart hafter hbody hlive
    simp only [HeapWorld.update, hread] at hanswering
    exact hanswering.eq_of_read hlen

/-- The next invocation of a session that serves functions of slices. -/
theorem Serves.evaluate {config : BridgeConfig}
    {slices : Entry → Option SliceFunction} {session : Session (HeapWorld F ω) Rooted}
    (hserves : Serves code config slices session)
    (hexpose : session.host.expose windows = (call, s))
    (room : (session.bridge.evaluate (HeapWorld.runtime (Runner.ofStack code
      (surroundings :: stack))) entry call s).host.heap.table.Addressable) :
    ((session.bridge.evaluate (HeapWorld.runtime (Runner.ofStack code (surroundings :: stack)))
        entry call s).outcome,
      (session.bridge.evaluate (HeapWorld.runtime (Runner.ofStack code (surroundings :: stack)))
        entry call s).res.toList) = windows.reference config slices entry := by
  obtain ⟨hs, hexposed⟩ := HeapWorld.exposed_of_expose hexpose
  have hheap : s.heap = session.host.heap := by rw [hs]
  have hsecured : session.bridge.Secured s.heap := hheap ▸ hserves.secured
  have hchecks := check_eq_lengths hexposed config entry
  unfold Windows.reference
  cases hlengths : windows.lengths config entry with
  | error e =>
    rw [hlengths, ← hserves.config_eq] at hchecks
    rw [Bridge.evaluate_of_rejected hchecks, hexposed.res]
  | ok lengths =>
    obtain ⟨n, outLen⟩ := lengths
    rw [hlengths, ← hserves.config_eq] at hchecks
    -- what is found decides whether there is a call at all
    rcases evaluate_cases code (surroundings :: stack) hsecured hchecks with
      ⟨e, htarget, houtcome, hres⟩ | ⟨pre, moment, post, f, views, result, htrace, hcall⟩
    · rw [hheap, hserves.config_eq] at htarget
      have hfinds := hserves.finds entry
      cases hslices : slices entry with
      | none =>
        rw [hslices] at hfinds
        cases hfinds.target_none.symm.trans htarget
        rw [houtcome, hres, hexposed.res]
      | some g =>
        rw [hslices] at hfinds
        obtain ⟨r, hr, -⟩ := hfinds.target
        cases hr.symm.trans htarget
    · obtain ⟨hstart, hafter, n', outLen', hsite⟩ :=
        callSite_of_trace hsecured hexposed htrace hcall room
      obtain ⟨hn, hout, hlen⟩ := Windows.lengths_eq_ok hlengths
      cases hn.symm.trans hsite.stateLen
      have hout' := hsite.outputLen
      rw [hserves.config_eq] at hout'
      cases hout.symm.trans hout'
      obtain ⟨kept, hready⟩ := hsite.atCall
      have htarget := hready.target
      rw [hheap, hserves.config_eq] at htarget
      obtain ⟨g, hslices, happlies⟩ := hserves.applies htarget
      -- the function that is called is the one that the entry point finds
      have hlater : HeapRun code (surroundings :: stack) moment.after
          (post.map Moment.operation) _ := hafter.carries (g := id) fun _ _ _ hop => Or.inl hop
      have hanswer := hsite.eq_answer (hheap ▸ happlies) hsecured.holds.sound hstart hafter
        (hlater.forward.1.addressable room) hlen
      rw [hserves.config_eq] at hanswer
      simpa only [hslices] using hanswer

/-- **Sessions that serve functions of slices have no memory.** Take any heap on which the
names of the functions are bound to functions of slices, or not at all, with any setting of its
collector; look the names up at setup or in every invocation; keep views or make new ones; and
let the session go on in any way, by invocations of any kind and by programs of the client that
stay away from roots, views and these names.  The next invocation then does exactly what the
reference says of the settings, the functions, the entry point and the windows.  References are
32-bit words, so this holds as long as the heap has no more places than there are numbers. -/
theorem evaluate_eq_reference {config : BridgeConfig} {slices : Entry → Option SliceFunction}
    {w : HeapWorld F ω} {run : Runner F ω} {begun session : Session (HeapWorld F ω) Rooted}
    {history : History} (hbuilt : Built code w)
    (hbinds : ∀ entry, w.heap.Binds code config.names entry (slices entry))
    (hresolves : Resolves run w config begun)
    (hcontinues : Continues code (HeapCommand.StaysAway config.names.reserved) begun history
      session)
    (hexpose : session.host.expose windows = (call, s))
    (room : (session.bridge.evaluate (HeapWorld.runtime (Runner.ofStack code
      (surroundings :: stack))) entry call s).host.heap.table.Addressable) :
    ((session.bridge.evaluate (HeapWorld.runtime (Runner.ofStack code (surroundings :: stack)))
        entry call s).outcome,
      (session.bridge.evaluate (HeapWorld.runtime (Runner.ofStack code (surroundings :: stack)))
        entry call s).res.toList) = windows.reference config slices entry := by
  have hforward := session.bridge.forward_evaluate
    (heapBacked_runtime (Runner.ofStack code (surroundings :: stack))) entry call s
  have room' := hforward.1.addressable room
  rw [(HeapWorld.exposed_of_expose hexpose).1] at room'
  refine Serves.evaluate (hcontinues.serves (fun room => ?_) room') hexpose room
  have hbegun := (Begins.resolved hresolves).begun
  exact hresolves.serves (hbuilt.sound (hbegun.evolves.addressable room)) hbinds room

end Invocation

/-- The function of slices of the small session. -/
def Echo.slices : Entry → Option SliceFunction
  | .residual => some fun _ y _ => .ok y
  | .event => none

/-- Its name is bound to the function. -/
theorem Echo.binds (entry : Entry) :
    Echo.world.heap.Binds Echo.code Echo.config.names entry (Echo.slices entry) := by
  cases entry with
  | residual => exact ⟨"echo", ⟨0, 0⟩, rfl, rfl, ⟨"echo", ()⟩, 0, rfl, fun _ => rfl⟩
  | event =>
    rintro name ⟨⟩

/-- Arguments for a second invocation: the time 8, the state (6, 7) and the derivative (16, 10). -/
def Echo.moved : Windows where
  t := [⟨0x4020000000000000⟩]
  y := [⟨0x4018000000000000⟩, ⟨0x401c000000000000⟩]
  yp := [⟨0x4030000000000000⟩, ⟨0x4024000000000000⟩]
  ipar := ⟨[2]⟩
  res := .fresh 2

/-- The second invocation with these arguments. -/
def Echo.onward : Invocation × HeapWorld Unit Unit := Echo.served.host.expose Echo.moved

/-- The second invocation of the small session, on the views that the first one has kept: what it
delivers is the state that it is given itself, and not that of the first one. -/
theorem evaluate_eq_reference_echo :
    ((Echo.served.bridge.evaluate (HeapWorld.runtime Echo.run) .residual Echo.onward.1
        Echo.onward.2).outcome,
      (Echo.served.bridge.evaluate (HeapWorld.runtime Echo.run) .residual Echo.onward.1
        Echo.onward.2).res.toList) = Echo.moved.reference Echo.config Echo.slices .residual ∧
    Echo.moved.reference Echo.config Echo.slices .residual =
      (.ok (), [⟨0x4018000000000000⟩, ⟨0x401c000000000000⟩]) := by
  refine ⟨?_, rfl⟩
  refine evaluate_eq_reference Echo.built Echo.binds Echo.resolves (Echo.continues _)
    (show Echo.served.host.expose Echo.moved = (Echo.onward.1, Echo.onward.2) from rfl) ?_
  decide +kernel

end CallbackBridge
