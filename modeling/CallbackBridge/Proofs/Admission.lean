/-
# Arguments of an invocation

What is known of the arguments once they are accepted: the windows have exactly the lengths
that the arguments declare.  And what is known of solver memory while an invocation is in
progress: each window shows what the solver has passed.
-/
import CallbackBridge.Native.Target
import CallbackBridge.Proofs.Actions
namespace CallbackBridge

/-! ## Accepted arguments -/

/-- The leading windows of an invocation for `n` state variables. -/
def Invocation.leading (call : Invocation) (n : Nat) : StateViews Buffer :=
  ⟨{ call.t with len := 1 }, { call.y with len := n }, { call.yp with len := n }⟩

/-- What is known of accepted arguments. -/
structure Accepted (config : BridgeConfig) (entry : Entry) (call : Invocation)
    (admission : Admission) (n : Nat) : Prop where
  /-- The number of state variables is the declared one. -/
  stateLen : call.ipar.stateLen = .ok n
  /-- The output length is that of the entry point. -/
  outputLen : entry.outputLen config call.ipar n = .ok admission.outLen
  /-- The windows have the declared lengths. -/
  buffers : admission.buffers = call.leading n
  /-- There is a time. -/
  t_len : 1 ≤ call.t.len
  /-- There is a state for each variable. -/
  y_len : n ≤ call.y.len
  /-- There is a derivative for each variable. -/
  yp_len : n ≤ call.yp.len
  /-- There is room for the output. -/
  res_len : admission.outLen ≤ call.res.length

/-- A leading window that was cut is within the buffer and has the given length. -/
theorem leadingWindow_eq_ok {buffer window : Buffer} {len : Nat}
    (h : leadingWindow buffer len = .ok window) :
    len ≤ buffer.len ∧ window = { buffer with len } := by
  unfold leadingWindow Buffer.cut? at h
  by_cases hshort : buffer.len < len
  · simp [hshort] at h
  · simp only [hshort, if_false, Except.ok.injEq] at h
    exact ⟨Nat.le_of_not_lt hshort, h.symm⟩

/-- A length that agrees with the configured one is the one that was found. -/
theorem agreedLength_eq_ok {found len index : Nat} {configured : Option Nat}
    (h : agreedLength found configured index = .ok len) : len = found := by
  unfold agreedLength at h
  split at h
  · cases h
    rfl
  · split at h
    · cases h
      rfl
    · cases h

/-- Arguments that pass the check are accepted as they declare. -/
theorem BridgeConfig.accepted_of_check {config : BridgeConfig} {entry : Entry}
    {call : Invocation} {admission : Admission} (h : config.check entry call = .ok admission) :
    ∃ n, Accepted config entry call admission n := by
  unfold check at h
  obtain ⟨found, hfound, h⟩ := bind_eq_ok h
  obtain ⟨n, hagreed, h⟩ := bind_eq_ok h
  obtain ⟨outLen, hout, h⟩ := bind_eq_ok h
  obtain ⟨t, ht, h⟩ := bind_eq_ok h
  obtain ⟨y, hy, h⟩ := bind_eq_ok h
  obtain ⟨yp, hyp, h⟩ := bind_eq_ok h
  have hn := agreedLength_eq_ok hagreed
  subst hn
  obtain ⟨htlen, rfl⟩ := leadingWindow_eq_ok ht
  obtain ⟨hylen, rfl⟩ := leadingWindow_eq_ok hy
  obtain ⟨hyplen, rfl⟩ := leadingWindow_eq_ok hyp
  by_cases hshort : call.res.length < outLen
  · simp [hshort, throw, throwThe, MonadExceptOf.throw, bind, Except.bind] at h
  · simp only [hshort, if_false] at h
    cases h
    exact ⟨n, hfound, hout, rfl, htlen, hylen, hyplen, Nat.le_of_not_lt hshort⟩

/-- Lengths are not rejected by the host. -/
theorem LengthParameters.length?_ne_host (p : LengthParameters) (index : Nat) (e : HostError) :
    p.length? index ≠ .error (.host e) := by
  unfold length?
  split
  · simp
  · split <;> simp

theorem agreedLength_ne_host (found : Nat) (configured : Option Nat) (index : Nat)
    (e : HostError) : agreedLength found configured index ≠ .error (.host e) := by
  unfold agreedLength
  split
  · simp
  · split <;> simp

theorem leadingWindow_ne_host (buffer : Buffer) (len : Nat) (e : HostError) :
    leadingWindow buffer len ≠ .error (.host e) := by
  unfold leadingWindow
  split <;> simp

/-- Arguments are not rejected by the host. -/
theorem BridgeConfig.check_ne_host (config : BridgeConfig) (entry : Entry) (call : Invocation)
    (e : HostError) : config.check entry call ≠ .error (.host e) := by
  intro h
  unfold check at h
  rcases bind_eq_error h with h | ⟨found, -, h⟩
  · unfold LengthParameters.stateLen at h
    rcases bind_eq_error h with h | ⟨n, -, h⟩
    · exact LengthParameters.length?_ne_host _ _ _ h
    · split at h <;> cases h
  rcases bind_eq_error h with h | ⟨n, -, h⟩
  · exact agreedLength_ne_host _ _ _ _ h
  rcases bind_eq_error h with h | ⟨outLen, -, h⟩
  · cases entry with
    | residual => cases h
    | event =>
      rcases bind_eq_error h with h | ⟨m, -, h⟩
      · exact LengthParameters.length?_ne_host _ _ _ h
      · exact agreedLength_ne_host _ _ _ _ h
  rcases bind_eq_error h with h | ⟨t, -, h⟩
  · exact leadingWindow_ne_host _ _ _ h
  rcases bind_eq_error h with h | ⟨y, -, h⟩
  · exact leadingWindow_ne_host _ _ _ h
  rcases bind_eq_error h with h | ⟨yp, -, h⟩
  · exact leadingWindow_ne_host _ _ _ h
  split at h <;> cases h

/-! ## Exposed windows -/

/-- What is known of an invocation whose windows are exposed in memory that was `m`
before. -/
structure Exposed (windows : Windows) (m : Memory) (call : Invocation) (m' : Memory) :
    Prop where
  /-- The time is at the next address. -/
  t : call.t = ⟨.time, ⟨m.next⟩, windows.t.length⟩
  /-- The state follows. -/
  y : call.y = ⟨.state, ⟨m.next + 1⟩, windows.y.length⟩
  /-- The derivative follows. -/
  yp : call.yp = ⟨.derivative, ⟨m.next + 2⟩, windows.yp.length⟩
  /-- The parameters are passed on. -/
  ipar : call.ipar = windows.ipar
  /-- The output is passed on. -/
  res : call.res = windows.res
  /-- The addresses are used up. -/
  next : m'.next = m.next + 3
  /-- The time is shown. -/
  read_t : m'.read call.t.region = windows.t
  /-- The state is shown. -/
  read_y : m'.read call.y.region = windows.y
  /-- The derivative is shown. -/
  read_yp : m'.read call.yp.region = windows.yp

/-- Exposing windows shows each of them at an address of its own. -/
theorem Windows.exposed {windows : Windows} {m m' : Memory} {call : Invocation}
    (h : windows.expose m = (call, m')) : Exposed windows m call m' := by
  unfold expose Buffer.ofValues Memory.expose at h
  cases h
  have hne : ∀ {i j : Nat}, i ≠ j → ((⟨i⟩ : Region) == ⟨j⟩) = false := by
    intro i j hij
    simpa using hij
  have htyp : m.next ≠ m.next + 1 + 1 := by omega
  have hty : m.next ≠ m.next + 1 := by omega
  have hyyp : m.next + 1 ≠ m.next + 1 + 1 := by omega
  refine ⟨rfl, rfl, rfl, rfl, rfl, rfl, ?_, ?_, ?_⟩
  · simp [Memory.read, List.lookup_cons, hne htyp, hne hty]
  · simp [Memory.read, List.lookup_cons, hne hyyp]
  · simp [Memory.read]

end CallbackBridge
