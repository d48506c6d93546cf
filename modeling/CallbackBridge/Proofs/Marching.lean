/-
# What a march does

A march asks for the residual at a trial, one step further along the derivative, and goes on by
the flag alone: it takes the step, halves its length and tries again, or ends.

* `Course` is what the flags of a march look like: before each step that is taken its length is
  halved some number of times, and a march that does not take all steps ends with one more flag.
  How often in a row, and how the march may end, is `Course.Fits`.
* `Solver.moved` is the state after steps of given lengths, and `stepsTaken` reads these lengths
  off the flags.
* `marchFrom_course` follows the loop, and `march_conduct` is what a whole march does.
-/
import CallbackBridge.Native.Solver
import Mathlib.Algebra.Order.BigOperators.Group.List
import Mathlib.Algebra.Order.Group.Nat
import Mathlib.Tactic.Ring
namespace CallbackBridge

/-! ## Lengths of steps -/

/-- The length of a step that has been halved a number of times. -/
def Binary64.halved (dt : Binary64) : Nat → Binary64
  | 0 => dt
  | times + 1 => (dt * half).halved times

/-- The lengths of the steps that are taken: a flag of zero takes a step of the present length,
and any other halves it. -/
def stepsTaken (dt : Binary64) : List Int → List Binary64
  | [] => []
  | ires :: later =>
    if ires = 0 then dt :: stepsTaken dt later else stepsTaken (dt * .half) later

/-- The length of a step after some flags. -/
def stepLength (dt : Binary64) (flags : List Int) : Binary64 :=
  dt.halved (flags.countP fun ires => ires ≠ 0)

theorem stepLength_cons_zero (dt : Binary64) (flags : List Int) :
    stepLength dt (0 :: flags) = stepLength dt flags := by
  simp [stepLength]

theorem stepLength_cons_of_ne {ires : Int} (h : ires ≠ 0) (dt : Binary64) (flags : List Int) :
    stepLength dt (ires :: flags) = stepLength (dt * .half) flags := by
  simp [stepLength, h, Binary64.halved]

namespace Solver

variable {σ : Type}

/-! ## States after steps -/

/-- The state after steps of the given lengths: each of them adds its length to the time, and its
length times the derivative to every state variable that has one. -/
def moved (solver : Solver) (lengths : List Binary64) : Solver :=
  { solver with
    t := lengths.foldl (fun t dt => t + dt) solver.t
    y := solver.y.mapIdx fun i y =>
      match solver.yp[i]? with
      | some yp => lengths.foldl (fun y dt => dt * yp + y) y
      | none => y }

/-- No step leads nowhere. -/
theorem moved_nil (solver : Solver) : solver.moved [] = solver := by
  have hy : (solver.y.mapIdx fun i y =>
      match solver.yp[i]? with
      | some yp => [].foldl (fun y dt => dt * yp + y) y
      | none => y) = solver.y := by
    apply List.ext_getElem?
    intro i
    rw [List.getElem?_mapIdx]
    cases solver.yp[i]? <;> simp
  unfold moved
  rw [hy]
  rfl

/-- One step is the step of a march. -/
theorem moved_singleton (solver : Solver) (dt : Binary64) :
    solver.moved [dt] = solver.advance dt := by
  have hy : (solver.y.mapIdx fun i y =>
      match solver.yp[i]? with
      | some yp => [dt].foldl (fun y dt => dt * yp + y) y
      | none => y) =
      List.zipWith (fun y yp => dt * yp + y) solver.y solver.yp ++
        solver.y.drop solver.yp.length := by
    generalize solver.y = y
    generalize solver.yp = yp
    induction y generalizing yp with
    | nil => simp
    | cons y ys ih =>
      cases yp with
      | nil =>
        apply List.ext_getElem?
        intro i
        simp only [List.getElem?_mapIdx, List.getElem?_nil, List.zipWith_nil_right,
          List.nil_append, List.length_nil, List.drop_zero, Option.map_id']
      | cons yp yps =>
        have htail := ih yps
        simp only [List.mapIdx_cons, List.getElem?_cons_succ]
        rw [htail]
        simp
  unfold moved advance
  rw [hy]
  rfl

/-- Steps follow each other. -/
theorem moved_moved (solver : Solver) (lengths later : List Binary64) :
    (solver.moved lengths).moved later = solver.moved (lengths ++ later) := by
  have hy : ((solver.moved lengths).y.mapIdx fun i y =>
      match solver.yp[i]? with
      | some yp => later.foldl (fun y dt => dt * yp + y) y
      | none => y) = (solver.moved (lengths ++ later)).y := by
    apply List.ext_getElem?
    intro i
    simp only [moved, List.getElem?_mapIdx, Option.map_map]
    cases solver.yp[i]? with
    | none => rfl
    | some yp => simp only [Function.comp_def, List.foldl_append]
  have ht : later.foldl (fun t dt => t + dt) (solver.moved lengths).t =
      (solver.moved (lengths ++ later)).t := by
    simp only [moved, List.foldl_append]
  calc (solver.moved lengths).moved later
      = { solver with
          t := later.foldl (fun t dt => t + dt) (solver.moved lengths).t
          y := (solver.moved (lengths ++ later)).y } := by rw [← hy]; rfl
    _ = solver.moved (lengths ++ later) := by rw [ht]; rfl

/-! ## The trials of a march -/

/-- A question that a march has asked, and the flag that it was given. -/
structure Trial where
  /-- The state for which the residual was asked. -/
  state : Solver
  /-- The flag. -/
  ires : Int

/-- The residual with each question noted. -/
def noted (residual : Solver → σ → Int × σ) (trial : Solver) (s : σ × List Trial) :
    Int × (σ × List Trial) :=
  let (ires, next) := residual trial s.1
  (ires, (next, s.2 ++ [⟨trial, ires⟩]))

/-! ## The course of a march -/

/-- The course of a march. -/
structure Course where
  /-- For each step that was taken, how often its length was halved just before. -/
  halvings : List Nat
  /-- For a march that ended early, how often the length was halved after the last step that was
  taken, and the flag that ended the march. -/
  stop : Option (Nat × Int)

namespace Course

variable {course : Course} {steps maxRetries : Nat}

/-- How often the length of a step was halved. -/
def retries (course : Course) : Nat := course.halvings.sum + (course.stop.map Prod.fst).getD 0

/-- The flags of a step that was taken. -/
def flagsOfStep (times : Nat) : List Int := List.replicate times iresRetry ++ [0]

/-- The flags at the end of a march that ended early. -/
def flagsOfStop (stop : Nat × Int) : List Int := List.replicate stop.1 iresRetry ++ [stop.2]

/-- The flags of the march. -/
def flags (course : Course) : List Int :=
  course.halvings.flatMap flagsOfStep ++ (course.stop.map flagsOfStop).getD []

/-- The course is one for so many steps: none of them is halved more than so often in a row, and
only another flag, or a request for one more halving, ends the march early. -/
structure Fits (course : Course) (steps maxRetries : Nat) : Prop where
  /-- Before each step that is taken, its length is halved at most so often. -/
  halvings_le : ∀ times ∈ course.halvings, times ≤ maxRetries
  /-- Without an early end all steps are taken. -/
  taken : course.stop = none → course.halvings.length = steps
  /-- An early end leaves a step that is not taken. -/
  stopped : ∀ times ires, course.stop = some (times, ires) →
    course.halvings.length < steps ∧ times ≤ maxRetries ∧ ires ≠ 0 ∧
      (ires = iresRetry → times = maxRetries)

/-- The course after one more step, which is taken at once. -/
def step (course : Course) : Course := { course with halvings := 0 :: course.halvings }

/-- The course with more halvings before its first step, or before its end. -/
def delay (course : Course) (times : Nat) : Course :=
  match course.halvings with
  | [] => { course with stop := course.stop.map fun stop => (stop.1 + times, stop.2) }
  | first :: later => { course with halvings := (first + times) :: later }

theorem delay_zero (course : Course) : course.delay 0 = course := by
  obtain ⟨halvings, stop⟩ := course
  cases halvings <;> cases stop <;> rfl

theorem delay_delay (course : Course) (times more : Nat) :
    (course.delay times).delay more = course.delay (times + more) := by
  obtain ⟨halvings, stop⟩ := course
  cases halvings <;> cases stop <;> simp [delay, Nat.add_assoc]

theorem flags_step (course : Course) : course.step.flags = 0 :: course.flags := by
  simp [flags, step, flagsOfStep]

theorem retries_step (course : Course) : course.step.retries = course.retries := by
  simp [retries, step]

/-- A step that is taken at once fits, with the halvings that came before it. -/
theorem Fits.step (h : course.Fits steps maxRetries) {times : Nat} (htimes : times ≤ maxRetries) :
    (course.step.delay times).Fits (steps + 1) maxRetries where
  halvings_le := by
    intro some hsome
    rcases List.mem_cons.1 hsome with rfl | hsome
    · omega
    · exact h.halvings_le some hsome
  taken := by
    intro hstop
    show course.halvings.length + 1 = steps + 1
    rw [h.taken hstop]
  stopped := by
    intro times ires hstop
    obtain ⟨hlt, hrest⟩ := h.stopped times ires hstop
    exact ⟨Nat.succ_lt_succ hlt, hrest⟩

/-- A march of at least one step is asked for a flag. -/
theorem Fits.exists_flag (h : course.Fits (steps + 1) maxRetries) :
    course.halvings ≠ [] ∨ course.stop ≠ none := by
  by_cases hstop : course.stop = none
  · left
    intro hnil
    have htaken := h.taken hstop
    rw [hnil] at htaken
    simp at htaken
  · exact .inr hstop

theorem exists_flag_of_delay {times : Nat}
    (h : (course.delay times).halvings ≠ [] ∨ (course.delay times).stop ≠ none) :
    course.halvings ≠ [] ∨ course.stop ≠ none := by
  obtain ⟨halvings, stop⟩ := course
  cases halvings <;> cases stop <;> simp_all [delay]

/-- One more halving is one more flag, if there is a flag that it may come before. -/
theorem flags_delay_one (h : course.halvings ≠ [] ∨ course.stop ≠ none) :
    (course.delay 1).flags = iresRetry :: course.flags := by
  obtain ⟨halvings, stop⟩ := course
  cases halvings <;> cases stop <;>
    simp_all [delay, flags, flagsOfStep, flagsOfStop, List.replicate_succ]

theorem retries_delay_one (h : course.halvings ≠ [] ∨ course.stop ≠ none) :
    (course.delay 1).retries = course.retries + 1 := by
  obtain ⟨halvings, stop⟩ := course
  cases halvings <;> cases stop <;> simp_all [delay, retries] <;> omega

theorem length_halvings_delay (course : Course) (times : Nat) :
    (course.delay times).halvings.length = course.halvings.length := by
  obtain ⟨halvings, stop⟩ := course
  cases halvings <;> simp [delay]

theorem isSome_stop_delay (course : Course) (times : Nat) :
    (course.delay times).stop.isSome = course.stop.isSome := by
  obtain ⟨halvings, stop⟩ := course
  cases halvings <;> cases stop <;> simp [delay]

/-- The flag of a march that ends at its first trial. -/
theorem flags_stop (ires : Int) : (Course.mk [] (some (0, ires))).flags = [ires] := rfl

/-- A march may end at a trial with any flag but zero, if it has been halved as often as it may
be where the flag asks for one more halving. -/
theorem fits_stop {times : Nat} {ires : Int} (htimes : times ≤ maxRetries) (hne : ires ≠ 0)
    (hretry : ires = iresRetry → times = maxRetries) :
    ((Course.mk [] (some (0, ires))).delay times).Fits (steps + 1) maxRetries where
  halvings_le := by
    intro some hsome
    cases hsome
  taken := by
    intro hstop
    cases hstop
  stopped := by
    intro more other hstop
    obtain ⟨rfl, rfl⟩ : 0 + times = more ∧ ires = other := by simpa [delay] using hstop
    rw [Nat.zero_add]
    exact ⟨Nat.succ_pos _, htimes, hne, hretry⟩

/-- The flags are one for each step that is taken, one for each halving, and one for an early
end. -/
theorem length_flags (course : Course) :
    course.flags.length =
      course.halvings.length + course.retries + if course.stop.isSome then 1 else 0 := by
  have hsteps : (course.halvings.flatMap flagsOfStep).length =
      course.halvings.length + course.halvings.sum := by
    induction course.halvings with
    | nil => rfl
    | cons times later ih =>
      simp only [List.flatMap_cons, List.length_append, ih, flagsOfStep, List.length_replicate,
        List.length_cons, List.length_nil, List.sum_cons]
      omega
  unfold flags retries
  rw [List.length_append, hsteps]
  cases course.stop with
  | none => simp
  | some stop =>
    simp only [Option.map_some, Option.getD_some, flagsOfStop, List.length_append,
      List.length_replicate, List.length_cons, List.length_nil, Option.isSome_some, if_true]
    omega

/-- A course that fits has at most so many flags. -/
theorem Fits.length_flags_le (h : course.Fits steps maxRetries) :
    course.flags.length ≤ steps * (maxRetries + 1) := by
  have hsum : course.halvings.sum ≤ course.halvings.length * maxRetries := by
    simpa using course.halvings.sum_le_card_nsmul maxRetries h.halvings_le
  rw [length_flags]
  cases hstop : course.stop with
  | none =>
    have htaken := h.taken hstop
    rw [htaken] at hsum
    simp only [retries, hstop, Option.map_none, Option.getD_none, Option.isSome_none]
    calc course.halvings.length + (course.halvings.sum + 0) + 0
        ≤ steps + steps * maxRetries := by omega
      _ = steps * (maxRetries + 1) := by ring
  | some stop =>
    obtain ⟨hlt, htimes, -⟩ := h.stopped stop.1 stop.2 hstop
    simp only [retries, hstop, Option.map_some, Option.getD_some, Option.isSome_some]
    calc course.halvings.length + (course.halvings.sum + stop.1) + 1
        ≤ course.halvings.length + (course.halvings.length * maxRetries + maxRetries) + 1 := by
          omega
      _ = (course.halvings.length + 1) * (maxRetries + 1) := by ring
      _ ≤ steps * (maxRetries + 1) := Nat.mul_le_mul_right _ hlt

/-- No more steps are taken than there are. -/
theorem Fits.length_halvings_le (h : course.Fits steps maxRetries) :
    course.halvings.length ≤ steps := by
  cases hstop : course.stop with
  | none => exact (h.taken hstop).le
  | some stop => exact (h.stopped stop.1 stop.2 hstop).1.le

/-- A march ends early exactly if it leaves a step. -/
theorem Fits.isSome_stop_iff (h : course.Fits steps maxRetries) :
    course.stop.isSome = true ↔ course.halvings.length < steps := by
  cases hstop : course.stop with
  | none =>
    have htaken := h.taken hstop
    simp only [Option.isSome_none, Bool.false_eq_true, false_iff]
    omega
  | some stop =>
    obtain ⟨hlt, -⟩ := h.stopped stop.1 stop.2 hstop
    simp only [Option.isSome_some, true_iff]
    exact hlt

/-- Halvings leave a shorter step to what comes after them. -/
theorem stepsTaken_replicate (dt : Binary64) (times : Nat) (later : List Int) :
    stepsTaken dt (List.replicate times iresRetry ++ later) =
      stepsTaken (dt.halved times) later := by
  induction times generalizing dt with
  | zero => rfl
  | succ times ih => exact ih (dt * .half)

/-- As many steps are taken as the course says. -/
theorem Fits.length_stepsTaken (h : course.Fits steps maxRetries) (dt : Binary64) :
    (stepsTaken dt course.flags).length = course.halvings.length := by
  have hend : ∀ dt, stepsTaken dt ((course.stop.map flagsOfStop).getD []) = [] := by
    intro dt
    cases hstop : course.stop with
    | none => rfl
    | some stop =>
      obtain ⟨-, -, hne, -⟩ := h.stopped stop.1 stop.2 hstop
      show stepsTaken dt (List.replicate stop.1 iresRetry ++ [stop.2]) = []
      rw [stepsTaken_replicate, stepsTaken, if_neg hne]
      rfl
  unfold flags
  clear h
  induction course.halvings generalizing dt with
  | nil => rw [List.flatMap_nil, List.nil_append, hend dt]; rfl
  | cons times later ih =>
    rw [List.flatMap_cons, List.append_assoc, flagsOfStep, List.append_assoc,
      stepsTaken_replicate, List.singleton_append, stepsTaken, if_pos rfl, List.length_cons,
      ih, List.length_cons]

end Course

/-! ## The loop -/

/-- The trials with the given flags. -/
def asked (solver : Solver) (dt : Binary64) : List Int → List Trial
  | [] => []
  | ires :: later =>
    ⟨solver.advance dt, ires⟩ ::
      if ires = 0 then asked (solver.advance dt) dt later else asked solver (dt * .half) later

theorem map_ires_asked (solver : Solver) (dt : Binary64) (flags : List Int) :
    (asked solver dt flags).map Trial.ires = flags := by
  induction flags generalizing solver dt with
  | nil => rfl
  | cons ires later ih =>
    unfold asked
    split <;> simp [ih]

/-- Each trial is one step further than the steps that were taken before it, and its step is as
long as the flags before it have left it. -/
theorem state_of_asked {solver : Solver} {dt : Binary64} {flags : List Int}
    {before after : List Trial} {trial : Trial}
    (h : asked solver dt flags = before ++ trial :: after) :
    trial.state = solver.moved (stepsTaken dt (before.map Trial.ires) ++
      [stepLength dt (before.map Trial.ires)]) := by
  induction before generalizing solver dt flags with
  | nil =>
    cases flags with
    | nil => cases h
    | cons ires later =>
      obtain ⟨rfl, -⟩ := List.cons.inj h
      exact (solver.moved_singleton dt).symm
  | cons first before ih =>
    cases flags with
    | nil => cases h
    | cons ires later =>
      obtain ⟨rfl, hlater⟩ := List.cons.inj h
      show trial.state = solver.moved (stepsTaken dt (ires :: before.map Trial.ires) ++
        [stepLength dt (ires :: before.map Trial.ires)])
      by_cases hires : ires = 0
      · subst hires
        rw [ih hlater, ← moved_singleton, moved_moved, stepLength_cons_zero]
        rfl
      · rw [if_neg hires] at hlater
        rw [ih hlater, stepLength_cons_of_ne hires, stepsTaken, if_neg hires]

/-- What a march reports after a course. -/
def MarchReport.after (report : MarchReport) (dt : Binary64) (course : Course) : MarchReport where
  accepted := report.accepted + course.halvings.length
  retries := report.retries + course.retries
  aborted := report.aborted || course.stop.isSome
  finalStep := dt.halved course.retries

theorem MarchReport.after_step (report : MarchReport) (dt : Binary64) (course : Course) :
    ({ report with accepted := report.accepted + 1 } : MarchReport).after dt course =
      report.after dt course.step := by
  have haccepted : report.accepted + 1 + course.halvings.length =
      report.accepted + (course.halvings.length + 1) := by omega
  unfold MarchReport.after
  rw [Course.retries_step, haccepted]
  rfl

theorem MarchReport.after_delay_one (report : MarchReport) (dt : Binary64) {course : Course}
    (h : course.halvings ≠ [] ∨ course.stop ≠ none) :
    ({ report with retries := report.retries + 1 } : MarchReport).after (dt * .half) course =
      report.after dt (course.delay 1) := by
  have hretries : report.retries + 1 + course.retries =
      report.retries + (course.retries + 1) := by omega
  unfold MarchReport.after
  rw [Course.length_halvings_delay, Course.isSome_stop_delay, Course.retries_delay_one h, hretries]
  rfl

theorem MarchReport.after_stop (report : MarchReport) (dt : Binary64) (ires : Int) :
    report.after dt ⟨[], some (0, ires)⟩ =
      { report with aborted := true, finalStep := dt } := by
  simp [MarchReport.after, Course.retries, Binary64.halved]

/-- A flag that ends a march at once moves nothing. -/
theorem moved_stop (solver : Solver) (dt : Binary64) {ires : Int} (hne : ires ≠ 0) :
    solver.moved (stepsTaken dt (Course.mk [] (some (0, ires))).flags) = solver := by
  rw [Course.flags_stop, stepsTaken, if_neg hne]
  exact solver.moved_nil

section Loop

variable {residual : Solver → σ → Int × σ} {maxRetries remaining : Nat} {dt : Binary64}
  {solver : Solver} {report : MarchReport} {s next : σ} {ires : Int}

theorem marchFrom_of_zero (retriesLeft : Nat) (h : residual (solver.advance dt) s = (0, next)) :
    marchFrom residual maxRetries (remaining + 1) retriesLeft dt solver report s =
      marchFrom residual maxRetries remaining maxRetries dt (solver.advance dt)
        { report with accepted := report.accepted + 1 } next := by
  rw [marchFrom.eq_def]
  simp only [h, if_true]

theorem marchFrom_of_retry (retriesLeft : Nat)
    (h : residual (solver.advance dt) s = (iresRetry, next)) :
    marchFrom residual maxRetries (remaining + 1) (retriesLeft + 1) dt solver report s =
      marchFrom residual maxRetries (remaining + 1) retriesLeft (dt * .half) solver
        { report with retries := report.retries + 1 } next := by
  rw [marchFrom.eq_def]
  simp only [h, if_true]
  rfl

/-- A march ends at any other flag, and at a retry when it may not retry. -/
theorem marchFrom_of_stop {retriesLeft : Nat}
    (h : residual (solver.advance dt) s = (ires, next)) (hne : ires ≠ 0)
    (hretry : ires = iresRetry → retriesLeft = 0) :
    marchFrom residual maxRetries (remaining + 1) retriesLeft dt solver report s =
      ({ report with aborted := true, finalStep := dt }, solver, next) := by
  rw [marchFrom.eq_def]
  simp only [h, if_neg hne]
  by_cases hires : ires = iresRetry
  · rw [if_pos hires, hretry hires]
  · rw [if_neg hires]

theorem noted_of_eq (log : List Trial) (h : residual solver s = (ires, next)) :
    noted residual solver (s, log) = (ires, (next, log ++ [⟨solver, ires⟩])) := by
  simp only [noted, h]

end Loop

/-- The loop of a march has a course, which says everything about it, whether or not the trials
are noted.  The halvings since the last step that was taken count among those of the next one. -/
theorem marchFrom_course (residual : Solver → σ → Int × σ) {maxRetries remaining retriesLeft : Nat}
    (dt : Binary64) (solver : Solver) (report : MarchReport) (s : σ) (log : List Trial)
    (hleft : retriesLeft ≤ maxRetries) :
    ∃ (course : Course) (last : σ),
      (course.delay (maxRetries - retriesLeft)).Fits remaining maxRetries ∧
      marchFrom residual maxRetries remaining retriesLeft dt solver report s =
        (report.after dt course, solver.moved (stepsTaken dt course.flags), last) ∧
      marchFrom (noted residual) maxRetries remaining retriesLeft dt solver report (s, log) =
        (report.after dt course, solver.moved (stepsTaken dt course.flags),
          (last, log ++ asked solver dt course.flags)) := by
  fun_induction marchFrom residual maxRetries remaining retriesLeft dt solver report s
    generalizing log
  case case1 retriesLeft dt solver report s =>
    -- no step is left
    refine ⟨⟨[], none⟩, s, ?_, ?_, ?_⟩
    · exact ⟨by simp [Course.delay], fun _ => rfl, by simp [Course.delay]⟩
    · rw [show stepsTaken dt (Course.mk [] none).flags = [] from rfl, moved_nil]
      simp [MarchReport.after, Course.retries, Binary64.halved]
    · rw [marchFrom, show stepsTaken dt (Course.mk [] none).flags = [] from rfl, moved_nil]
      simp [MarchReport.after, Course.retries, Binary64.halved, Course.flags, asked]
  case case2 remaining retriesLeft dt solver report s trial next hanswer ih =>
    -- the step is taken
    obtain ⟨course, last, hfits, hplain, hnoted⟩ := ih (log ++ [⟨trial, 0⟩]) le_rfl
    rw [Nat.sub_self, Course.delay_zero] at hfits
    have hreport := report.after_step dt course
    have hmoved : trial.moved (stepsTaken dt course.flags) =
        solver.moved (stepsTaken dt course.step.flags) := by
      rw [Course.flags_step, stepsTaken, if_pos rfl, ← List.singleton_append, ← moved_moved,
        moved_singleton]
    have hasked : ⟨trial, 0⟩ :: asked trial dt course.flags =
        asked solver dt course.step.flags := by
      rw [Course.flags_step]
      rfl
    refine ⟨course.step, last, hfits.step (Nat.sub_le _ _), ?_, ?_⟩
    · rw [hplain, hreport, hmoved]
    · rw [marchFrom_of_zero _ (noted_of_eq log hanswer), hnoted, hreport, hmoved, ← hasked,
        List.append_assoc, List.singleton_append]
  case case3 remaining dt solver report s trial next hanswer hne =>
    -- the step may not be halved again
    refine ⟨⟨[], some (0, iresRetry)⟩, next, ?_, ?_, ?_⟩
    · exact Course.fits_stop (Nat.sub_le _ _) hne fun _ => rfl
    · rw [report.after_stop, moved_stop solver dt hne]
    · rw [marchFrom_of_stop (noted_of_eq log hanswer) hne fun _ => rfl, report.after_stop,
        moved_stop solver dt hne]
      rfl
  case case4 remaining dt solver report s trial next left hanswer hne ih =>
    -- the step is halved
    obtain ⟨course, last, hfits, hplain, hnoted⟩ := ih (log ++ [⟨trial, iresRetry⟩]) (by omega)
    have hflag := Course.exists_flag_of_delay hfits.exists_flag
    have hreport := report.after_delay_one dt hflag
    have htimes : 1 + (maxRetries - (left + 1)) = maxRetries - left := by omega
    have htaken : stepsTaken (dt * .half) course.flags =
        stepsTaken dt (course.delay 1).flags := by
      rw [Course.flags_delay_one hflag, stepsTaken, if_neg hne]
    have hasked : ⟨trial, iresRetry⟩ :: asked solver (dt * .half) course.flags =
        asked solver dt (course.delay 1).flags := by
      rw [Course.flags_delay_one hflag, asked, if_neg hne]
    refine ⟨course.delay 1, last, ?_, ?_, ?_⟩
    · rw [Course.delay_delay, htimes]
      exact hfits
    · rw [hplain, hreport, htaken]
    · rw [marchFrom_of_retry _ (noted_of_eq log hanswer), hnoted, hreport, htaken, ← hasked,
        List.append_assoc, List.singleton_append]
  case case5 remaining retriesLeft dt solver report s trial ires next hanswer hne hretry =>
    -- any other flag ends the march
    refine ⟨⟨[], some (0, ires)⟩, next, ?_, ?_, ?_⟩
    · exact Course.fits_stop (Nat.sub_le _ _) hne fun h => absurd h hretry
    · rw [report.after_stop, moved_stop solver dt hne]
    · rw [marchFrom_of_stop (noted_of_eq log hanswer) hne fun h => absurd h hretry,
        report.after_stop, moved_stop solver dt hne]
      simp [Course.flags_stop, asked, hne]

/-! ## The march -/

/-- What a march does. -/
structure Marched (residual : Solver → σ → Int × σ) (steps : Nat) (dt : Binary64)
    (maxRetries : Nat) (solver : Solver) (s : σ) (report : MarchReport) (final : Solver)
    (last : σ) (trials : List Trial) : Prop where
  /-- The trials are all questions that the march asks, with the flags given for them: to note
  them changes nothing else. -/
  noted : march (noted residual) steps dt maxRetries solver (s, []) = (report, final, last, trials)
  /-- There are at most so many of them. -/
  bounded : trials.length ≤ steps * (maxRetries + 1)
  /-- Each is a step that is taken, or one that is tried again, or it is the end. -/
  counted : trials.length = report.accepted + report.retries + if report.aborted then 1 else 0
  /-- No more steps are taken than asked for. -/
  accepted_le : report.accepted ≤ steps
  /-- The march ends early exactly if fewer are. -/
  aborted : report.aborted = true ↔ report.accepted < steps
  /-- Its flags are those of a course: before each step that is taken at most so many retries. -/
  course : ∃ course : Course, course.Fits steps maxRetries ∧
    trials.map Trial.ires = course.flags ∧ course.halvings.length = report.accepted ∧
      course.retries = report.retries ∧ course.stop.isSome = report.aborted
  /-- The length of a step is halved once for each retry. -/
  finalStep : report.finalStep = dt.halved report.retries
  /-- As many steps lead to the last state as were taken. -/
  taken : (stepsTaken dt (trials.map Trial.ires)).length = report.accepted
  /-- The last state is where they lead, whatever else was tried. -/
  reached : final = solver.moved (stepsTaken dt (trials.map Trial.ires))
  /-- Nothing but the time and the state variables changes. -/
  unchanged : final.yp = solver.yp ∧ final.ipar = solver.ipar ∧ final.cj = solver.cj ∧
    final.rpar = solver.rpar
  /-- Each question is about the state after the steps taken so far and one more, which is as long
  as the retries so far have left it. -/
  asked : ∀ before trial after, trials = before ++ trial :: after →
    trial.state = solver.moved (stepsTaken dt (before.map Trial.ires) ++
      [stepLength dt (before.map Trial.ires)])

/-- **What a march does.**  Whatever the callback and its flags, a march ends after at most
`steps * (maxRetries + 1)` trials.  They are the steps that are taken, the retries, of which there
are at most `maxRetries` between two steps, and the trial that ends a march early.  The last state
is the first one after the steps that were taken, each with the length it had then. -/
theorem march_conduct (residual : Solver → σ → Int × σ) (steps : Nat) (dt : Binary64)
    (maxRetries : Nat) (solver : Solver) (s : σ) :
    ∃ (report : MarchReport) (final : Solver) (last : σ) (trials : List Trial),
      march residual steps dt maxRetries solver s = (report, final, last) ∧
        Marched residual steps dt maxRetries solver s report final last trials := by
  obtain ⟨course, last, hfits, hplain, hnoted⟩ :=
    marchFrom_course residual dt solver { finalStep := dt } s [] (le_refl maxRetries)
  rw [Nat.sub_self, Course.delay_zero] at hfits
  have hflags := map_ires_asked solver dt course.flags
  have hlength : (Solver.asked solver dt course.flags).length = course.flags.length := by
    rw [← List.length_map, hflags]
  have haccepted : (MarchReport.after { finalStep := dt } dt course).accepted =
      course.halvings.length := Nat.zero_add _
  have hretries : (MarchReport.after { finalStep := dt } dt course).retries =
      course.retries := Nat.zero_add _
  have haborted : (MarchReport.after { finalStep := dt } dt course).aborted =
      course.stop.isSome := Bool.false_or _
  refine ⟨_, _, last, Solver.asked solver dt course.flags, hplain, ?_⟩
  constructor
  case noted =>
    exact hnoted
  case bounded =>
    rw [hlength]
    exact hfits.length_flags_le
  case counted =>
    rw [hlength, course.length_flags, haccepted, hretries, haborted]
  case accepted_le =>
    rw [haccepted]
    exact hfits.length_halvings_le
  case aborted =>
    rw [haccepted, haborted]
    exact hfits.isSome_stop_iff
  case course =>
    exact ⟨course, hfits, hflags, haccepted.symm, hretries.symm, haborted.symm⟩
  case finalStep =>
    rw [hretries]
    rfl
  case taken =>
    rw [hflags, haccepted]
    exact hfits.length_stepsTaken dt
  case reached =>
    rw [hflags]
  case unchanged =>
    exact ⟨rfl, rfl, rfl, rfl⟩
  case asked =>
    intro before trial after htrials
    exact state_of_asked htrials

end Solver

end CallbackBridge
