/-
# Demands that are made in order

A computation that can fail often makes demands on what it is given, one after the other, and
stops at the first one that is not met.

* `FirstUnmet` says which demand that is.
* `Examines` says of a computation that it makes demands in order; such computations can follow
  each other (`Examines.bind`).
-/
namespace CallbackBridge

variable {γ ε α β : Type} {met : γ → Prop} {refuses : γ → ε → Prop} {demands later : List γ}
  {P : α → Prop} {Q : β → Prop}

/-- Of demands that are made in order, all before this one are met, and this one is not. -/
def FirstUnmet (met : γ → Prop) (demands : List γ) (demand : γ) : Prop :=
  ∃ before after, demands = before ++ demand :: after ∧ (∀ d ∈ before, met d) ∧ ¬ met demand

/-- The computation makes the demands in order: it fails with an error of the first one that is
not met, or gives something that is as described. -/
def Examines (met : γ → Prop) (refuses : γ → ε → Prop) (demands : List γ) (result : Except ε α)
    (described : α → Prop) : Prop :=
  match result with
  | .ok a => (∀ demand ∈ demands, met demand) ∧ described a
  | .error e => ∃ demand, FirstUnmet met demands demand ∧ refuses demand e

namespace Examines

/-- Nothing is left to examine if all demands are met. -/
theorem of_met {a : α} (hmet : ∀ demand ∈ demands, met demand) (h : P a) :
    Examines met refuses demands (.ok a) P :=
  ⟨hmet, h⟩

/-- A single demand. -/
theorem one {demand : γ} {result : Except ε α}
    (hok : ∀ a, result = .ok a → met demand ∧ P a)
    (herror : ∀ e, result = .error e → ¬ met demand ∧ refuses demand e) :
    Examines met refuses [demand] result P := by
  cases hresult : result with
  | ok a =>
    obtain ⟨hmet, ha⟩ := hok a hresult
    refine ⟨?_, ha⟩
    intro d hd
    rw [List.mem_singleton.mp hd]
    exact hmet
  | error e =>
    obtain ⟨hunmet, herr⟩ := herror e hresult
    refine ⟨demand, ⟨[], [], rfl, ?_, hunmet⟩, herr⟩
    intro d hd
    cases hd

/-- Demands follow each other. -/
theorem bind {result : Except ε α} {f : α → Except ε β}
    (h : Examines met refuses demands result P)
    (hf : ∀ a, P a → Examines met refuses later (f a) Q) :
    Examines met refuses (demands ++ later) (result >>= f) Q := by
  cases result with
  | error e =>
    obtain ⟨demand, ⟨before, after, rfl, hbefore, hunmet⟩, herr⟩ := h
    refine ⟨demand, ⟨before, after ++ later, ?_, hbefore, hunmet⟩, herr⟩
    rw [List.append_assoc, List.cons_append]
  | ok a =>
    obtain ⟨hmet, ha⟩ := h
    have hlater := hf a ha
    show Examines met refuses (demands ++ later) (f a) Q
    cases hfa : f a with
    | ok b =>
      rw [hfa] at hlater
      refine ⟨?_, hlater.2⟩
      rw [List.forall_mem_append]
      exact ⟨hmet, hlater.1⟩
    | error e =>
      rw [hfa] at hlater
      obtain ⟨demand, ⟨before, after, rfl, hbefore, hunmet⟩, herr⟩ := hlater
      refine ⟨demand, ⟨demands ++ before, after, ?_, ?_, hunmet⟩, herr⟩
      · rw [List.append_assoc]
      · rw [List.forall_mem_append]
        exact ⟨hmet, hbefore⟩

/-- More may be said of what is given. -/
theorem mono {P' : α → Prop} {result : Except ε α} (h : Examines met refuses demands result P)
    (hP : ∀ a, P a → P' a) : Examines met refuses demands result P' := by
  cases result with
  | ok a => exact ⟨h.1, hP a h.2⟩
  | error e => exact h

end Examines

end CallbackBridge
