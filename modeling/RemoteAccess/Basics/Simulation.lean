import RemoteAccess.Basics.Transitions

/-! Forward simulation: each step of a machine is matched by the actions that it is labelled
with, taken by a second machine. -/

namespace RemoteAccess.Simulation

open Transitions

variable {σ ε τ α : Type*} {step : σ → ε → Option σ} {spec : τ → α → Option τ}
  {label : σ → ε → List α} {R : σ → τ → Prop}

/-- `R` is kept by every step, whose label the second machine can follow. -/
def Simulates (step : σ → ε → Option σ) (spec : τ → α → Option τ) (label : σ → ε → List α)
    (R : σ → τ → Prop) : Prop :=
  ∀ {s t event s'}, R s t → step s event = some s' → ∃ t', run spec t (label s event) = some t' ∧
    R s' t'

theorem Simulates.run (simulates : Simulates step spec label R) {s s' : σ} {t : τ}
    {events : List ε} (related : R s t) (ran : run step s events = some s') :
    ∃ t', run spec t (outputs step label s events) = some t' ∧ R s' t' := by
  induction events generalizing s t with
  | nil =>
    obtain rfl := Option.some.inj ran
    exact ⟨t, rfl, related⟩
  | cons event events ih =>
    rw [Transitions.run, List.foldlM_cons, Option.bind_eq_bind, Option.bind_eq_some_iff] at ran
    obtain ⟨between, stepped, later⟩ := ran
    obtain ⟨middle, followed, again⟩ := simulates related stepped
    obtain ⟨t', rest, last⟩ := ih again later
    refine ⟨t', ?_, last⟩
    rw [outputs, stepped, run_append, followed, Option.bind_some, rest]

end RemoteAccess.Simulation
