import Mathlib.Logic.Function.Basic

/-! Maps from keys to values as partial functions; inserting is `Function.update`. -/

namespace RemoteAccess.PartialMap

variable {κ β : Type*} [DecidableEq κ] {f : κ → Option β} {k x : κ} {b c : β}

theorem cases_of_update (found : Function.update f k (some b) x = some c) :
    (x = k ∧ c = b) ∨ (x ≠ k ∧ f x = some c) := by
  by_cases same : x = k
  · rw [same, Function.update_self] at found
    exact .inl ⟨same, (Option.some.inj found).symm⟩
  · rw [Function.update_of_ne same] at found
    exact .inr ⟨same, found⟩

theorem update_of_none (free : f k = none) (found : f x = some c) :
    Function.update f k (some b) x = some c := by
  have other : x ≠ k := by
    rintro rfl
    rw [free] at found
    cases found
  rw [Function.update_of_ne other, found]

end RemoteAccess.PartialMap
