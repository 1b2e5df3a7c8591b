import Mathlib.Logic.Relation
import Mathlib.Tactic.Common

/-! Loops given by one pass. `body s = none` leaves the loop in state `s`;
`body s = some s'` goes round again. `run` is bounded by fuel, so a loop that
never ends is told apart from one that does. -/

namespace RemoteAccess.WhileLoop

variable {σ : Type*}

def run (body : σ → Option σ) : (fuel : Nat) → σ → Option σ
  | 0, _ => none
  | fuel + 1, s =>
    match body s with
    | none => some s
    | some next => run body fuel next

theorem run_exit {body : σ → Option σ} {s : σ} (fuel : Nat) (exit : body s = none) :
    run body (fuel + 1) s = some s := by
  rw [run, exit]

theorem run_pass {body : σ → Option σ} {s next : σ} (fuel : Nat) (pass : body s = some next) :
    run body (fuel + 1) s = run body fuel next := by
  rw [run, pass]

theorem run_mono {body : σ → Option σ} {s t : σ} {fuel fuel' : Nat} (le : fuel ≤ fuel')
    (done : run body fuel s = some t) : run body fuel' s = some t := by
  induction fuel generalizing fuel' s with
  | zero => exact nomatch done
  | succ fuel ih =>
    obtain ⟨fuel', rfl⟩ := Nat.exists_eq_add_of_le' (Nat.one_le_of_lt le)
    cases pass : body s with
    | none =>
      rw [run_exit fuel pass] at done
      rw [run_exit fuel' pass, done]
    | some next =>
      rw [run_pass fuel pass] at done
      rw [run_pass fuel' pass]
      exact ih (Nat.le_of_succ_le_succ le) done

theorem run_counted {body : σ → Option σ} {state : Nat → σ} {count : Nat}
    (pass : ∀ i < count, body (state i) = some (state (i + 1)))
    (exit : body (state count) = none) (fuel : Nat) (enough : count < fuel) :
    run body fuel (state 0) = some (state count) := by
  induction count generalizing fuel state with
  | zero =>
    obtain ⟨fuel, rfl⟩ := Nat.exists_eq_succ_of_ne_zero (Nat.ne_of_gt enough)
    exact run_exit fuel exit
  | succ count ih =>
    obtain ⟨fuel, rfl⟩ := Nat.exists_eq_succ_of_ne_zero (Nat.ne_zero_of_lt enough)
    rw [run_pass fuel (pass 0 (Nat.succ_pos count))]
    exact @ih (fun i => state (i + 1)) (fun i inside => pass (i + 1) (Nat.succ_lt_succ inside))
      exit fuel (Nat.lt_of_succ_lt_succ enough)

def Passes (body : σ → Option σ) : σ → σ → Prop :=
  Relation.ReflTransGen fun s next => body s = some next

theorem exists_run {body : σ → Option σ} (size : σ → Nat) {s : σ}
    (smaller : ∀ t next, Passes body s t → body t = some next → size next < size t) :
    ∃ fuel t, run body fuel s = some t := by
  induction len : size s using Nat.strongRecOn generalizing s with
  | ind n ih =>
    subst len
    cases pass : body s with
    | none => exact ⟨1, s, run_exit 0 pass⟩
    | some next =>
      obtain ⟨fuel, t, done⟩ := ih (size next) (smaller s next .refl pass)
        (fun t later reached => smaller t later (.head pass reached)) rfl
      exact ⟨fuel + 1, t, by rw [run_pass fuel pass, done]⟩

theorem run_forever {body : σ → Option σ} {Inv : σ → Prop}
    (pass : ∀ s, Inv s → ∃ next, body s = some next ∧ Inv next) {s : σ} (inv : Inv s)
    (fuel : Nat) : run body fuel s = none := by
  induction fuel generalizing s with
  | zero => rfl
  | succ fuel ih =>
    obtain ⟨next, round, again⟩ := pass s inv
    rw [run_pass fuel round]
    exact ih again

theorem run_stuck {body : σ → Option σ} {s : σ} (stuck : body s = some s) (fuel : Nat) :
    run body fuel s = none :=
  @run_forever _ body (· = s) (by rintro _ rfl; exact ⟨_, stuck, rfl⟩) s rfl fuel

end RemoteAccess.WhileLoop
