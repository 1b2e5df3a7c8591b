import Mathlib.Control.Monad.Writer
import Mathlib.Tactic.Common

/-! Computations that note down the value of every expression they evaluate, and what
is left of one where the language defines only some of these values. -/

namespace RemoteAccess.Evaluations

variable {ω α β ι σ : Type}

abbrev Evaluation (ω : Type) : Type → Type := Writer (List ω)

def value (m : Evaluation ω α) : α := (WriterT.run m).1

/-- The values noted, in the order of evaluation. -/
def noted (m : Evaluation ω α) : List ω := (WriterT.run m).2

def evaluate (v : ω) : Evaluation ω ω := do
  tell [v]
  return v

@[simp] theorem value_pure (a : α) : value (pure a : Evaluation ω α) = a := rfl

@[simp] theorem value_evaluate (v : ω) : value (evaluate v) = v := rfl

@[simp] theorem value_bind (m : Evaluation ω α) (f : α → Evaluation ω β) :
    value (m >>= f) = value (f (value m)) := rfl

theorem value_foldlM (round : σ → ι → Evaluation ω σ) (xs : List ι) (s : σ) :
    value (xs.foldlM round s) = xs.foldl (fun s x => value (round s x)) s := by
  induction xs generalizing s with
  | nil => rfl
  | cons x xs ih => rw [List.foldlM_cons, value_bind, ih, List.foldl_cons]

/-! ### What holds of every value -/

variable (P : ω → Prop)

def Throughout (m : Evaluation ω α) : Prop := ∀ v ∈ noted m, P v

instance [DecidablePred P] (m : Evaluation ω α) : Decidable (Throughout P m) :=
  inferInstanceAs (Decidable (∀ v ∈ noted m, P v))

@[simp] theorem throughout_pure (a : α) : Throughout P (pure a : Evaluation ω α) := by
  rintro v ⟨⟩

@[simp] theorem throughout_evaluate (v : ω) : Throughout P (evaluate v) ↔ P v :=
  List.forall_mem_singleton

@[simp] theorem throughout_bind (m : Evaluation ω α) (f : α → Evaluation ω β) :
    Throughout P (m >>= f) ↔ Throughout P m ∧ Throughout P (f (value m)) :=
  List.forall_mem_append

theorem throughout_evaluate_bind (v : ω) (f : ω → Evaluation ω α) :
    Throughout P (evaluate v >>= f) ↔ P v ∧ Throughout P (f v) := by
  rw [throughout_bind, throughout_evaluate, value_evaluate]

@[simp] theorem throughout_ite (c : Prop) [Decidable c] (m n : Evaluation ω α) :
    Throughout P (if c then m else n) ↔ (c → Throughout P m) ∧ (¬ c → Throughout P n) := by
  split_ifs with holds <;> simp [holds]

theorem throughout_foldlM {P} {round : σ → ι → Evaluation ω σ} {Q : ι → Prop} {xs : List ι}
    (each : ∀ s, ∀ x ∈ xs, (Throughout P (round s x) ↔ Q x)) (s : σ) :
    Throughout P (xs.foldlM round s) ↔ ∀ x ∈ xs, Q x := by
  induction xs generalizing s with
  | nil => simp
  | cons x xs ih =>
    rw [List.foldlM_cons, throughout_bind, each s x List.mem_cons_self,
      ih fun s x later => each s x (List.mem_cons_of_mem _ later), List.forall_mem_cons]

theorem throughout_foldlM_of {P} {round : σ → ι → Evaluation ω σ} {xs : List ι}
    (each : ∀ s, ∀ x ∈ xs, Throughout P (round s x)) (s : σ) :
    Throughout P (xs.foldlM round s) :=
  (throughout_foldlM (Q := fun _ => True)
    (fun s x member => iff_true_intro (each s x member)) s).mpr
    fun _ _ => trivial

/-! ### Where only some values are defined -/

variable [DecidablePred P]

/-- The outcome where a value outside `P` is undefined behaviour. -/
def defined (m : Evaluation ω α) : Option α := if Throughout P m then some (value m) else none

theorem defined_pure (a : α) : defined P (pure a : Evaluation ω α) = some a :=
  if_pos (throughout_pure P a)

theorem defined_evaluate (v : ω) : defined P (evaluate v) = if P v then some v else none := by
  simp only [defined, throughout_evaluate, value_evaluate]

theorem defined_bind (m : Evaluation ω α) (f : α → Evaluation ω β) :
    defined P (m >>= f) = defined P m >>= fun a => defined P (f a) := by
  simp only [defined, throughout_bind, value_bind]
  by_cases first : Throughout P m <;> simp [first]

theorem foldlM_defined {P} [DecidablePred P] {I : σ → Prop} {partly : σ → ι → Option σ}
    {round : σ → ι → Evaluation ω σ} {xs : List ι}
    (each : ∀ s, I s → ∀ x ∈ xs,
      partly s x = defined P (round s x) ∧ I (value (round s x))) {s : σ} (start : I s) :
    xs.foldlM partly s = defined P (xs.foldlM round s) ∧ I (value (xs.foldlM round s)) := by
  induction xs generalizing s with
  | nil => exact ⟨(defined_pure P s).symm, start⟩
  | cons x xs ih =>
    obtain ⟨first, kept⟩ := each s start x List.mem_cons_self
    obtain ⟨rest, last⟩ := ih (fun s kept x later => each s kept x (List.mem_cons_of_mem _ later))
      kept
    rw [List.foldlM_cons, List.foldlM_cons, value_bind]
    refine ⟨?_, last⟩
    rw [first, defined_bind, defined, Option.bind_eq_bind]
    split_ifs
    · exact rest
    · rfl

theorem defined_ne_none_iff {m : Evaluation ω α} : defined P m ≠ none ↔ Throughout P m := by
  simp [defined]

end RemoteAccess.Evaluations
