import RemoteAccess.Basics.Interleaving

/-! Readers among the tasks of an interleaved system. A reader gets the lock once, answers what
it reads and changes nothing, so the others run as without it, and what it answers is read at
one moment of their run. -/

namespace RemoteAccess.Readers

open Interleaving

variable {σ τ κ ι ρ α : Type*}

inductive Task (τ ρ α : Type*)
  | writer (task : τ)
  | asking (query : ρ)
  | answered (query : ρ) (answer : α)

def Task.writer? : Task τ ρ α → Option τ
  | .writer task => some task
  | .asking _ | .answered .. => none

section Definitions

variable (begin : κ → τ) (advance : σ → τ → ι → Option (σ × τ)) (read : σ → ρ → α)

def start : κ ⊕ ρ → Task τ ρ α
  | .inl call => .writer (begin call)
  | .inr query => .asking query

def proceed (shared : σ) : Task τ ρ α → ι → Option (σ × Task τ ρ α)
  | .writer task, input => (advance shared task input).map fun (s, task) => (s, .writer task)
  | .asking query, _ => some (shared, .answered query (read shared query))
  | .answered .., _ => none

end Definitions

def writers (pool : Pool σ (Task τ ρ α)) : Pool σ τ where
  shared := pool.shared
  tasks := pool.tasks.filterMap Task.writer?

theorem filterMap_writer {tasks : List (Task τ ρ α)} {i : Nat} {task : τ}
    (here : tasks[i]? = some (.writer task)) :
    ∃ j, (tasks.filterMap Task.writer?)[j]? = some task ∧
      ∀ task', (tasks.set i (.writer task')).filterMap Task.writer? =
        (tasks.filterMap Task.writer?).set j task' := by
  induction tasks generalizing i with
  | nil => cases here
  | cons first tasks ih =>
    cases i with
    | zero =>
      obtain rfl := Option.some.inj here
      exact ⟨0, rfl, fun task' => rfl⟩
    | succ i =>
      obtain ⟨j, found, changed⟩ := ih here
      cases first with
      | writer other =>
        exact ⟨j + 1, found, fun task' => congrArg (other :: ·) (changed task')⟩
      | asking query => exact ⟨j, found, changed⟩
      | answered query answer => exact ⟨j, found, changed⟩

theorem filterMap_reader {tasks : List (Task τ ρ α)} {i : Nat} {task task' : Task τ ρ α}
    (here : tasks[i]? = some task) (reader : task.writer? = none) (still : task'.writer? = none) :
    (tasks.set i task').filterMap Task.writer? = tasks.filterMap Task.writer? := by
  induction tasks generalizing i with
  | nil => rfl
  | cons first tasks ih =>
    cases i with
    | zero =>
      obtain rfl := Option.some.inj here
      rw [List.set_cons_zero, List.filterMap_cons_none still, List.filterMap_cons_none reader]
    | succ i =>
      rw [List.set_cons_succ, List.filterMap_cons, List.filterMap_cons, ih here]

variable {begin : κ → τ} {advance : σ → τ → ι → Option (σ × τ)} {read : σ → ρ → α}

theorem step_writers {s t : Pool σ (Task τ ρ α)} {event : Event (κ ⊕ ρ) ι}
    (stepped : step (start begin) (proceed advance read) s event = some t) :
    (∃ own, step begin advance (writers s) own = some (writers t)) ∨ writers t = writers s := by
  obtain ⟨call, -, rfl⟩ | ⟨i, input, task, task', -, here, moved, after⟩ := step_cases stepped
  · cases call with
    | inl call =>
      refine .inl ⟨.spawn call, ?_⟩
      rw [step, writers, writers, List.filterMap_append]
      rfl
    | inr query =>
      refine .inr ?_
      rw [writers, writers, List.filterMap_append, List.filterMap_cons_none rfl,
        List.filterMap_nil, List.append_nil]
  · cases task with
    | writer task =>
      obtain ⟨⟨shared, next⟩, took, same⟩ := Option.map_eq_some_iff.mp moved
      obtain ⟨shared_eq, rfl⟩ := Prod.mk.inj same
      obtain ⟨j, found, changed⟩ := filterMap_writer here
      refine .inl ⟨.advance j input, ?_⟩
      simp only [step, writers, found, took, after, changed, shared_eq]
    | asking query =>
      obtain ⟨shared_eq, rfl⟩ := Prod.mk.inj (Option.some.inj moved)
      exact .inr (by rw [writers, writers, after, filterMap_reader here rfl rfl, shared_eq])
    | answered query answer => cases moved

theorem run_writers {s t : Pool σ (Task τ ρ α)} {events : List (Event (κ ⊕ ρ) ι)}
    (ran : Transitions.run (step (start begin) (proceed advance read)) s events = some t) :
    ∃ own, Transitions.run (step begin advance) (writers s) own = some (writers t) := by
  refine Transitions.run_invariant (fun t => ∃ own,
    Transitions.run (step begin advance) (writers s) own = some (writers t)) ⟨[], rfl⟩ ?_ ran
  rintro t u event stepped ⟨own, reached⟩
  obtain ⟨event, moved⟩ | unchanged := step_writers stepped
  · refine ⟨own ++ [event], ?_⟩
    rw [Transitions.run_concat, reached, Option.bind_some, moved]
  · exact ⟨own, by rw [unchanged, reached]⟩

theorem step_reader {s t : Pool σ (Task τ ρ α)} {event : Event (κ ⊕ ρ) ι}
    (stepped : step (start begin) (proceed advance read) s event = some t) {i : Nat} {query : ρ} :
    (s.tasks[i]? = some (.asking query) → t.tasks[i]? = some (.asking query) ∨
      writers t = writers s ∧ t.tasks[i]? = some (.answered query (read s.shared query))) ∧
    ∀ answer, s.tasks[i]? = some (.answered query answer) →
      t.tasks[i]? = some (.answered query answer) := by
  have later : ∀ {task more}, s.tasks[i]? = some task → (s.tasks ++ more)[i]? = some task := by
    intro task more here
    exact (List.getElem?_append_left (List.getElem?_eq_some_iff.mp here).1).trans here
  obtain ⟨call, -, rfl⟩ | ⟨j, input, task, task', -, there, moved, after⟩ := step_cases stepped
  · exact ⟨fun here => .inl (later here), fun answer here => later here⟩
  · rw [after]
    by_cases same : j = i
    · subst same
      refine ⟨fun here => .inr ?_, fun answer here => ?_⟩
      · obtain rfl := Option.some.inj (there.symm.trans here)
        obtain ⟨shared_eq, rfl⟩ := Prod.mk.inj (Option.some.inj moved)
        refine ⟨by rw [writers, writers, after, filterMap_reader there rfl rfl, shared_eq], ?_⟩
        exact List.getElem?_set_self (List.getElem?_eq_some_iff.mp there).1
      · obtain rfl := Option.some.inj (there.symm.trans here)
        cases moved
    · exact ⟨fun here => .inl ((List.getElem?_set_ne same).trans here),
        fun answer here => (List.getElem?_set_ne same).trans here⟩

/-- Where a reader is after some steps: still waiting, or with what it read at one of the
states that the writers went through since. -/
def Answers (begin : κ → τ) (advance : σ → τ → ι → Option (σ × τ)) (read : σ → ρ → α)
    (origin : Pool σ τ) (own : List (Event κ ι)) (query : ρ) (task : Option (Task τ ρ α)) : Prop :=
  task = some (.asking query) ∨
  ∃ before after between, own = before ++ after ∧
    Transitions.run (step begin advance) origin before = some between ∧
    task = some (.answered query (read between.shared query))

/-- The writers of a run have a run of their own, and a reader that was waiting at its start
answers what there is to read at a moment of it. -/
theorem answered_between {s t : Pool σ (Task τ ρ α)} {events : List (Event (κ ⊕ ρ) ι)}
    (ran : Transitions.run (step (start begin) (proceed advance read)) s events = some t)
    {i : Nat} {query : ρ} (waiting : s.tasks[i]? = some (.asking query)) :
    ∃ own, Transitions.run (step begin advance) (writers s) own = some (writers t) ∧
      Answers begin advance read (writers s) own query t.tasks[i]? := by
  refine Transitions.run_invariant (fun t => ∃ own,
    Transitions.run (step begin advance) (writers s) own = some (writers t) ∧
      Answers begin advance read (writers s) own query t.tasks[i]?)
    ⟨[], rfl, .inl waiting⟩ ?_ ran
  rintro t u event stepped ⟨own, reached, answers⟩
  have reader := @step_reader _ _ _ _ _ _ _ _ _ t u event stepped i query
  -- the writers' events so far, and one more if the step was theirs
  obtain ⟨more, moved⟩ := run_writers (Transitions.run_concat [] event |>.trans stepped)
  refine ⟨own ++ more, by rw [Transitions.run_append, reached, Option.bind_some, moved], ?_⟩
  obtain still | ⟨before, after, between, rfl, led, answer⟩ := answers
  · obtain still | ⟨unchanged, answer⟩ := reader.1 still
    · exact .inl still
    · exact .inr ⟨own, more, writers t, rfl, reached, answer⟩
  · exact .inr ⟨before, after ++ more, between, List.append_assoc .., led, reader.2 _ answer⟩

end RemoteAccess.Readers
