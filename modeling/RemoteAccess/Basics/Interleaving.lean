import Mathlib.Algebra.BigOperators.Group.List.Basic
import RemoteAccess.Basics.Transitions

/-! Any number of tasks on one shared state, interleaved at their atomic steps.
A call starts a task; `advance` is one atomic step of one task, with what it
draws from outside as input. What holds of all reachable pools follows from
facts about a single step: an invariant of the shared state, and what is known of
a task, which the steps of the others must leave true. -/

namespace RemoteAccess.Interleaving

variable {σ τ κ ι β : Type*}

structure Pool (σ τ : Type*) where
  shared : σ
  tasks : List τ

inductive Event (κ ι : Type*)
  | spawn (call : κ)
  | advance (i : Nat) (input : ι)

def step (begin : κ → τ) (advance : σ → τ → ι → Option (σ × τ)) (s : Pool σ τ) :
    Event κ ι → Option (Pool σ τ)
  | .spawn call => some { s with tasks := s.tasks ++ [begin call] }
  | .advance i input =>
    match s.tasks[i]? with
    | none => none
    | some task =>
      match advance s.shared task input with
      | none => none
      | some (shared, task) => some { shared := shared, tasks := s.tasks.set i task }

def run (begin : κ → τ) (advance : σ → τ → ι → Option (σ × τ)) (shared : σ)
    (events : List (Event κ ι)) : Option (Pool σ τ) :=
  Transitions.run (step begin advance) { shared := shared, tasks := [] } events

variable {begin : κ → τ} {advance : σ → τ → ι → Option (σ × τ)}

theorem step_cases {s t : Pool σ τ} {event : Event κ ι}
    (stepped : step begin advance s event = some t) :
    (∃ call, event = .spawn call ∧ t = { s with tasks := s.tasks ++ [begin call] }) ∨
    ∃ i input task task', event = .advance i input ∧ s.tasks[i]? = some task ∧
      advance s.shared task input = some (t.shared, task') ∧ t.tasks = s.tasks.set i task' := by
  cases event with
  | spawn call => exact .inl ⟨call, rfl, (Option.some.inj stepped).symm⟩
  | advance i input =>
    simp only [step] at stepped
    split at stepped
    · cases stepped
    · next task here =>
      split at stepped
      · cases stepped
      · next shared task' moved =>
        obtain rfl := Option.some.inj stepped
        exact .inr ⟨i, input, task, task', rfl, here, moved, rfl⟩

structure Keeps (begin : κ → τ) (advance : σ → τ → ι → Option (σ × τ)) (inv : σ → Prop)
    (known : σ → τ → Prop) : Prop where
  begins : ∀ {shared} call, inv shared → known shared (begin call)
  shared : ∀ {shared shared' task task' input}, advance shared task input = some (shared', task') →
    inv shared → known shared task → inv shared'
  own : ∀ {shared shared' task task' input}, advance shared task input = some (shared', task') →
    inv shared → known shared task → known shared' task'
  others : ∀ {shared shared' task task' input}, advance shared task input = some (shared', task') →
    inv shared → known shared task → ∀ other, known shared other → known shared' other

theorem Keeps.step {inv : σ → Prop} {known : σ → τ → Prop} (keeps : Keeps begin advance inv known)
    {s t : Pool σ τ} {event : Event κ ι} (stepped : step begin advance s event = some t)
    (before : inv s.shared ∧ ∀ task ∈ s.tasks, known s.shared task) :
    inv t.shared ∧ ∀ task ∈ t.tasks, known t.shared task := by
  obtain ⟨holds, tasks⟩ := before
  obtain ⟨call, -, rfl⟩ | ⟨i, input, task, task', -, here, moved, after⟩ := step_cases stepped
  · refine ⟨holds, fun task member => ?_⟩
    rw [List.mem_append, List.mem_singleton] at member
    obtain old | rfl := member
    · exact tasks task old
    · exact keeps.begins call holds
  · have mine := tasks task (List.mem_of_getElem? here)
    refine ⟨keeps.shared moved holds mine, fun other member => ?_⟩
    rw [after] at member
    obtain old | rfl := List.mem_or_eq_of_mem_set member
    · exact keeps.others moved holds mine other (tasks other old)
    · exact keeps.own moved holds mine

theorem Keeps.run {inv : σ → Prop} {known : σ → τ → Prop} (keeps : Keeps begin advance inv known)
    {start : σ} (initially : inv start) {events : List (Event κ ι)} {s : Pool σ τ}
    (ran : run begin advance start events = some s) :
    inv s.shared ∧ ∀ task ∈ s.tasks, known s.shared task :=
  Transitions.run_invariant (fun s => inv s.shared ∧ ∀ task ∈ s.tasks, known s.shared task)
    ⟨initially, by simp⟩ keeps.step ran

/-- What is claimed of the shared state has a task answering for it, when a step
that makes a claim true answers for it and tasks go on answering. -/
theorem claimed_owned (claimed : σ → β → Prop) (owns : τ → β → Prop)
    (fresh : ∀ {shared shared' task task' input b},
      advance shared task input = some (shared', task') → claimed shared' b →
        claimed shared b ∨ owns task' b)
    (goes_on : ∀ {shared shared' task task' input b},
      advance shared task input = some (shared', task') → owns task b → owns task' b)
    {start : σ} (initially : ∀ b, ¬ claimed start b) {events : List (Event κ ι)} {s : Pool σ τ}
    (ran : run begin advance start events = some s) (b : β) (holds : claimed s.shared b) :
    ∃ task ∈ s.tasks, owns task b := by
  refine Transitions.run_invariant
    (fun s => ∀ b, claimed s.shared b → ∃ task ∈ s.tasks, owns task b)
    (fun b holds => absurd holds (initially b)) ?_ ran b holds
  intro s t event stepped before b holds
  obtain ⟨call, -, rfl⟩ | ⟨i, input, task, task', -, here, moved, after⟩ := step_cases stepped
  · obtain ⟨owner, member, owns⟩ := before b holds
    exact ⟨owner, List.mem_append_left _ member, owns⟩
  · have mine : task' ∈ t.tasks := by
      obtain ⟨inside, -⟩ := List.getElem?_eq_some_iff.mp here
      rw [after]
      exact List.mem_set inside task'
    obtain old | new := fresh moved holds
    · obtain ⟨owner, member, owned⟩ := before b old
      obtain ⟨j, at_j⟩ := List.mem_iff_getElem?.mp member
      by_cases same : i = j
      · rw [← same, here] at at_j
        exact ⟨task', mine, goes_on moved (Option.some.inj at_j ▸ owned)⟩
      · refine ⟨owner, ?_, owned⟩
        rw [after]
        exact List.mem_iff_getElem?.mpr ⟨j, (List.getElem?_set_ne same).trans at_j⟩
    · exact ⟨task', mine, new⟩

theorem finished_stays {task : τ} (finished : ∀ shared input, advance shared task input = none)
    {s t : Pool σ τ} {shared : σ} {events later : List (Event κ ι)}
    (ran : run begin advance shared events = some s)
    (again : run begin advance shared (events ++ later) = some t) (member : task ∈ s.tasks) :
    task ∈ t.tasks := by
  unfold run at ran again
  rw [Transitions.run_append, ran, Option.bind_some] at again
  refine Transitions.run_invariant (fun s => task ∈ s.tasks) member ?_ again
  intro s t event stepped here
  obtain ⟨call, -, rfl⟩ | ⟨i, input, other, other', -, there, moved, after⟩ := step_cases stepped
  · exact List.mem_append_left _ here
  · obtain ⟨j, at_j⟩ := List.mem_iff_getElem?.mp here
    have apart : i ≠ j := by
      rintro rfl
      rw [Option.some.inj (there.symm.trans at_j), finished] at moved
      cases moved
    rw [after]
    exact List.mem_iff_getElem?.mpr ⟨j, (List.getElem?_set_ne apart).trans at_j⟩

theorem filterMap_set_perm {result : τ → Option β} {tasks : List τ} {i : Nat} {task : τ}
    (here : tasks[i]? = some task) (pending : result task = none) (task' : τ) :
    ((tasks.set i task').filterMap result).Perm
      (tasks.filterMap result ++ (result task').toList) := by
  induction tasks generalizing i with
  | nil => cases here
  | cons first tasks ih =>
    cases i with
    | zero =>
      obtain rfl := Option.some.inj here
      rw [List.set_cons_zero, List.filterMap_cons_none pending]
      cases h : result task' with
      | none => rw [List.filterMap_cons_none h, Option.toList_none, List.append_nil]
      | some b =>
        rw [List.filterMap_cons_some h, Option.toList_some]
        exact (List.perm_append_singleton b _).symm
    | succ i =>
      have later := ih (i := i) here
      rw [List.set_cons_succ]
      cases h : result first with
      | none => rwa [List.filterMap_cons_none h, List.filterMap_cons_none h]
      | some b =>
        rw [List.filterMap_cons_some h, List.filterMap_cons_some h, List.cons_append]
        exact later.cons b

/-! ### Counting -/

theorem sum_map_set {M : Type*} [AddCommMonoid M] (weight : τ → M) {tasks : List τ} {i : Nat}
    {task : τ} (here : tasks[i]? = some task) (task' : τ) :
    ((tasks.set i task').map weight).sum + weight task = (tasks.map weight).sum + weight task' := by
  induction tasks generalizing i with
  | nil => cases here
  | cons first tasks ih =>
    cases i with
    | zero =>
      obtain rfl := Option.some.inj here
      simp only [List.set_cons_zero, List.map_cons, List.sum_cons]
      rw [add_comm, add_comm (weight task'), add_assoc]
    | succ i =>
      simp only [List.set_cons_succ, List.map_cons, List.sum_cons, add_assoc]
      rw [ih here]

/-- A count that each step raises by what its task gains in weight is the weight of
all tasks. -/
theorem run_balance {M : Type*} [AddCommGroup M] (count : σ → M) (weight : τ → M)
    (fresh : ∀ call, weight (begin call) = 0)
    (gains : ∀ {shared shared' task task' input},
      advance shared task input = some (shared', task') →
        count shared' + weight task = count shared + weight task')
    {start : σ} {events : List (Event κ ι)} {s : Pool σ τ}
    (ran : run begin advance start events = some s) :
    count s.shared = count start + (s.tasks.map weight).sum := by
  refine Transitions.run_invariant
    (fun s : Pool σ τ => count s.shared = count start + (s.tasks.map weight).sum) (by simp) ?_ ran
  intro s t event stepped before
  obtain ⟨call, -, rfl⟩ | ⟨i, input, task, task', -, here, moved, after⟩ := step_cases stepped
  · rw [List.map_append, List.sum_append, List.map_singleton, List.sum_singleton, fresh, add_zero]
    exact before
  · have shift := sum_map_set weight here task'
    rw [← after] at shift
    have gain := gains moved
    rw [before] at gain
    refine add_right_cancel (b := weight task) ?_
    rw [gain, add_assoc, add_assoc, shift]

end RemoteAccess.Interleaving
