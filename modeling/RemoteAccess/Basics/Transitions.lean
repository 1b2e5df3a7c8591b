import Mathlib.Data.List.Induction

/-! Runs of a state machine whose step is a partial function of the event. -/

namespace RemoteAccess.Transitions

variable {σ ε : Type*}

/-- The state after `events`, if each of them can happen. -/
def run (step : σ → ε → Option σ) (start : σ) (events : List ε) : Option σ :=
  events.foldlM step start

variable {step : σ → ε → Option σ} {start : σ}

theorem run_concat (events : List ε) (event : ε) :
    run step start (events ++ [event]) = (run step start events).bind (step · event) := by
  unfold run
  rw [List.foldlM_append, Option.bind_eq_bind]
  congr 1
  funext s
  rw [List.foldlM_cons, Option.bind_eq_bind]
  exact Option.bind_fun_some (step s event)

theorem run_append (events more : List ε) :
    run step start (events ++ more) = (run step start events).bind (run step · more) := by
  unfold run
  rw [List.foldlM_append, Option.bind_eq_bind]

/-- `P` holds at every event of a run, in the state that the events before it lead to. -/
def Throughout (step : σ → ε → Option σ) (P : σ → ε → Prop) (start : σ) (events : List ε) : Prop :=
  ∀ before event after s, events = before ++ event :: after → run step start before = some s →
    P s event

variable {P : σ → ε → Prop}

theorem Throughout.left {events more : List ε} (all : Throughout step P start (events ++ more)) :
    Throughout step P start events := by
  rintro before event after s rfl reached
  exact all before event (after ++ more) s (by simp) reached

theorem throughout_nil : Throughout step P start [] := by
  intro before event after s split
  simp at split

theorem throughout_cons {event : ε} {events : List ε} (here : P start event)
    (later : ∀ s, step start event = some s → Throughout step P s events) :
    Throughout step P start (event :: events) := by
  intro before found after s split reached
  cases before with
  | nil =>
    obtain ⟨rfl, -⟩ := List.cons.inj split
    obtain rfl := Option.some.inj reached
    exact here
  | cons first before =>
    obtain ⟨rfl, rfl⟩ := List.cons.inj split
    rw [run, List.foldlM_cons, Option.bind_eq_bind, Option.bind_eq_some_iff] at reached
    obtain ⟨between, stepped, reached⟩ := reached
    exact later between stepped before found after s rfl reached

theorem Throughout.cons {event : ε} {events : List ε} {next : σ} (here : P start event)
    (stepped : step start event = some next) (later : Throughout step P next events) :
    Throughout step P start (event :: events) := by
  refine throughout_cons here fun s other => ?_
  rw [stepped] at other
  exact Option.some.inj other ▸ later

/-- What holds at the start and is kept by every step at which `P` holds, holds
after every run with `P` throughout, also where it refers to the events so far. -/
theorem Throughout.history_invariant {events : List ε} {s : σ}
    (all : Throughout step P start events) (inv : List ε → σ → Prop)
    (ran : run step start events = some s) (initially : inv [] start)
    (kept : ∀ {before s t event}, P s event → step s event = some t → inv before s →
      inv (before ++ [event]) t) : inv events s := by
  induction events using List.reverseRecOn generalizing s with
  | nil => exact Option.some.inj ran ▸ initially
  | append_singleton events event ih =>
    rw [run_concat, Option.bind_eq_some_iff] at ran
    obtain ⟨between, earlier, stepped⟩ := ran
    exact kept (all events event [] between rfl earlier) stepped (ih all.left earlier)

theorem Throughout.invariant {events : List ε} {s : σ}
    (all : Throughout step P start events) (inv : σ → Prop) (ran : run step start events = some s)
    (initially : inv start)
    (kept : ∀ {s t event}, P s event → step s event = some t → inv s → inv t) : inv s :=
  all.history_invariant (fun _ => inv) ran initially fun holds stepped => kept holds stepped

theorem run_invariant (inv : σ → Prop) (initially : inv start)
    (kept : ∀ {s t event}, step s event = some t → inv s → inv t)
    {events : List ε} {s : σ} (ran : run step start events = some s) : inv s :=
  Throughout.invariant (P := fun _ _ => True) (fun _ _ _ _ _ _ => trivial) inv ran initially
    fun _ stepped => kept stepped

theorem throughout_congr {Q : σ → ε → Prop} (inv : σ → Prop) (initially : inv start)
    (kept : ∀ {s t event}, step s event = some t → inv s → inv t) {events : List ε}
    (same : ∀ {before event after s}, events = before ++ event :: after →
      run step start before = some s → inv s → (P s event ↔ Q s event)) :
    Throughout step P start events ↔ Throughout step Q start events := by
  constructor
  · intro all before event after s split reached
    have holds := run_invariant inv initially kept reached
    exact (same split reached holds).mp (all before event after s split reached)
  · intro all before event after s split reached
    have holds := run_invariant inv initially kept reached
    exact (same split reached holds).mpr (all before event after s split reached)

theorem exists_run_left {events more : List ε} {s : σ}
    (ran : run step start (events ++ more) = some s) :
    ∃ between, run step start events = some between ∧ run step between more = some s := by
  rwa [run_append, Option.bind_eq_some_iff] at ran

/-- What holds at the start, and after each step exactly when `P` holds of it, holds all
along a run exactly when `P` holds throughout. -/
theorem always_iff_throughout (inv good : σ → Prop) (initially : inv start)
    (good_start : good start) (kept : ∀ {s t event}, step s event = some t → inv s → inv t)
    (exact_ : ∀ {s t event}, step s event = some t → inv s → good s → (good t ↔ P s event))
    {events : List ε} {last : σ} (ran : run step start events = some last) :
    (∀ before after s, events = before ++ after → run step start before = some s → good s) ↔
      Throughout step P start events := by
  constructor
  · rintro always before event after s rfl reached
    obtain ⟨t, next, -⟩ :=
      @exists_run_left _ _ _ _ (before ++ [event]) after last (by simpa using ran)
    have holds := run_invariant inv initially kept reached
    have stepped : step s event = some t := by
      rwa [run_concat, reached, Option.bind_some] at next
    have before_good := always before (event :: after) s rfl reached
    exact (exact_ stepped holds before_good).mp (always (before ++ [event]) after t (by simp) next)
  · intro all before after s split reached
    induction before using List.reverseRecOn generalizing after s with
    | nil => exact Option.some.inj reached ▸ good_start
    | append_singleton before event ih =>
      rw [run_concat, Option.bind_eq_some_iff] at reached
      obtain ⟨between, earlier, stepped⟩ := reached
      have split' : events = before ++ event :: after := by simp [split]
      have holds := run_invariant inv initially kept earlier
      exact (exact_ stepped holds (ih (event :: after) between split' earlier)).mpr
        (all before event after between split' earlier)

/-- A preorder of states holds between any two states of a run exactly when no step
of the run leaves it. -/
theorem ordered_iff_throughout (R : σ → σ → Prop) (refl : ∀ s, R s s)
    (trans : ∀ {s t u}, R s t → R t u → R s u) (events : List ε) :
    (∀ before between after s t, events = before ++ between ++ after →
      run step start before = some s → run step start (before ++ between) = some t → R s t) ↔
    Throughout step (fun s event => ∀ t, step s event = some t → R s t) start events := by
  constructor
  · rintro ordered before event after s rfl reached t stepped
    refine ordered before [event] after s t (by simp) reached ?_
    rw [run_concat, reached, Option.bind_some, stepped]
  · intro all before between after s t split reached again
    induction between using List.reverseRecOn generalizing after t with
    | nil =>
      rw [List.append_nil, reached] at again
      exact Option.some.inj again ▸ refl s
    | append_singleton between event ih =>
      rw [← List.append_assoc, run_concat, Option.bind_eq_some_iff] at again
      obtain ⟨u, ran, stepped⟩ := again
      have first := ih (event :: after) u (by simp [split]) ran
      exact trans first (all (before ++ between) event after u (by simp [split]) ran t stepped)

/-! ### What runs put out -/

variable {β : Type*}

def outputs (step : σ → ε → Option σ) (out : σ → ε → List β) : σ → List ε → List β
  | _, [] => []
  | s, event :: events =>
    out s event ++
      match step s event with
      | some t => outputs step out t events
      | none => []

theorem outputs_concat (out : σ → ε → List β) {events : List ε} {s : σ}
    (ran : run step start events = some s) (event : ε) :
    outputs step out start (events ++ [event]) = outputs step out start events ++ out s event := by
  induction events generalizing start with
  | nil =>
    obtain rfl := Option.some.inj ran
    rw [List.nil_append, outputs]
    cases stepped : step start event <;> simp [outputs, stepped]
  | cons first events ih =>
    rw [run, List.foldlM_cons, Option.bind_eq_bind, Option.bind_eq_some_iff] at ran
    obtain ⟨t, stepped, later⟩ := ran
    rw [List.cons_append, outputs, outputs, stepped, List.append_assoc]
    exact congrArg _ (ih later)

theorem outputs_agree_iff (first second : σ → ε → List β) {events : List ε} {last : σ}
    (ran : run step start events = some last) :
    (∀ before after, events = before ++ after →
      outputs step first start before = outputs step second start before) ↔
    Throughout step (fun s event => first s event = second s event) start events := by
  constructor
  · rintro agree before event after s rfl reached
    have now := agree (before ++ [event]) after (by simp)
    rw [outputs_concat first reached, outputs_concat second reached,
      agree before (event :: after) rfl] at now
    exact List.append_cancel_left now
  · intro all before after split
    induction before using List.reverseRecOn generalizing after with
    | nil => rfl
    | append_singleton before event ih =>
      have split' : events = before ++ event :: after := by simp [split]
      rw [split'] at ran
      obtain ⟨s, reached, -⟩ := exists_run_left ran
      rw [outputs_concat first reached, outputs_concat second reached, ih _ split',
        all before event after s split' reached]

end RemoteAccess.Transitions
