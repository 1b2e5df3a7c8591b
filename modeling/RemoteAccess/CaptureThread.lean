import RemoteAccess.Basics.Simulation
import RemoteAccess.ScreenCapture

/-! The capture loop of the two Linux backends, on a thread of its own. The calls of the
backend's owner and the thread take turns in any order, one access to a shared variable at a
time. -/

namespace RemoteAccess.CaptureThread

open AgentServer (FrameData)
open ScreenCapture (Capture XImage captureSingleFrame)
open Simulation Transitions

variable {κ ρ σ : Type*}

/-! ### What the owner is promised -/

/-- What a frame that was captured comes to: an empty callback is not called. -/
def deliveries : Option κ → Option FrameData → List (κ × FrameData)
  | some callback, some frame => [(callback, frame)]
  | _, _ => []

/-- The recording that is going on, if any, with its callback; what `captureSingleFrame`
keeps; and the calls made so far. -/
structure Recording (κ σ : Type*) where
  current : Option (Option κ)
  source : σ
  delivered : List (κ × FrameData)

inductive Action (κ ρ : Type*)
  | began (callback : Option κ)
  | captured (reading : ρ)
  | finished

variable (capture : σ → ρ → Option FrameData × σ)

/-- Recordings do not overlap, and each frame goes to the callback of its own. -/
def Recording.step (r : Recording κ σ) : Action κ ρ → Option (Recording κ σ)
  | .began callback =>
    match r.current with
    | none => some { r with current := some callback }
    | some _ => none
  | .captured reading =>
    match r.current with
    | none => none
    | some callback =>
      let (frame, source) := capture r.source reading
      some { r with source := source, delivered := r.delivered ++ deliveries callback frame }
  | .finished =>
    match r.current with
    | none => none
    | some _ => some { r with current := none }

/-! ### The loop -/

inductive Position
  | checks
  | captures
  | calls (frame : Option FrameData)
  | sleeps
  | leaves
  | ended

/-- One step of the thread. `goesOn` is what the loop's condition reads, `reading` what a
capture sees of the screen and the clock. -/
def loopStep (goesOn : Bool) (callback : Option κ) (reading : ρ) (source : σ) :
    Position → Position × σ × List (κ × FrameData)
  | .checks => (if goesOn then .captures else .leaves, source, [])
  | .captures =>
    let (frame, source) := capture source reading
    (.calls frame, source, [])
  | .calls frame => (.sleeps, source, deliveries callback frame)
  | .sleeps => (.checks, source, [])
  | .leaves | .ended => (.ended, source, [])

inductive Event (κ ρ : Type*)
  | startCapture (callback : Option κ)
  | stopCapture
  /-- The call that the owner is in goes on. -/
  | owner
  | thread (reading : ρ)

def Position.pending (callback : Option κ) : Position → List (κ × FrameData)
  | calls frame => deliveries callback frame
  | _ => []

def Position.actions (reading : ρ) : Position → List (Action κ ρ)
  | captures => [.captured reading]
  | _ => []

/-- The steps that a thread still takes once its loop's condition is false. -/
def Position.remaining : Position → Nat
  | ended => 0
  | leaves => 1
  | checks => 2
  | sleeps => 3
  | calls _ => 4
  | captures => 5

/-- The calls that it may still make then. -/
def Position.owed : Position → Nat
  | captures | calls _ => 1
  | _ => 0

/-- The thread captures as the recording does, and calls back one step later. -/
theorem loopStep_follows (goesOn : Bool) (callback : Option κ) (reading : ρ) (source : σ)
    (delivered : List (κ × FrameData)) (position : Position) :
    run (Recording.step capture)
        ⟨some callback, source, delivered ++ position.pending callback⟩
        (position.actions reading) =
      some
        { current := some callback
          source := (loopStep capture goesOn callback reading source position).2.1
          delivered := delivered ++
            (loopStep capture goesOn callback reading source position).2.2 ++
            (loopStep capture goesOn callback reading source position).1.pending callback } := by
  cases position with
  | captures => simp [run, Recording.step, loopStep, Position.actions, Position.pending]
  | calls frame => simp [run, loopStep, Position.actions, Position.pending]
  | checks => cases goesOn <;> simp [run, loopStep, Position.actions, Position.pending]
  | sleeps => simp [run, loopStep, Position.actions, Position.pending]
  | leaves => simp [run, loopStep, Position.actions, Position.pending]
  | ended => simp [run, loopStep, Position.actions, Position.pending]

theorem loopStep_stops (callback : Option κ) (reading : ρ) (source : σ) {position : Position}
    (runs : position ≠ .ended) :
    (loopStep capture false callback reading source position).1.remaining + 1 =
        position.remaining ∧
      (loopStep capture false callback reading source position).2.2.length +
        (loopStep capture false callback reading source position).1.owed ≤ position.owed := by
  cases position with
  | captures => simp [loopStep, Position.remaining, Position.owed]
  | calls frame =>
    cases callback <;> cases frame <;>
      simp [loopStep, Position.remaining, Position.owed, deliveries]
  | checks => simp [loopStep, Position.remaining, Position.owed]
  | sleeps => simp [loopStep, Position.remaining, Position.owed]
  | leaves => simp [loopStep, Position.remaining, Position.owed]
  | ended => exact absurd rfl runs

theorem Position.owed_le (position : Position) : position.owed ≤ 1 := by
  cases position <;> simp [Position.owed]

theorem Position.remaining_le (position : Position) : position.remaining ≤ 5 := by
  cases position <;> simp [Position.remaining]

def Position.Loops (position : Position) : Prop := position ≠ .leaves ∧ position ≠ .ended

theorem loops_loopStep (callback : Option κ) (reading : ρ) (source : σ) {position : Position}
    (loops : position.Loops) :
    (loopStep capture true callback reading source position).1.Loops := by
  obtain ⟨inside, before⟩ := loops
  cases position with
  | leaves => exact absurd rfl inside
  | ended => exact absurd rfl before
  | captures => simp [loopStep, Position.Loops]
  | calls frame => simp [loopStep, Position.Loops]
  | checks => simp [loopStep, Position.Loops]
  | sleeps => simp [loopStep, Position.Loops]

/-! ### A stopped loop -/

structure Thread (κ σ : Type*) where
  position : Position
  callback : Option κ
  source : σ
  delivered : List (κ × FrameData)

def Thread.next (reading : ρ) (t : Thread κ σ) : Thread κ σ :=
  let (position, source, calls) := loopStep capture false t.callback reading t.source t.position
  { t with position := position, source := source, delivered := t.delivered ++ calls }

section Backend

variable {S : Type*} {step : S → Event κ ρ → Option S} {has : S → Thread κ σ → Prop}

/-- A backend that moves its stopped thread as the loop does has it end, and gets no more
calls from it than it owes. -/
theorem run_thread_ends
    (moves : ∀ s t reading, has s t → t.position ≠ .ended →
      ∃ s', step s (.thread reading) = some s' ∧ has s' (t.next capture reading))
    (readings : List ρ) {s : S} {t : Thread κ σ} (here : has s t)
    (enough : readings.length = t.position.remaining) :
    ∃ s' t', run step s (readings.map .thread) = some s' ∧ has s' t' ∧ t'.position = .ended ∧
      t'.delivered.length ≤ t.delivered.length + t.position.owed := by
  induction readings generalizing s t with
  | nil =>
    have ended : t.position = .ended := by
      cases position : t.position with
      | ended => rfl
      | _ =>
        rw [position] at enough
        cases enough
    exact ⟨s, t, rfl, here, ended, Nat.le_add_right _ _⟩
  | cons reading readings ih =>
    have runs : t.position ≠ .ended := by
      intro ended
      rw [ended] at enough
      cases enough
    obtain ⟨s₁, stepped, here₁⟩ := moves s t reading here runs
    obtain ⟨nearer, used⟩ := loopStep_stops capture t.callback reading t.source runs
    have left : readings.length = (t.next capture reading).position.remaining := by
      have length : (reading :: readings).length = readings.length + 1 := rfl
      change readings.length =
        (loopStep capture false t.callback reading t.source t.position).1.remaining
      omega
    obtain ⟨s', t', ran, here', ended, few⟩ := ih here₁ left
    refine ⟨s', t', ?_, here', ended, ?_⟩
    · rw [List.map_cons, run, List.foldlM_cons, stepped, Option.bind_eq_bind, Option.bind_some]
      exact ran
    · have added : (t.next capture reading).delivered.length = t.delivered.length +
          (loopStep capture false t.callback reading t.source t.position).2.2.length :=
        List.length_append
      have owed : (t.next capture reading).position.owed =
          (loopStep capture false t.callback reading t.source t.position).1.owed := rfl
      omega

/-! ### A backend and its recording -/

/-- What a backend shows: the calls made and the one that is due, and the recordings that
its flags and its thread can stand for. -/
structure View (κ σ : Type*) where
  terminated : Bool
  source : σ
  delivered : List (κ × FrameData)
  pending : List (κ × FrameData)
  phase : Option (Option κ) → Prop

structure View.Follows (v : View κ σ) (r : Recording κ σ) : Prop where
  alive : v.terminated = false
  source : r.source = v.source
  delivered : r.delivered = v.delivered ++ v.pending
  phase : v.phase r.current

def View.recording (v : View κ σ) (current : Option (Option κ)) : Recording κ σ where
  current := current
  source := v.source
  delivered := v.delivered ++ v.pending

theorem View.Follows.eq_recording {v : View κ σ} {r : Recording κ σ} (follows : v.Follows r) :
    r = v.recording r.current := by
  rw [View.recording, ← follows.source, ← follows.delivered]

theorem simulates_of_phases {view : S → View κ σ} {actions : S → Event κ ρ → List (Action κ ρ)}
    (steps : ∀ {s s' event current}, (view s).terminated = false → (view s).phase current →
      step s event = some s' →
      ∃ r, run (Recording.step capture) ((view s).recording current) (actions s event) = some r ∧
        (view s').Follows r) :
    Simulates step (Recording.step capture) actions fun s => (view s).Follows := by
  intro s r event s' follows stepped
  rw [follows.eq_recording]
  exact steps follows.alive follows.phase stepped

end Backend

/-! ### The numbers of the frames -/

/-- Each capture counts one further, and its frame carries the count. -/
def Numbers (counter : σ → UInt64) : Prop :=
  ∀ source reading, counter (capture source reading).2 = counter source + 1 ∧
    ∀ frame, (capture source reading).1 = some frame →
      frame.frameNumber = counter (capture source reading).2

/-- The numbers `1` to `n`, as the counter shows them. -/
def countedTo (n : Nat) : List UInt64 := (List.range n).map fun i => UInt64.ofNat (i + 1)

theorem countedTo_succ (n : Nat) : countedTo (n + 1) = countedTo n ++ [UInt64.ofNat (n + 1)] := by
  rw [countedTo, List.range_succ, List.map_append, List.map_singleton, countedTo]

def numbers (delivered : List (κ × FrameData)) : List UInt64 :=
  delivered.map fun call => call.2.frameNumber

def captures (actions : List (Action κ ρ)) : Nat :=
  actions.countP fun
    | .captured _ => true
    | _ => false

/-- The frames handed out are numbered in the order of the captures. -/
def Recording.Ordered (counter : σ → UInt64) (actions : List (Action κ ρ)) (r : Recording κ σ) :
    Prop :=
  counter r.source = UInt64.ofNat (captures actions) ∧
    (numbers r.delivered).Sublist (countedTo (captures actions))

theorem pairwise_countedTo {n : Nat} (below : n < 2 ^ 64) : (countedTo n).Pairwise (· < ·) := by
  rw [countedTo, List.pairwise_map]
  refine List.pairwise_lt_range.imp_of_mem fun {i j} _ inside ordered => ?_
  rw [List.mem_range] at inside
  rw [UInt64.lt_iff_toNat_lt, UInt64.toNat_ofNat_of_lt' (by simp [UInt64.size]; omega),
    UInt64.toNat_ofNat_of_lt' (by simp [UInt64.size]; omega)]
  exact Nat.add_lt_add_right ordered 1

theorem numbers_deliveries (callback : Option κ) {frame : Option FrameData} {number : UInt64}
    (numbered : ∀ f, frame = some f → f.frameNumber = number) :
    (numbers (deliveries callback frame)).Sublist [number] := by
  cases callback with
  | none => exact List.nil_sublist _
  | some callback =>
    cases frame with
    | none => exact List.nil_sublist _
    | some frame => rw [← numbered frame rfl]; exact List.Sublist.refl _

variable {capture}

theorem step_ordered {counter : σ → UInt64} (counts : Numbers capture counter)
    {r t : Recording κ σ} {actions : List (Action κ ρ)} {action : Action κ ρ}
    (stepped : r.step capture action = some t) (ordered : r.Ordered counter actions) :
    t.Ordered counter (actions ++ [action]) := by
  obtain ⟨current, source, delivered⟩ := r
  cases current with
  | none =>
    cases action with
    | began callback =>
      obtain rfl := Option.some.inj stepped
      simpa [Recording.Ordered, captures] using ordered
    | captured reading => cases stepped
    | finished => cases stepped
  | some callback =>
    cases action with
    | began callback => cases stepped
    | captured reading =>
      obtain rfl := Option.some.inj stepped
      obtain ⟨counted, sub⟩ := ordered
      obtain ⟨next, numbered⟩ := counts source reading
      have more : captures (actions ++ [.captured reading]) = captures actions + 1 := by
        simp [captures]
      have number : counter (capture source reading).2 = UInt64.ofNat (captures actions + 1) := by
        rw [next, counted, UInt64.ofNat_add]
        rfl
      rw [Recording.Ordered, more]
      refine ⟨number, ?_⟩
      rw [countedTo_succ, numbers, List.map_append]
      exact sub.append (numbers_deliveries callback fun f found =>
        (numbered f found).trans number)
    | finished =>
      obtain rfl := Option.some.inj stepped
      simpa [Recording.Ordered, captures] using ordered

theorem numbers_of_run {counter : σ → UInt64} (counts : Numbers capture counter) {source : σ}
    (fresh : counter source = 0) {actions : List (Action κ ρ)} {r : Recording κ σ}
    (ran : run (Recording.step capture) ⟨none, source, []⟩ actions = some r)
    {delivered left : List (κ × FrameData)} (handed : r.delivered = delivered ++ left)
    (below : captures actions < 2 ^ 64) : (numbers delivered).Pairwise (· < ·) := by
  have initially : Recording.Ordered counter ([] : List (Action κ ρ))
      (⟨none, source, []⟩ : Recording κ σ) := ⟨fresh, List.nil_sublist _⟩
  have always : Throughout (Recording.step capture) (fun _ _ => True) ⟨none, source, []⟩ actions :=
    fun _ _ _ _ _ _ => trivial
  obtain ⟨-, sub⟩ := always.history_invariant (Recording.Ordered counter) ran initially
    fun _ stepped ordered => step_ordered counts stepped ordered
  rw [handed, numbers, List.map_append] at sub
  exact (pairwise_countedTo below).sublist ((List.sublist_append_left _ _).trans sub)

variable (capture)

/-! ### `LinuxX11Capture` -/

namespace LinuxX11Capture

/-- What the call that the owner is in does next. -/
inductive Call (κ : Type*)
  | idle
  | lowersStop (callback : Option κ)
  | raisesFlag (callback : Option κ)
  | spawns (callback : Option κ)
  | raisesStop
  | joins
  | lowersFlag

/-- `captureThread` is `none` where it is not joinable; the lambda has its own copy of the
callback. -/
structure State (κ σ : Type*) where
  isCapturing : Bool
  stopRequested : Bool
  captureThread : Option (Position × Option κ)
  owner : Call κ
  source : σ
  delivered : List (κ × FrameData)
  terminated : Bool

def start (source : σ) : State κ σ where
  isCapturing := false
  stopRequested := false
  captureThread := none
  owner := .idle
  source := source
  delivered := []
  terminated := false

/-- The statements of `startCapture` and `stopCaptureInternal`. A thread that is joinable
may not be assigned to; `join` waits for the end of the thread. -/
def ownerStep (s : State κ σ) : Option (State κ σ) :=
  match s.owner with
  | .idle => none
  | .lowersStop callback => some { s with stopRequested := false, owner := .raisesFlag callback }
  | .raisesFlag callback => some { s with isCapturing := true, owner := .spawns callback }
  | .spawns callback =>
    match s.captureThread with
    | none => some { s with captureThread := some (.checks, callback), owner := .idle }
    | some _ => some { s with terminated := true }
  | .raisesStop => some { s with stopRequested := true, owner := .joins }
  | .joins =>
    match s.captureThread with
    | none => some { s with owner := .lowersFlag }
    | some (.ended, _) => some { s with captureThread := none, owner := .lowersFlag }
    | some _ => none
  | .lowersFlag => some { s with isCapturing := false, owner := .idle }

/-- A thread past its loop lowers the flag. -/
def threadStep (s : State κ σ) (reading : ρ) : Option (State κ σ) :=
  match s.captureThread with
  | none | some (.ended, _) => none
  | some (position, callback) =>
    let (next, source, calls) :=
      loopStep capture (!s.stopRequested) callback reading s.source position
    some
      { s with
        isCapturing := match position with | .leaves => false | _ => s.isCapturing
        captureThread := some (next, callback)
        source := source
        delivered := s.delivered ++ calls }

def step (s : State κ σ) : Event κ ρ → Option (State κ σ)
  | .startCapture callback =>
    match s.owner with
    | .idle => some { s with owner := if s.isCapturing then .idle else .lowersStop callback }
    | _ => none
  | .stopCapture =>
    match s.owner with
    | .idle => some { s with owner := if s.isCapturing then .raisesStop else .idle }
    | _ => none
  | .owner => if s.terminated then none else ownerStep s
  | .thread reading => if s.terminated then none else threadStep capture s reading

/-- A recording begins with its thread and is over when `stopCapture` returns. -/
def actions (s : State κ σ) : Event κ ρ → List (Action κ ρ)
  | .owner =>
    match s.owner with
    | .spawns callback => [.began callback]
    | .lowersFlag => [.finished]
    | _ => []
  | .thread reading =>
    match s.captureThread with
    | some (position, _) => position.actions reading
    | none => []
  | _ => []

def pending : Option (Position × Option κ) → List (κ × FrameData)
  | some (position, callback) => position.pending callback
  | none => []

/-- The flags, the thread and the owner's call, with the recording they stand for. -/
inductive Phase : Bool → Bool → Option (Position × Option κ) → Call κ → Option (Option κ) → Prop
  | stopped (stopRequested : Bool) : Phase false stopRequested none .idle none
  | lowersStop (stopRequested : Bool) (callback : Option κ) :
    Phase false stopRequested none (.lowersStop callback) none
  | raisesFlag (callback : Option κ) : Phase false false none (.raisesFlag callback) none
  | spawns (callback : Option κ) : Phase true false none (.spawns callback) none
  | running {position : Position} (callback : Option κ) (loops : position.Loops) :
    Phase true false (some (position, callback)) .idle (some callback)
  | raisesStop {position : Position} (callback : Option κ) (loops : position.Loops) :
    Phase true false (some (position, callback)) .raisesStop (some callback)
  | joins (isCapturing : Bool) (position : Position) (callback : Option κ) :
    Phase isCapturing true (some (position, callback)) .joins (some callback)
  | lowersFlag (isCapturing : Bool) (callback : Option κ) :
    Phase isCapturing true none .lowersFlag (some callback)

theorem Phase.of_idle {isCapturing stopRequested : Bool}
    {captureThread : Option (Position × Option κ)} {current : Option (Option κ)}
    (phase : Phase isCapturing stopRequested captureThread .idle current) :
    current = none ↔ captureThread = none := by
  cases phase with
  | stopped stopRequested => simp
  | running callback loops => simp

theorem Phase.of_joins {isCapturing stopRequested : Bool}
    {captureThread : Option (Position × Option κ)} {current : Option (Option κ)}
    (phase : Phase isCapturing stopRequested captureThread .joins current) :
    stopRequested = true ∧ ∃ position callback, captureThread = some (position, callback) := by
  cases phase with
  | joins isCapturing position callback => exact ⟨rfl, position, callback, rfl⟩

def view (s : State κ σ) : View κ σ where
  terminated := s.terminated
  source := s.source
  delivered := s.delivered
  pending := pending s.captureThread
  phase := Phase s.isCapturing s.stopRequested s.captureThread s.owner

theorem follows_start (source : σ) :
    (view (start source : State κ σ)).Follows
      { current := none, source := source, delivered := [] } where
  alive := rfl
  source := rfl
  delivered := rfl
  phase := .stopped false

variable {capture} {s s' : State κ σ} {current : Option (Option κ)}

theorem ownerStep_follows (alive : s.terminated = false)
    (phase : Phase s.isCapturing s.stopRequested s.captureThread s.owner current)
    (stepped : ownerStep s = some s') :
    ∃ r, run (Recording.step capture) ((view s).recording current)
        (actions s (.owner : Event κ ρ)) = some r ∧ (view s').Follows r := by
  obtain ⟨isCapturing, stopRequested, captureThread, owner, source, delivered, terminated⟩ := s
  cases phase with
  | stopped => cases stepped
  | lowersStop stopRequested callback =>
    obtain rfl := Option.some.inj stepped
    exact ⟨_, rfl, alive, rfl, rfl, .raisesFlag callback⟩
  | raisesFlag callback =>
    obtain rfl := Option.some.inj stepped
    exact ⟨_, rfl, alive, rfl, rfl, .spawns callback⟩
  | spawns callback =>
    obtain rfl := Option.some.inj stepped
    exact ⟨_, rfl, alive, rfl, rfl, .running callback ⟨nofun, nofun⟩⟩
  | running callback loops => cases stepped
  | raisesStop callback loops =>
    obtain rfl := Option.some.inj stepped
    exact ⟨_, rfl, alive, rfl, rfl, .joins true _ callback⟩
  | joins isCapturing position callback =>
    cases position with
    | ended =>
      obtain rfl := Option.some.inj stepped
      exact ⟨_, rfl, alive, rfl, rfl, .lowersFlag isCapturing callback⟩
    | _ => cases stepped
  | lowersFlag isCapturing callback =>
    obtain rfl := Option.some.inj stepped
    exact ⟨_, rfl, alive, rfl, rfl, .stopped true⟩

theorem threadStep_eq {reading : ρ} (stepped : threadStep capture s reading = some s') :
    ∃ position callback, s.captureThread = some (position, callback) ∧ position ≠ .ended ∧
      s' = { s with
        isCapturing := s'.isCapturing
        captureThread := some
          ((loopStep capture (!s.stopRequested) callback reading s.source position).1, callback)
        source := (loopStep capture (!s.stopRequested) callback reading s.source position).2.1
        delivered := s.delivered ++
          (loopStep capture (!s.stopRequested) callback reading s.source position).2.2 } ∧
      (position ≠ .leaves → s'.isCapturing = s.isCapturing) := by
  unfold threadStep at stepped
  split at stepped
  · cases stepped
  · cases stepped
  · next position callback other thread =>
    obtain rfl := Option.some.inj stepped
    refine ⟨position, callback, thread, fun ended => other ended, rfl, ?_⟩
    intro inside
    cases position with
    | leaves => exact absurd rfl inside
    | _ => rfl

theorem threadStep_follows {reading : ρ} (alive : s.terminated = false)
    (phase : Phase s.isCapturing s.stopRequested s.captureThread s.owner current)
    (stepped : threadStep capture s reading = some s') :
    ∃ r, run (Recording.step capture) ((view s).recording current)
        (actions s (.thread reading)) = some r ∧ (view s').Follows r := by
  obtain ⟨position, callback, thread, runs, moved, flag⟩ := threadStep_eq stepped
  obtain ⟨isCapturing, stopRequested, captureThread, owner, source, delivered, terminated⟩ := s
  obtain rfl : captureThread = some (position, callback) := thread
  have same : current = some callback := by cases phase <;> rfl
  refine ⟨_, same ▸ loopStep_follows capture (!stopRequested) callback reading source delivered
    position, ?_⟩
  rw [moved]
  refine ⟨alive, rfl, rfl, ?_⟩
  cases phase with
  | running callback loops =>
    have kept := loops_loopStep capture callback reading source loops
    exact (flag loops.1).symm ▸ .running callback kept
  | raisesStop callback loops =>
    have kept := loops_loopStep capture callback reading source loops
    exact (flag loops.1).symm ▸ .raisesStop callback kept
  | joins isCapturing position callback => exact .joins s'.isCapturing _ callback

theorem step_follows :
    Simulates (step capture) (Recording.step capture) (actions (κ := κ))
      fun s => (view s).Follows := by
  refine simulates_of_phases capture fun {s s' event current} alive phase stepped => ?_
  cases event with
  | startCapture callback =>
    obtain ⟨isCapturing, stopRequested, captureThread, owner, source, delivered, terminated⟩ := s
    cases phase with
    | stopped stopRequested =>
      obtain rfl := Option.some.inj stepped
      exact ⟨_, rfl, alive, rfl, rfl, .lowersStop stopRequested callback⟩
    | running callback' loops =>
      obtain rfl := Option.some.inj stepped
      exact ⟨_, rfl, alive, rfl, rfl, .running callback' loops⟩
    | _ => cases stepped
  | stopCapture =>
    obtain ⟨isCapturing, stopRequested, captureThread, owner, source, delivered, terminated⟩ := s
    cases phase with
    | stopped stopRequested =>
      obtain rfl := Option.some.inj stepped
      exact ⟨_, rfl, alive, rfl, rfl, .stopped stopRequested⟩
    | running callback loops =>
      obtain rfl := Option.some.inj stepped
      exact ⟨_, rfl, alive, rfl, rfl, .raisesStop callback loops⟩
    | _ => cases stepped
  | owner =>
    rw [step, if_neg (Bool.not_eq_true _ ▸ alive)] at stepped
    exact ownerStep_follows alive phase stepped
  | thread reading =>
    rw [step, if_neg (Bool.not_eq_true _ ▸ alive)] at stepped
    exact threadStep_follows alive phase stepped

/-- `stopCapture` waits for this thread. -/
structure Joins (s : State κ σ) (t : Thread κ σ) : Prop where
  alive : s.terminated = false
  stopped : s.stopRequested = true
  owner : s.owner = .joins
  thread : s.captureThread = some (t.position, t.callback)
  source : s.source = t.source
  delivered : s.delivered = t.delivered

theorem Joins.moves (s : State κ σ) (t : Thread κ σ) (reading : ρ) (joins : Joins s t)
    (runs : t.position ≠ .ended) :
    ∃ s', step capture s (.thread reading) = some s' ∧ Joins s' (t.next capture reading) := by
  obtain ⟨s', stepped⟩ : ∃ s', threadStep capture s reading = some s' := by
    unfold threadStep
    rw [joins.thread]
    cases position : t.position with
    | ended => exact absurd position runs
    | _ => exact ⟨_, rfl⟩
  obtain ⟨position, callback, thread, -, moved, -⟩ := threadStep_eq stepped
  obtain ⟨rfl, rfl⟩ := Prod.mk.inj (Option.some.inj (joins.thread.symm.trans thread))
  rw [joins.stopped, joins.source, joins.delivered] at moved
  refine ⟨s', by rw [step, if_neg (by simp [joins.alive]), stepped], ?_⟩
  rw [moved]
  exact ⟨joins.alive, rfl, joins.owner, rfl, rfl, rfl⟩

theorem joined (readings : List ρ) {t : Thread κ σ} (joins : Joins s t)
    (enough : readings.length = t.position.remaining) :
    ∃ s', run (step capture) s (readings.map .thread ++ [.owner, .owner]) = some s' ∧
      s'.owner = .idle ∧ s'.captureThread = none ∧
      s'.delivered.length ≤ s.delivered.length + t.position.owed := by
  obtain ⟨s₁, t₁, ran, joins₁, ended, few⟩ :=
    run_thread_ends capture Joins.moves readings joins enough
  have first : step capture s₁ .owner =
      some { s₁ with captureThread := none, owner := .lowersFlag } := by
    rw [step, if_neg (by simp [joins₁.alive]), ownerStep, joins₁.owner, joins₁.thread, ended]
  have second : step capture { s₁ with captureThread := none, owner := .lowersFlag } .owner =
      some { s₁ with captureThread := none, owner := .idle, isCapturing := false } := by
    rw [step, if_neg (by simp [joins₁.alive]), ownerStep]
  refine ⟨{ s₁ with captureThread := none, owner := .idle, isCapturing := false }, ?_, rfl, rfl, ?_⟩
  · rw [run_append, ran, Option.bind_some, run, List.foldlM_cons, first, Option.bind_eq_bind,
      Option.bind_some, List.foldlM_cons, second]
    rfl
  · rw [← joins.delivered, ← joins₁.delivered] at few
    exact few

/-- `captureSingleFrame` with the clock and what `XGetImage` gives. -/
def grab (capture : Capture) (reading : UInt64 × Option XImage) : Option FrameData × Capture :=
  captureSingleFrame capture reading.1 reading.2

theorem grab_numbers : Numbers grab Capture.frameCounter := by
  intro source reading
  obtain ⟨timestampUs, ximage⟩ := reading
  unfold grab captureSingleFrame
  cases ximage with
  | none =>
    refine ⟨rfl, fun frame captured => ?_⟩
    obtain rfl := Option.some.inj captured
    rfl
  | some ximage =>
    dsimp only
    split_ifs
    · exact ⟨rfl, nofun⟩
    · refine ⟨rfl, fun frame captured => ?_⟩
      obtain rfl := Option.some.inj captured
      rfl

/-- In every interleaving no joinable thread is assigned to; what the callbacks get is what
recordings hand out that do not overlap, the last frame perhaps still to come, and numbered
upwards until the counter wraps; and a call of `stopCapture` returns once the thread has taken at
most five more steps, with at most one more callback. Between two calls, without a recording
there is no thread. -/
theorem x11_recordings (width height : UInt32) (events : List (Event κ (UInt64 × Option XImage)))
    (s : State κ Capture)
    (ran : run (step grab) (start (Capture.initialized width height)) events = some s) :
    s.terminated = false ∧
    (∃ r, run (Recording.step grab) ⟨none, Capture.initialized width height, []⟩
        (outputs (step grab) actions (start (Capture.initialized width height)) events) = some r ∧
      r.delivered = s.delivered ++ pending s.captureThread ∧
      (s.owner = .idle → (r.current = none ↔ s.captureThread = none))) ∧
    (captures (outputs (step grab) actions (start (Capture.initialized width height)) events) <
        2 ^ 64 → (numbers s.delivered).Pairwise (· < ·)) ∧
    (s.owner = .joins → ∃ n ≤ 5, ∀ readings : List (UInt64 × Option XImage),
      readings.length = n → ∃ t,
        run (step grab) s (readings.map .thread ++ [.owner, .owner]) = some t ∧
        t.owner = .idle ∧ t.captureThread = none ∧
        t.delivered.length ≤ s.delivered.length + 1) := by
  obtain ⟨r, recorded, follows⟩ := step_follows.run (follows_start _) ran
  have phase := follows.phase
  refine ⟨follows.alive, ⟨r, recorded, follows.delivered, fun idle => ?_⟩,
    numbers_of_run grab_numbers rfl recorded follows.delivered, fun joins => ?_⟩
  · change Phase _ _ _ s.owner _ at phase
    rw [idle] at phase
    exact phase.of_idle
  · change Phase _ _ _ s.owner _ at phase
    rw [joins] at phase
    obtain ⟨stopped, position, callback, thread⟩ := phase.of_joins
    refine ⟨position.remaining, position.remaining_le, fun readings enough => ?_⟩
    have waits : Joins s ⟨position, callback, s.source, s.delivered⟩ :=
      ⟨follows.alive, stopped, joins, thread, rfl, rfl⟩
    obtain ⟨t, ran, idle, none_, few⟩ := joined readings waits enough
    exact ⟨t, ran, idle, none_, few.trans (Nat.add_le_add_left position.owed_le _)⟩

def stoppedRun : List (Event Nat (UInt64 × Option XImage)) :=
  [.startCapture (some 7), .owner, .owner, .owner, .thread (0, none), .thread (40, none),
    .thread (40, none), .thread (40, none), .thread (73, none), .thread (73, none),
    .stopCapture, .owner]

theorem x11_recordings_stopped :
    ∃ s : State Nat Capture,
      run (step grab) (start (Capture.initialized 2 1)) stoppedRun = some s ∧
      s.delivered.map Prod.fst = [7] ∧ (numbers s.delivered).Pairwise (· < ·) ∧
      (∃ r, run (Recording.step grab) ⟨none, Capture.initialized 2 1, []⟩
          (outputs (step grab) actions (start (Capture.initialized 2 1)) stoppedRun) = some r ∧
        r.delivered = s.delivered ++ pending s.captureThread) ∧
      ∃ n ≤ 5, ∀ readings : List (UInt64 × Option XImage), readings.length = n → ∃ t,
        run (step grab) s (readings.map .thread ++ [.owner, .owner]) = some t ∧
        t.owner = .idle ∧ t.captureThread = none ∧
        t.delivered.length ≤ s.delivered.length + 1 := by
  obtain ⟨s, ran, callbacks, joins⟩ : ∃ s : State Nat Capture,
      run (step grab) (start (Capture.initialized 2 1)) stoppedRun = some s ∧
        s.delivered.map Prod.fst = [7] ∧ s.owner = .joins := ⟨_, rfl, rfl, rfl⟩
  obtain ⟨-, ⟨r, recorded, handed, -⟩, ordered, stops⟩ := x11_recordings 2 1 stoppedRun s ran
  exact ⟨s, ran, callbacks, ordered (by decide), ⟨r, recorded, handed⟩, stops joins⟩

end LinuxX11Capture

/-! ### `LinuxDrmCapture` -/

namespace LinuxDrmCapture

/-- What `captureSingleFrame` uses. `initialize` never fails. -/
structure Device where
  width : UInt32
  height : UInt32
  frameCounter : UInt64

def device : Device := { width := 1920, height := 1080, frameCounter := 0 }

def color (frameCounter : UInt64) : UInt32 := 0xFF101010 + (frameCounter % 255).toUInt32

def grab (device : Device) (timestampUs : UInt64) : Option FrameData × Device :=
  let device := { device with frameCounter := device.frameCounter + 1 }
  let pixel := LittleEndian.toBytes 4 (color device.frameCounter).toNat
  (some
    { width := device.width
      height := device.height
      pixelData := (List.replicate (device.width.toNat * device.height.toNat) pixel).flatten
      frameNumber := device.frameCounter
      timestampUs := timestampUs }, device)

theorem grab_numbers : Numbers grab Device.frameCounter := by
  intro source reading
  refine ⟨rfl, fun frame captured => ?_⟩
  obtain rfl := Option.some.inj captured
  rfl

inductive Call (κ : Type*)
  | idle
  | setsCallback (callback : Option κ)
  | raisesFlag
  | spawns
  | lowersFlag
  | joins

/-- One flag is what the loop reads and what the owner asks; the thread reads the callback
where it is. -/
structure State (κ σ : Type*) where
  isCapturing : Bool
  callback : Option κ
  captureThread : Option Position
  owner : Call κ
  source : σ
  delivered : List (κ × FrameData)
  terminated : Bool

def start (source : σ) : State κ σ where
  isCapturing := false
  callback := none
  captureThread := none
  owner := .idle
  source := source
  delivered := []
  terminated := false

def ownerStep (s : State κ σ) : Option (State κ σ) :=
  match s.owner with
  | .idle => none
  | .setsCallback callback => some { s with callback := callback, owner := .raisesFlag }
  | .raisesFlag => some { s with isCapturing := true, owner := .spawns }
  | .spawns =>
    match s.captureThread with
    | none => some { s with captureThread := some .checks, owner := .idle }
    | some _ => some { s with terminated := true }
  | .lowersFlag => some { s with isCapturing := false, owner := .joins }
  | .joins =>
    match s.captureThread with
    | none => some { s with owner := .idle }
    | some .ended => some { s with captureThread := none, owner := .idle }
    | some _ => none

def threadStep (s : State κ σ) (reading : ρ) : Option (State κ σ) :=
  match s.captureThread with
  | none | some .ended => none
  | some position =>
    let (next, source, calls) := loopStep capture s.isCapturing s.callback reading s.source position
    some
      { s with
        captureThread := some next
        source := source
        delivered := s.delivered ++ calls }

/-- A second `startCapture` changes nothing and says `true`. -/
def step (s : State κ σ) : Event κ ρ → Option (State κ σ)
  | .startCapture callback =>
    match s.owner with
    | .idle => some { s with owner := if s.isCapturing then .idle else .setsCallback callback }
    | _ => none
  | .stopCapture =>
    match s.owner with
    | .idle => some { s with owner := if s.isCapturing then .lowersFlag else .idle }
    | _ => none
  | .owner => if s.terminated then none else ownerStep s
  | .thread reading => if s.terminated then none else threadStep capture s reading

def actions (s : State κ σ) : Event κ ρ → List (Action κ ρ)
  | .owner =>
    match s.owner with
    | .spawns => [.began s.callback]
    | .joins => [.finished]
    | _ => []
  | .thread reading =>
    match s.captureThread with
    | some position => position.actions reading
    | none => []
  | _ => []

def pending (callback : Option κ) : Option Position → List (κ × FrameData)
  | some position => position.pending callback
  | none => []

inductive Phase (callback : Option κ) :
    Bool → Option Position → Call κ → Option (Option κ) → Prop
  | stopped : Phase callback false none .idle none
  | setsCallback (next : Option κ) : Phase callback false none (.setsCallback next) none
  | raisesFlag : Phase callback false none .raisesFlag none
  | spawns : Phase callback true none .spawns none
  | running {position : Position} (loops : position.Loops) :
    Phase callback true (some position) .idle (some callback)
  | lowersFlag {position : Position} (loops : position.Loops) :
    Phase callback true (some position) .lowersFlag (some callback)
  | joins (position : Position) : Phase callback false (some position) .joins (some callback)

theorem Phase.of_idle {isCapturing : Bool} {callback : Option κ}
    {captureThread : Option Position} {current : Option (Option κ)}
    (phase : Phase callback isCapturing captureThread .idle current) :
    current = none ↔ captureThread = none := by
  cases phase with
  | stopped => simp
  | running loops => simp

theorem Phase.of_joins {isCapturing : Bool} {callback : Option κ}
    {captureThread : Option Position} {current : Option (Option κ)}
    (phase : Phase callback isCapturing captureThread .joins current) :
    isCapturing = false ∧ ∃ position, captureThread = some position := by
  cases phase with
  | joins position => exact ⟨rfl, position, rfl⟩

def view (s : State κ σ) : View κ σ where
  terminated := s.terminated
  source := s.source
  delivered := s.delivered
  pending := pending s.callback s.captureThread
  phase := Phase s.callback s.isCapturing s.captureThread s.owner

theorem follows_start (source : σ) :
    (view (start source : State κ σ)).Follows
      { current := none, source := source, delivered := [] } where
  alive := rfl
  source := rfl
  delivered := rfl
  phase := .stopped

variable {capture} {s s' : State κ σ} {current : Option (Option κ)}

theorem ownerStep_follows (alive : s.terminated = false)
    (phase : Phase s.callback s.isCapturing s.captureThread s.owner current)
    (stepped : ownerStep s = some s') :
    ∃ r, run (Recording.step capture) ((view s).recording current)
        (actions s (.owner : Event κ ρ)) = some r ∧ (view s').Follows r := by
  obtain ⟨isCapturing, callback, captureThread, owner, source, delivered, terminated⟩ := s
  cases phase with
  | stopped => cases stepped
  | setsCallback next =>
    obtain rfl := Option.some.inj stepped
    exact ⟨_, rfl, alive, rfl, rfl, .raisesFlag⟩
  | raisesFlag =>
    obtain rfl := Option.some.inj stepped
    exact ⟨_, rfl, alive, rfl, rfl, .spawns⟩
  | spawns =>
    obtain rfl := Option.some.inj stepped
    exact ⟨_, rfl, alive, rfl, rfl, .running ⟨nofun, nofun⟩⟩
  | running loops => cases stepped
  | lowersFlag loops =>
    obtain rfl := Option.some.inj stepped
    exact ⟨_, rfl, alive, rfl, rfl, .joins _⟩
  | joins position =>
    cases position with
    | ended =>
      obtain rfl := Option.some.inj stepped
      exact ⟨_, rfl, alive, rfl, rfl, .stopped⟩
    | _ => cases stepped

theorem threadStep_eq {reading : ρ} (stepped : threadStep capture s reading = some s') :
    ∃ position, s.captureThread = some position ∧ position ≠ .ended ∧
      s' = { s with
        captureThread := some
          (loopStep capture s.isCapturing s.callback reading s.source position).1
        source := (loopStep capture s.isCapturing s.callback reading s.source position).2.1
        delivered := s.delivered ++
          (loopStep capture s.isCapturing s.callback reading s.source position).2.2 } := by
  unfold threadStep at stepped
  split at stepped
  · cases stepped
  · cases stepped
  · next position other thread =>
    obtain rfl := Option.some.inj stepped
    exact ⟨position, thread, fun ended => other ended, rfl⟩

theorem threadStep_follows {reading : ρ} (alive : s.terminated = false)
    (phase : Phase s.callback s.isCapturing s.captureThread s.owner current)
    (stepped : threadStep capture s reading = some s') :
    ∃ r, run (Recording.step capture) ((view s).recording current)
        (actions s (.thread reading)) = some r ∧ (view s').Follows r := by
  obtain ⟨position, thread, runs, rfl⟩ := threadStep_eq stepped
  obtain ⟨isCapturing, callback, captureThread, owner, source, delivered, terminated⟩ := s
  obtain rfl : captureThread = some position := thread
  have same : current = some callback := by cases phase <;> rfl
  refine ⟨_, same ▸ loopStep_follows capture isCapturing callback reading source delivered
    position, alive, rfl, rfl, ?_⟩
  cases phase with
  | running loops => exact .running (loops_loopStep capture callback reading source loops)
  | lowersFlag loops => exact .lowersFlag (loops_loopStep capture callback reading source loops)
  | joins position => exact .joins _

theorem step_follows :
    Simulates (step capture) (Recording.step capture) (actions (κ := κ))
      fun s => (view s).Follows := by
  refine simulates_of_phases capture fun {s s' event current} alive phase stepped => ?_
  cases event with
  | startCapture callback =>
    obtain ⟨isCapturing, callback', captureThread, owner, source, delivered, terminated⟩ := s
    cases phase with
    | stopped =>
      obtain rfl := Option.some.inj stepped
      exact ⟨_, rfl, alive, rfl, rfl, .setsCallback callback⟩
    | running loops =>
      obtain rfl := Option.some.inj stepped
      exact ⟨_, rfl, alive, rfl, rfl, .running loops⟩
    | _ => cases stepped
  | stopCapture =>
    obtain ⟨isCapturing, callback', captureThread, owner, source, delivered, terminated⟩ := s
    cases phase with
    | stopped =>
      obtain rfl := Option.some.inj stepped
      exact ⟨_, rfl, alive, rfl, rfl, .stopped⟩
    | running loops =>
      obtain rfl := Option.some.inj stepped
      exact ⟨_, rfl, alive, rfl, rfl, .lowersFlag loops⟩
    | _ => cases stepped
  | owner =>
    rw [step, if_neg (Bool.not_eq_true _ ▸ alive)] at stepped
    exact ownerStep_follows alive phase stepped
  | thread reading =>
    rw [step, if_neg (Bool.not_eq_true _ ▸ alive)] at stepped
    exact threadStep_follows alive phase stepped

/-- `stopCapture` waits for this thread. -/
structure Joins (s : State κ σ) (t : Thread κ σ) : Prop where
  alive : s.terminated = false
  stopped : s.isCapturing = false
  owner : s.owner = .joins
  thread : s.captureThread = some t.position
  callback : s.callback = t.callback
  source : s.source = t.source
  delivered : s.delivered = t.delivered

theorem Joins.moves (s : State κ σ) (t : Thread κ σ) (reading : ρ) (joins : Joins s t)
    (runs : t.position ≠ .ended) :
    ∃ s', step capture s (.thread reading) = some s' ∧ Joins s' (t.next capture reading) := by
  obtain ⟨s', stepped⟩ : ∃ s', threadStep capture s reading = some s' := by
    unfold threadStep
    rw [joins.thread]
    cases position : t.position with
    | ended => exact absurd position runs
    | _ => exact ⟨_, rfl⟩
  obtain ⟨position, thread, -, moved⟩ := threadStep_eq stepped
  obtain rfl := Option.some.inj (joins.thread.symm.trans thread)
  rw [joins.stopped, joins.callback, joins.source, joins.delivered] at moved
  refine ⟨s', by rw [step, if_neg (by simp [joins.alive]), stepped], ?_⟩
  rw [moved]
  exact ⟨joins.alive, rfl, joins.owner, rfl, rfl, rfl, rfl⟩

theorem joined (readings : List ρ) {t : Thread κ σ} (joins : Joins s t)
    (enough : readings.length = t.position.remaining) :
    ∃ s', run (step capture) s (readings.map .thread ++ [.owner]) = some s' ∧
      s'.owner = .idle ∧ s'.captureThread = none ∧
      s'.delivered.length ≤ s.delivered.length + t.position.owed := by
  obtain ⟨s₁, t₁, ran, joins₁, ended, few⟩ :=
    run_thread_ends capture Joins.moves readings joins enough
  have last : step capture s₁ .owner = some { s₁ with captureThread := none, owner := .idle } := by
    rw [step, if_neg (by simp [joins₁.alive]), ownerStep, joins₁.owner, joins₁.thread, ended]
  refine ⟨{ s₁ with captureThread := none, owner := .idle }, ?_, rfl, rfl, ?_⟩
  · rw [run_append, ran, Option.bind_some, run, List.foldlM_cons, last]
    rfl
  · rw [← joins.delivered, ← joins₁.delivered] at few
    exact few

/-- The backend with one flag and a shared callback keeps the same promise. -/
theorem drm_recordings (events : List (Event κ UInt64)) (s : State κ Device)
    (ran : run (step grab) (start device) events = some s) :
    s.terminated = false ∧
    (∃ r, run (Recording.step grab) ⟨none, device, []⟩
        (outputs (step grab) actions (start device) events) = some r ∧
      r.delivered = s.delivered ++ pending s.callback s.captureThread ∧
      (s.owner = .idle → (r.current = none ↔ s.captureThread = none))) ∧
    (captures (outputs (step grab) actions (start device) events) < 2 ^ 64 →
      (numbers s.delivered).Pairwise (· < ·)) ∧
    (s.owner = .joins → ∃ n ≤ 5, ∀ readings : List UInt64, readings.length = n → ∃ t,
      run (step grab) s (readings.map .thread ++ [.owner]) = some t ∧
      t.owner = .idle ∧ t.captureThread = none ∧
      t.delivered.length ≤ s.delivered.length + 1) := by
  obtain ⟨r, recorded, follows⟩ := step_follows.run (follows_start _) ran
  have phase := follows.phase
  refine ⟨follows.alive, ⟨r, recorded, follows.delivered, fun idle => ?_⟩,
    numbers_of_run grab_numbers rfl recorded follows.delivered, fun joins => ?_⟩
  · change Phase _ _ _ s.owner _ at phase
    rw [idle] at phase
    exact phase.of_idle
  · change Phase _ _ _ s.owner _ at phase
    rw [joins] at phase
    obtain ⟨stopped, position, thread⟩ := phase.of_joins
    refine ⟨position.remaining, position.remaining_le, fun readings enough => ?_⟩
    have waits : Joins s ⟨position, s.callback, s.source, s.delivered⟩ :=
      ⟨follows.alive, stopped, joins, thread, rfl, rfl, rfl⟩
    obtain ⟨t, ran, idle, none_, few⟩ := joined readings waits enough
    exact ⟨t, ran, idle, none_, few.trans (Nat.add_le_add_left position.owed_le _)⟩

def twoRecordings : List (Event Nat UInt64) :=
  [.startCapture (some 1), .owner, .owner, .owner, .thread 0, .stopCapture, .owner,
    .thread 0, .thread 33, .thread 66, .thread 66, .thread 66, .owner,
    .startCapture (some 2), .owner, .owner, .owner, .thread 99, .thread 99, .thread 99, .thread 99,
    .thread 132, .stopCapture, .owner]

theorem drm_recordings_two :
    ∃ s : State Nat Device, run (step grab) (start device) twoRecordings = some s ∧
      s.delivered.map Prod.fst = [1, 2] ∧ (numbers s.delivered).Pairwise (· < ·) ∧
      (∃ r, run (Recording.step grab) ⟨none, device, []⟩
          (outputs (step grab) actions (start device) twoRecordings) = some r ∧
        r.delivered = s.delivered ++ pending s.callback s.captureThread) ∧
      ∃ n ≤ 5, ∀ readings : List UInt64, readings.length = n → ∃ t,
        run (step grab) s (readings.map .thread ++ [.owner]) = some t ∧
        t.owner = .idle ∧ t.captureThread = none ∧
        t.delivered.length ≤ s.delivered.length + 1 := by
  obtain ⟨s, ran, callbacks, joins⟩ : ∃ s : State Nat Device,
      run (step grab) (start device) twoRecordings = some s ∧
        s.delivered.map Prod.fst = [1, 2] ∧ s.owner = .joins := ⟨_, rfl, rfl, rfl⟩
  obtain ⟨-, ⟨r, recorded, handed, -⟩, ordered, stops⟩ := drm_recordings twoRecordings s ran
  exact ⟨s, ran, callbacks, ordered (by decide), ⟨r, recorded, handed⟩, stops joins⟩

end LinuxDrmCapture

end RemoteAccess.CaptureThread
