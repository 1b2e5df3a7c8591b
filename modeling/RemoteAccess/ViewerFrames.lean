import RemoteAccess.ScreenCapture
import RemoteAccess.VideoPath

/-! The capture thread and the agent over one fixed screen. A capture that finds the
screen as the last one left it returns nothing, for old viewers and new ones alike;
`audience` is a history of who was sent the last frame, which the program does not
keep. -/

namespace RemoteAccess.ViewerFrames

open ProtocolCodec SealedMessage AgentServer AgentBroadcast ScreenCapture
open AgentPacketHandler (Host)
open VideoPath (compressedPixel)

structure System where
  agent : Agent
  capture : Capture
  screen : XImage
  audience : List SocketId

def start (width height : UInt32) (screen : XImage) : System where
  agent := AgentServer.initial
  capture := Capture.initialized width height
  screen := screen
  audience := []

inductive Event
  | agent (e : AgentServer.Event)
  | screenChanged (screen : XImage)
  /-- One round of the capture loop. `imaged` tells if `XGetImage` returns the screen. -/
  | tick (timestampUs : UInt64) (imaged : Bool)

variable (oversized : Nat → UInt64) (qCompress : List UInt8 → List UInt8) (host : Host)

/-- The callback, and the event loop until nothing is queued. -/
def publish (agent : Agent) (frame : FrameData) : Option Agent := do
  let agent ← AgentServer.step oversized qCompress host agent (.frameCaptured frame)
  Transitions.run (AgentServer.step oversized qCompress host) agent
    (agent.queued.map fun _ => .frameDelivered)

/-- A tick and the writes that it queues come between two handlers. -/
def step (s : System) : Event → Option System
  | .agent e =>
    if isBroadcast e then none
    else (AgentServer.step oversized qCompress host s.agent e).map fun agent =>
      { s with agent := agent }
  | .screenChanged screen => some { s with screen := screen }
  | .tick timestampUs imaged =>
    if s.agent.reading.isSome then none else
    let (frame, capture) :=
      captureSingleFrame s.capture timestampUs (if imaged then some s.screen else none)
    match frame with
    | none => some { s with capture := capture }
    | some frame => (publish oversized qCompress host s.agent frame).map fun agent =>
        { s with agent := agent, capture := capture, audience := viewers s.agent }

/-- The packet of a frame with these pixels passes the cast of its size to `int`. -/
def WrittenWhole (pixelData : List UInt8) : Prop :=
  headerSize + (12 + (qCompress pixelData).length + CryptoEngine.tagSize) < 2 ^ 31

/-- Those who watch a screen that has not changed were sent the last frame of it, the frame
can be written, and nobody watches a screen that cannot be read. -/
def Attended (s : System) : Event → Prop
  | .tick _ imaged =>
    if imaged then
      (Unchanged s.capture s.screen → viewers s.agent ⊆ s.audience) ∧
        (viewers s.agent ≠ [] →
          WrittenWhole qCompress (s.screen.pixels s.capture.width s.capture.height))
    else viewers s.agent = []
  | _ => True

/-- Whoever was watching before the tick has a frame of the screen as its latest, in one
piece. -/
def SeesScreen (s t : System) : Prop :=
  ∀ id ∈ viewers s.agent, ∃ frame, latestFrame id t.agent.log = some (framePacket qCompress frame) ∧
    WrittenWhole qCompress frame.pixelData ∧
    frame.width = s.capture.width ∧ frame.height = s.capture.height ∧ Depicts s.screen frame

/-- A tick leaves every viewer with the screen; other events have nothing to leave. -/
def ServesViewers (s : System) : Event → Prop
  | .tick timestampUs imaged => ∀ t, step oversized qCompress host s (.tick timestampUs imaged) =
      some t → SeesScreen qCompress s t
  | _ => True

/-! ### One frame for everyone -/

variable {oversized} {qCompress} {host}

theorem publish_sent {agent after : Agent} {frame : FrameData} (drained : agent.queued = [])
    (published : publish oversized qCompress host agent frame = some after) :
    after.queued = [] ∧
      ∀ id ∈ viewers agent, latestFrame id after.log = some (framePacket qCompress frame) := by
  rw [publish, Option.bind_eq_bind, Option.bind_eq_some_iff] at published
  obtain ⟨between, posted, delivered⟩ := published
  cases steps_of_step oversized qCompress host posted with
  | unwatched frame nobody =>
    rw [drained] at delivered
    obtain rfl := Option.some.inj delivered
    exact ⟨drained, by simp [viewers, nobody]⟩
  | captured frame listed =>
    rw [drained, List.nil_append, List.map_singleton, Transitions.run, List.foldlM_cons,
      Option.bind_eq_bind, Option.bind_eq_some_iff] at delivered
    obtain ⟨last, stepped, ⟨⟩⟩ := delivered
    cases steps_of_step oversized qCompress host stepped with
    | delivered packet queued idle waiting =>
      obtain ⟨rfl, rfl⟩ := List.cons.inj waiting
      exact ⟨rfl, fun id viewing => latestFrame_broadcast _ viewing⟩

/-- What the last capture remembers is what its audience was sent. -/
structure Remembered (qCompress : List UInt8 → List UInt8) (width height : UInt32) (s : System) :
    Prop where
  geometry : s.capture.width = width ∧ s.capture.height = height
  drained : s.agent.queued = []
  sent : s.capture.prevFrameData ≠ [] → ∀ id ∈ s.audience, ∃ frame,
    latestFrame id s.agent.log = some (framePacket qCompress frame) ∧
      frame.width = width ∧ frame.height = height ∧ frame.pixelData = s.capture.prevFrameData

variable {width height : UInt32} {s t : System}

theorem remembered_start (screen : XImage) :
    Remembered qCompress width height (start width height screen) where
  geometry := ⟨rfl, rfl⟩
  drained := rfl
  sent empty := absurd rfl empty

theorem Remembered.quiet {agent : Agent} (known : Remembered qCompress width height s)
    (quiet : Quiet s.agent agent) :
    Remembered qCompress width height { s with agent := agent } where
  geometry := known.geometry
  drained := quiet.queued.trans known.drained
  sent filled id member := by
    rw [quiet.latest]
    exact known.sent filled id member

theorem tick_remembered (small : 4 * (width.toNat * height.toNat) < 2 ^ 31) {timestampUs : UInt64}
    {imaged : Bool}
    (stepped : step oversized qCompress host s (.tick timestampUs imaged) = some t)
    (attended : Attended qCompress s (.tick timestampUs imaged))
    (known : Remembered qCompress width height s) :
    Remembered qCompress width height t ∧ SeesScreen qCompress s t := by
  obtain ⟨rfl, rfl⟩ := known.geometry
  rw [step, Option.ite_none_left_eq_some] at stepped
  obtain ⟨-, stepped⟩ := stepped
  cases imaged with
  | false =>
    obtain ⟨agent, published, rfl⟩ := Option.map_eq_some_iff.mp stepped
    have nobody : viewers s.agent = [] := attended
    obtain ⟨drained, -⟩ := publish_sent known.drained published
    exact ⟨⟨⟨rfl, rfl⟩, drained, by simp [nobody]⟩, by simp [SeesScreen, nobody]⟩
  | true =>
    obtain ⟨watching, fits⟩ := attended
    rw [if_pos rfl, captureSingleFrame_some timestampUs small] at stepped
    split_ifs at stepped with unchanged
    · obtain rfl := Option.some.inj stepped
      refine ⟨⟨⟨rfl, rfl⟩, known.drained, known.sent⟩, ?_⟩
      intro id viewing
      have watched : viewers s.agent ⊆ s.audience := watching unchanged
      obtain ⟨frame, latest, width, height, pixelData⟩ :=
        known.sent unchanged.1 id (watched viewing)
      rw [unchanged.2] at pixelData
      refine ⟨frame, latest, ?_, width, height, pixels_depict _ ?_⟩
      · rw [pixelData]
        exact fits (List.ne_nil_of_mem viewing)
      · rw [pixelData, width, height]
    · obtain ⟨agent, published, rfl⟩ := Option.map_eq_some_iff.mp stepped
      obtain ⟨drained, sent⟩ := publish_sent known.drained published
      refine ⟨⟨⟨rfl, rfl⟩, drained, ?_⟩, ?_⟩
      · intro filled id viewing
        exact ⟨_, sent id viewing, rfl, rfl, rfl⟩
      · intro id viewing
        exact ⟨_, sent id viewing, fits (List.ne_nil_of_mem viewing), rfl, rfl,
          pixels_depict _ rfl⟩

theorem step_remembered (small : 4 * (width.toNat * height.toNat) < 2 ^ 31) {event : Event}
    (attended : Attended qCompress s event)
    (stepped : step oversized qCompress host s event = some t)
    (known : Remembered qCompress width height s) :
    Remembered qCompress width height t := by
  cases event with
  | agent e =>
    simp only [step] at stepped
    split_ifs at stepped with broadcasting
    obtain ⟨agent, moved, rfl⟩ := Option.map_eq_some_iff.mp stepped
    exact known.quiet (step_quiet moved (by simpa using broadcasting))
  | screenChanged screen =>
    obtain rfl := Option.some.inj stepped
    exact ⟨known.geometry, known.drained, known.sent⟩
  | tick timestampUs imaged => exact (tick_remembered small stepped attended known).1

variable (oversized) (qCompress) (host)

/-- In a run in which nobody starts to watch a screen that stays as it was captured last and
every frame for a viewer can be written, every viewer has the screen as its latest frame
after each tick. -/
theorem viewers_served (width height : UInt32)
    (small : 4 * (width.toNat * height.toNat) < 2 ^ 31) (screen : XImage) (events : List Event)
    (attended : Transitions.Throughout (step oversized qCompress host) (Attended qCompress)
      (start width height screen) events) :
    Transitions.Throughout (step oversized qCompress host)
      (ServesViewers oversized qCompress host) (start width height screen) events := by
  intro before event after s split reached
  have earlier : Transitions.Throughout (step oversized qCompress host) (Attended qCompress)
      (start width height screen) before := (split ▸ attended).left
  have known : Remembered qCompress width height s :=
    earlier.invariant (Remembered qCompress width height) reached (remembered_start screen)
      (step_remembered small)
  cases event with
  | agent e => trivial
  | screenChanged screen => trivial
  | tick timestampUs imaged =>
    intro t stepped
    exact (tick_remembered small stepped (attended before _ after s split reached) known).2

def dot : XImage := ⟨[0x1e, 0x14, 0x0a, 0x00], 4, 32⟩

abbrev stepDot : System → Event → Option System :=
  step (fun _ => 1) (fun _ => compressedPixel) ⟨true, true, []⟩

theorem viewers_served_dot : ∃ s t,
    Transitions.run stepDot (start 1 1 dot)
        [.agent (.newConnection [⟨true, []⟩]), .tick 2000 true] = some s ∧
      stepDot s (.tick 3000 true) = some t ∧ viewers s.agent = [0] ∧
      SeesScreen (fun _ => compressedPixel) s t := by
  have packet : headerSize + (12 + compressedPixel.length + CryptoEngine.tagSize) < 2 ^ 31 := by
    decide
  have short : ∀ pixelData, WrittenWhole (fun _ => compressedPixel) pixelData := fun _ => packet
  have attended : Transitions.Throughout stepDot (Attended fun _ => compressedPixel) (start 1 1 dot)
      [.agent (.newConnection [⟨true, []⟩]), .tick 2000 true, .tick 3000 true] := by
    refine Transitions.throughout_cons trivial ?_
    rintro s ⟨⟩
    refine Transitions.throughout_cons
      ⟨fun unchanged => absurd rfl unchanged.1, fun _ => short _⟩ ?_
    rintro s ⟨⟩
    exact Transitions.throughout_cons ⟨fun _ => List.Subset.refl [0], fun _ => short _⟩ fun _ _ =>
      Transitions.throughout_nil
  have served := viewers_served (fun _ => 1) (fun _ => compressedPixel) ⟨true, true, []⟩ 1 1
    (by decide) dot _ attended
  obtain ⟨s, t, reached, stepped, viewing⟩ : ∃ s t,
      Transitions.run stepDot (start 1 1 dot)
          [.agent (.newConnection [⟨true, []⟩]), .tick 2000 true] = some s ∧
        stepDot s (.tick 3000 true) = some t ∧ viewers s.agent = [0] := ⟨_, _, rfl, rfl, rfl⟩
  exact ⟨s, t, reached, stepped, viewing, served _ _ [] s rfl reached t stepped⟩

/-- A local viewer connects after the first frame and is sent nothing while the
screen stays. -/
theorem late_viewer_unserved : ∃ s t,
    Transitions.run stepDot (start 1 1 dot)
        [.tick 2000 true, .agent (.newConnection [⟨true, []⟩])] = some s ∧
      stepDot s (.tick 3000 true) = some t ∧ viewers s.agent = [0] ∧
      latestFrame 0 t.agent.log = none ∧
      ¬ ServesViewers (fun _ => 1) (fun _ => compressedPixel) ⟨true, true, []⟩ s
        (.tick 3000 true) := by
  obtain ⟨s, t, reached, stepped, viewing, nothing⟩ : ∃ s t,
      Transitions.run stepDot (start 1 1 dot)
          [.tick 2000 true, .agent (.newConnection [⟨true, []⟩])] = some s ∧
        stepDot s (.tick 3000 true) = some t ∧ viewers s.agent = [0] ∧
        latestFrame 0 t.agent.log = none := ⟨_, _, rfl, rfl, rfl, rfl⟩
  refine ⟨s, t, reached, stepped, viewing, nothing, ?_⟩
  intro served
  obtain ⟨frame, latest, -⟩ := served t stepped 0 (by simp [viewing])
  rw [nothing] at latest
  cases latest

end RemoteAccess.ViewerFrames
