import RemoteAccess.SessionConnection
import RemoteAccess.SessionPackets

/-! The frame rate that the client shows: a timer reads the counter of received frames, which
a new connection sets back. The bitrate, a floating-point number, is left out. -/

namespace RemoteAccess.FpsTelemetry

open QtText SessionConnection
open SessionPackets (Session)

structure Telemetry where
  client : Client
  lastFrameCount : UInt64
  fps : Int32
  latencyMs : Int32

def Telemetry.setClient (t : Telemetry) (c : Client) : Telemetry := { t with client := c }

def start (history : List HistoryRecord) : Telemetry where
  client := SessionConnection.start history
  lastFrameCount := 0
  fps := 0
  latencyMs := 0

/-- `static_cast<int>` of a `uint64_t`. -/
def toInt (n : UInt64) : Int32 := n.toUInt32.toInt32

def updateTelemetry (t : Telemetry) : Telemetry :=
  let currentFps := toInt (t.client.receivedFrames - t.lastFrameCount)
  let simulatedLatency :=
    if t.client.isConnected then 12 + toInt t.client.receivedFrames % 8 else 0
  { t with
    lastFrameCount := t.client.receivedFrames
    fps := if t.fps ≠ currentFps then currentFps else t.fps
    latencyMs := if t.latencyMs ≠ simulatedLatency then simulatedLatency else t.latencyMs }

def frameShown (c : Client) : Client := { c with receivedFrames := c.receivedFrames + 1 }

theorem handleFrameHeader_receivedFrames (oversized : Nat → UInt64)
    (qUncompress : List UInt8 → List UInt8) (s : Session) (packet : ProtocolCodec.Packet) :
    SessionPackets.handleFrameHeader oversized qUncompress s packet = s ∨
      ∃ image, SessionPackets.handleFrameHeader oversized qUncompress s packet =
        { s with receivedFrames := s.receivedFrames + 1 }.emit (.updateFrame image) := by
  unfold SessionPackets.handleFrameHeader SessionPackets.showFrame
  dsimp only
  split
  · exact .inl rfl
  · split
    · exact .inl rfl
    · split_ifs
      · exact .inr ⟨_, rfl⟩
      · exact .inl rfl
      · exact .inl rfl
      · exact .inl rfl

/-! ### Runs -/

inductive Input
  | connection (e : Event)
  | frameShown
  | tick

/-- Frames come while a connection is there. -/
def step (t : Telemetry) : Input → Option Telemetry
  | .connection e => (SessionConnection.step t.client e).map t.setClient
  | .frameShown =>
    if t.client.Established then some (t.setClient (frameShown t.client)) else none
  | .tick => some (updateTelemetry t)

def run (t : Telemetry) (inputs : List Input) : Option Telemetry := Transitions.run step t inputs

/-- What the frame rate should be, read off the inputs. -/
structure Frames where
  /-- Since the last connection. -/
  sinceReset : Nat
  /-- Since the later of the last connection and the last tick. -/
  shown : Nat
  /-- How many there had been since the last connection when the timer last fired. -/
  atTick : Nat
  /-- Whether a connection was made since the last tick. -/
  reset : Bool

def Frames.none : Frames := ⟨0, 0, 0, false⟩

def Frames.next (n : Frames) : Input → Frames
  | .connection ⟨.connected, _⟩ => { n with sinceReset := 0, shown := 0, reset := true }
  | .connection _ => n
  | .frameShown => { n with sinceReset := n.sinceReset + 1, shown := n.shown + 1 }
  | .tick => { n with shown := 0, atTick := n.sinceReset, reset := false }

def frames (inputs : List Input) : Frames := inputs.foldl Frames.next .none

theorem frames_concat (inputs : List Input) (input : Input) :
    frames (inputs ++ [input]) = (frames inputs).next input := by
  rw [frames, List.foldl_append, List.foldl_cons, List.foldl_nil, frames]

/-! ### The counters -/

section Counters

variable {c d : Client}

@[simp] theorem onDisconnected_receivedFrames (out : Outside) (c : Client) :
    (onDisconnected out c).receivedFrames = c.receivedFrames := by
  unfold onDisconnected
  split <;> rfl

@[simp] theorem setSocket_receivedFrames (c : Client) (socket : SocketState) :
    (c.setSocket socket).receivedFrames = c.receivedFrames := rfl

theorem socketAbort_receivedFrames (out : Outside) (c : Client) :
    (socketAbort out c).receivedFrames = c.receivedFrames := by
  by_cases up : c.Established
  · rw [socketAbort_established up, onDisconnected_receivedFrames, setSocket_receivedFrames]
  · rw [socketAbort_down up, setSocket_receivedFrames]

theorem connectToHost_receivedFrames (out : Outside) (host : QString) (port : UInt16)
    (password : QString) (c : Client) :
    (connectToHost out host port password c).receivedFrames = c.receivedFrames := by
  rw [connectToHost_eq]
  exact socketAbort_receivedFrames out c

theorem socketDisconnectFromHost_receivedFrames (out : Outside) (c : Client) :
    (socketDisconnectFromHost out c).receivedFrames = c.receivedFrames := by
  obtain ⟨-, same⟩ | ⟨-, same⟩ | ⟨-, same | same⟩ := socketDisconnectFromHost_cases out c <;>
    rw [same] <;> simp

theorem step_receivedFrames {e : Event} (stepped : SessionConnection.step c e = some d) :
    d.receivedFrames = if e.action = .connected then 0 else c.receivedFrames := by
  obtain ⟨action, out⟩ := e
  cases action with
  | connectToHost host port password =>
    obtain rfl := Option.some.inj stepped
    exact connectToHost_receivedFrames out host port password c
  | connectByP2PId id password =>
    obtain rfl := Option.some.inj stepped
    exact connectToHost_receivedFrames out localHost 18443 password _
  | disconnectFromHost =>
    obtain rfl := Option.some.inj stepped
    exact socketDisconnectFromHost_receivedFrames out c.stopReconnecting
  | cancelReconnect =>
    obtain rfl := Option.some.inj stepped
    rfl
  | connected =>
    obtain ⟨-, rfl | rfl⟩ := step_connected stepped
    · rfl
    · exact socketDisconnectFromHost_receivedFrames out _
  | attemptFailed =>
    obtain ⟨-, rfl⟩ := step_attemptFailed stepped
    rfl
  | connectionLost =>
    obtain ⟨-, rfl⟩ := step_connectionLost stepped
    exact onDisconnected_receivedFrames out _
  | closed =>
    obtain ⟨-, rfl⟩ := step_closed stepped
    exact onDisconnected_receivedFrames out _
  | timerFired =>
    obtain ⟨-, rfl⟩ := step_timerFired stepped
    obtain ⟨-, same⟩ | ⟨-, -, ⟨-, same⟩ | ⟨-, same⟩⟩ :=
      attemptReconnect_cases out { c with reconnectTimer := none } <;> rw [same] <;> rfl

end Counters

/-- The counters of the client are those of the inputs, as long as they fit. -/
structure Counted (n : Frames) (t : Telemetry) : Prop where
  received : t.client.receivedFrames = UInt64.ofNat n.sinceReset
  last : t.lastFrameCount = UInt64.ofNat n.atTick
  since : n.sinceReset = (if n.reset then 0 else n.atTick) + n.shown

variable {t u : Telemetry} {n : Frames}

theorem updateTelemetry_fps (t : Telemetry) :
    (updateTelemetry t).fps = toInt (t.client.receivedFrames - t.lastFrameCount) := by
  simp only [updateTelemetry, ite_not]
  split
  · next same => exact same
  · rfl

theorem Counted.connection {e : Event} {d : Client} (ok : Counted n t)
    (stepped : SessionConnection.step t.client e = some d) :
    Counted (n.next (.connection e)) (t.setClient d) := by
  have moved := step_receivedFrames stepped
  obtain ⟨action, out⟩ := e
  by_cases connected : action = .connected
  · subst connected
    exact ⟨moved, ok.last, rfl⟩
  · have same : n.next (.connection ⟨action, out⟩) = n := by
      cases action with
      | connected => exact absurd rfl connected
      | _ => rfl
    rw [if_neg connected] at moved
    rw [same]
    exact ⟨moved.trans ok.received, ok.last, ok.since⟩

theorem Counted.step {input : Input} (ok : Counted n t) (stepped : step t input = some u) :
    Counted (n.next input) u := by
  cases input with
  | connection e =>
    obtain ⟨d, moved, rfl⟩ := Option.map_eq_some_iff.mp stepped
    exact ok.connection moved
  | frameShown =>
    simp only [FpsTelemetry.step, Option.ite_none_right_eq_some, Option.some.injEq] at stepped
    obtain ⟨-, rfl⟩ := stepped
    refine ⟨?_, ok.last, ?_⟩
    · change t.client.receivedFrames + 1 = UInt64.ofNat (n.sinceReset + 1)
      rw [ok.received, UInt64.ofNat_add]
      rfl
    · change n.sinceReset + 1 = (if n.reset then 0 else n.atTick) + (n.shown + 1)
      rw [ok.since, Nat.add_assoc]
  | tick =>
    obtain rfl := Option.some.inj stepped
    exact ⟨ok.received, ok.received, rfl⟩

theorem counted_run {history : List HistoryRecord} {inputs : List Input}
    (ran : run (start history) inputs = some t) : Counted (frames inputs) t := by
  induction inputs using List.reverseRecOn generalizing t with
  | nil =>
    obtain rfl := Option.some.inj ran
    exact ⟨rfl, rfl, rfl⟩
  | append_singleton inputs input ih =>
    rw [run, Transitions.run_concat, Option.bind_eq_some_iff] at ran
    obtain ⟨s, earlier, stepped⟩ := ran
    rw [frames_concat]
    exact (ih earlier).step stepped

/-! ### The difference of the counters -/

theorem toInt_sub_ofNat (m n : Nat) :
    toInt (UInt64.ofNat m - UInt64.ofNat n) = Int32.ofNat m - Int32.ofNat n := by
  rw [toInt, UInt64.toUInt32_sub, UInt32.toInt32_sub, UInt64.toUInt32_ofNat',
    UInt64.toUInt32_ofNat', UInt32.toInt32_ofNat', UInt32.toInt32_ofNat']

theorem ofNat_eq_zero_iff (n : Nat) : Int32.ofNat n = 0 ↔ 2 ^ 32 ∣ n := by
  rw [← Int32.toBitVec_inj, BitVec.toNat_eq, Nat.dvd_iff_mod_eq_zero]
  exact Iff.rfl

theorem eq_ofNat_iff {x : Int32} {n : Nat} (small : n < 2 ^ 31) :
    (0 ≤ x ∧ x.toInt = n) ↔ x = Int32.ofNat n := by
  have value := Int32.toInt_ofNat_of_lt small
  constructor
  · rintro ⟨-, same⟩
    rw [← Int32.toInt_inj, same, value]
  · rintro rfl
    exact ⟨Int32.zero_le_ofNat_of_lt small, value⟩

theorem updateTelemetry_iff (ok : Counted n t) (few : n.shown < 2 ^ 31) :
    (0 ≤ (updateTelemetry t).fps ∧ (updateTelemetry t).fps.toInt = n.shown) ↔
      (n.reset = true → 2 ^ 32 ∣ n.atTick) := by
  have since := ok.since
  rw [eq_ofNat_iff few, updateTelemetry_fps, ok.received, ok.last, toInt_sub_ofNat, since]
  cases reset : n.reset with
  | false =>
    have same : Int32.ofNat (n.atTick + n.shown) = Int32.ofNat n.shown + Int32.ofNat n.atTick := by
      rw [Nat.add_comm, Int32.ofNat_add]
    simp [same]
  | true =>
    rw [if_pos rfl, Nat.zero_add, ← ofNat_eq_zero_iff, Int32.sub_eq_iff_eq_add]
    simp

/-- At a tick after `before` the figure is the number of frames shown since the last tick, or
since the connection if that is later. -/
def CountsFrames (history : List HistoryRecord) (before : List Input) : Prop :=
  ∀ t, run (start history) (before ++ [.tick]) = some t →
    0 ≤ t.fps ∧ t.fps.toInt = (frames before).shown

theorem countsFrames_iff {history : List HistoryRecord} {before : List Input}
    (ran : run (start history) before = some t) (few : (frames before).shown < 2 ^ 31) :
    CountsFrames history before ↔
      ((frames before).reset = true → 2 ^ 32 ∣ (frames before).atTick) := by
  have ticked : run (start history) (before ++ [.tick]) = some (updateTelemetry t) := by
    rw [run, Transitions.run_concat, ← run, ran]
    rfl
  rw [← updateTelemetry_iff (counted_run ran) few, CountsFrames, ticked]
  simp only [Option.some.injEq, forall_eq']

theorem fps_counts_frames_iff {history : List HistoryRecord} {inputs : List Input}
    (ran : run (start history) inputs = some t)
    (few : ∀ before after, inputs = before ++ .tick :: after →
      (frames before).shown < 2 ^ 31) :
    (∀ before after, inputs = before ++ .tick :: after → CountsFrames history before) ↔
      ∀ before after, inputs = before ++ .tick :: after →
        (frames before).reset = true → 2 ^ 32 ∣ (frames before).atTick := by
  refine forall_congr' fun before => forall_congr' fun after => forall_congr' fun split => ?_
  rw [run, split] at ran
  obtain ⟨s, reached, -⟩ := Transitions.exists_run_left ran
  exact countsFrames_iff reached (few before after split)

theorem shown_le_length (inputs : List Input) : (frames inputs).shown ≤ inputs.length := by
  induction inputs using List.reverseRecOn with
  | nil => exact Nat.le_refl 0
  | append_singleton inputs input ih =>
    rw [frames_concat, List.length_append]
    unfold Frames.next
    split
    · exact Nat.zero_le _
    · exact Nat.le_succ_of_le ih
    · exact Nat.succ_le_succ ih
    · exact Nat.zero_le _

def twoFrames : List Input :=
  localSession.map .connection ++ [.frameShown, .frameShown, .tick]

theorem fps_counts_frames_iff_twoFrames :
    ∃ t, run (start []) twoFrames = some t ∧
      ((∀ before after, twoFrames = before ++ .tick :: after → CountsFrames [] before) ↔
        ∀ before after, twoFrames = before ++ .tick :: after →
          (frames before).reset = true → 2 ^ 32 ∣ (frames before).atTick) := by
  refine ⟨_, rfl, fps_counts_frames_iff rfl fun before after split => ?_⟩
  have inside := congrArg List.length split
  have length : twoFrames.length = 5 := rfl
  have bound := shown_le_length before
  rw [length, List.length_append] at inside
  omega

/-- The network fails after the tick, and the retry succeeds before the next one. -/
theorem reconnection_makes_fps_negative :
    ∃ t, run (start []) (twoFrames ++ [.connection ⟨.connectionLost, calm⟩,
        .connection ⟨.timerFired, calm⟩, .connection ⟨.connected, calm⟩, .tick]) = some t ∧
      t.fps = -2 ∧
      ¬ CountsFrames [] (twoFrames ++ [.connection ⟨.connectionLost, calm⟩,
        .connection ⟨.timerFired, calm⟩, .connection ⟨.connected, calm⟩]) := by
  obtain ⟨t, ran, negative⟩ : ∃ t, run (start []) (twoFrames ++
      [.connection ⟨.connectionLost, calm⟩, .connection ⟨.timerFired, calm⟩,
        .connection ⟨.connected, calm⟩, .tick]) = some t ∧ t.fps = -2 := ⟨_, rfl, rfl⟩
  refine ⟨t, ran, negative, fun counts => ?_⟩
  have positive := (counts t ran).1
  rw [negative] at positive
  exact absurd positive (by decide)

end RemoteAccess.FpsTelemetry
