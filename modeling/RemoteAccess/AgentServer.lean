import RemoteAccess.AgentPacketHandler
import RemoteAccess.AgentReceive
import RemoteAccess.Basics.History
import RemoteAccess.Basics.Transitions
import Mathlib.Logic.Function.Basic

/-! The agent as a state machine over its event loop: accepted connections, one
`readyRead` handler running pass by pass, disconnections, and frames that the
capture thread queues and the event loop broadcasts. `log` is a history of what
was done to or for each socket; the agent itself does not keep it. -/

namespace RemoteAccess.AgentServer

open History LittleEndian ProtocolCodec SealedMessage QtText AgentPacketHandler AgentReceive

abbrev SocketId := Nat

/-- What `peerAddress()` says about a new connection. -/
structure Peer where
  addressIsLoopback : Bool
  peerStr : QString

def isLoopback (peer : Peer) : Bool :=
  peer.addressIsLoopback || contains peer.peerStr (literal ['1', '2', '7', '.']) ||
    contains peer.peerStr (literal [':', ':', '1']) ||
    contains peer.peerStr (literal ['l', 'o', 'c', 'a', 'l', 'h', 'o', 's', 't']) ||
    peer.peerStr.isEmpty

structure FrameData where
  width : UInt32
  height : UInt32
  pixelData : List UInt8
  frameNumber : UInt64
  timestampUs : UInt64

/-- The capture callback's packet. `compSize` bytes of the compressed pixels
follow three size words; `qCompress` is Qt's. -/
def framePacket (qCompress : List UInt8 → List UInt8) (frame : FrameData) : Plain :=
  let compressedPixels := qCompress frame.pixelData
  let rawSize := UInt32.ofNat frame.pixelData.length
  let compSize := UInt32.ofNat compressedPixels.length
  { type := .frameHeader
    seq := frame.frameNumber
    timestampMs := frame.timestampUs / 1000
    plaintext := toBytes 4 frame.width.toNat ++ toBytes 4 frame.height.toNat ++
      toBytes 4 rawSize.toNat ++ compressedPixels.take compSize.toNat }

inductive Entry
  | accepted (id : SocketId) (isLoopback : Bool)
  | effect (id : SocketId) (e : Effect)
  | frame (id : SocketId) (packet : Plain)
deriving DecidableEq

structure Agent where
  clients : List SocketId
  sockets : SocketId → Option ClientSocket
  isOpen : SocketId → Bool
  nextId : SocketId
  /-- The running `readyRead` handler: its socket and its `buffer`. -/
  reading : Option (SocketId × List UInt8)
  /-- Broadcasts posted with `Qt::QueuedConnection`. -/
  queued : List Plain
  log : List Entry

def initial : Agent where
  clients := []
  sockets _ := none
  isOpen _ := false
  nextId := 0
  reading := none
  queued := []
  log := []

inductive Event
  | newConnection (pending : List Peer)
  | readyRead (id : SocketId) (data : List UInt8)
  | pass
  | disconnected (id : SocketId)
  | closed (id : SocketId)
  | frameCaptured (frame : FrameData)
  | frameDelivered

variable (oversized : Nat → UInt64) (qCompress : List UInt8 → List UInt8) (host : Host)

/-- One round of the `newConnection` loop. -/
def accept (s : Agent) (peer : Peer) : Agent :=
  let loopback := isLoopback peer
  { s with
    clients := s.clients ++ [s.nextId]
    sockets := Function.update s.sockets s.nextId
      (some { authenticated := loopback, isLoopback := loopback })
    isOpen := Function.update s.isOpen s.nextId true
    nextId := s.nextId + 1
    log := s.log ++ [.accepted s.nextId loopback] }

/-- `handleClientPacket` on the socket of the running handler. -/
def handleOn (id : SocketId) (s : Agent) (packet : Packet) : Agent :=
  match s.sockets id with
  | none => s
  | some socket =>
    let (socket, effects) := handleClientPacket oversized host socket packet
    { s with
      sockets := Function.update s.sockets id (some socket)
      log := s.log ++ effects.map (Entry.effect id) }

def receives (s : Agent) (id : SocketId) : Bool :=
  s.isOpen id && (s.sockets id).any (·.authenticated)

def broadcast (s : Agent) (packet : Plain) : Agent :=
  { s with log := s.log ++ (s.clients.filter (receives s)).map (Entry.frame · packet) }

/-- `none` is an event that cannot happen in the state: the event loop runs one
handler at a time. Sockets can disconnect or close at any time, also from inside
a handler, and frames are captured on another thread. -/
def step (s : Agent) : Event → Option Agent
  | .newConnection pending => if s.reading.isSome then none else some (pending.foldl accept s)
  | .readyRead id data =>
    if s.reading.isSome ∨ (s.sockets id).isNone then none
    else some { s with reading := some (id, data) }
  | .pass =>
    match s.reading with
    | none => none
    | some (id, buffer) =>
      match readyReadStep (handleOn oversized host id) (s, buffer) with
      | none => some { s with reading := none }
      | some (s, buffer) => some { s with reading := some (id, buffer) }
  | .disconnected id => some { s with clients := s.clients.erase id }
  | .closed id => some { s with isOpen := Function.update s.isOpen id false }
  | .frameCaptured frame =>
    if s.clients.isEmpty then some s
    else some { s with queued := s.queued ++ [framePacket qCompress frame] }
  | .frameDelivered =>
    if s.reading.isSome then none else
    match s.queued with
    | [] => none
    | packet :: queued => some (broadcast { s with queued := queued } packet)

def run (events : List Event) : Option Agent :=
  Transitions.run (step oversized qCompress host) initial events

inductive Steps (s : Agent) : Event → Agent → Prop
  | newConnection (pending : List Peer) (idle : s.reading = none) :
      Steps s (.newConnection pending) (pending.foldl accept s)
  | readyRead (id : SocketId) (data : List UInt8) (idle : s.reading = none) :
      Steps s (.readyRead id data) { s with reading := some (id, data) }
  | returned (id : SocketId) (buffer : List UInt8) (reading : s.reading = some (id, buffer)) :
      Steps s .pass { s with reading := none }
  | handled (id : SocketId) (buffer : List UInt8) (packet : Packet) (left : List UInt8)
      (reading : s.reading = some (id, buffer)) :
      Steps s .pass { handleOn oversized host id s packet with reading := some (id, left) }
  | disconnected (id : SocketId) :
      Steps s (.disconnected id) { s with clients := s.clients.erase id }
  | closed (id : SocketId) :
      Steps s (.closed id) { s with isOpen := Function.update s.isOpen id false }
  | unwatched (frame : FrameData) (nobody : s.clients = []) : Steps s (.frameCaptured frame) s
  | captured (frame : FrameData) (listed : s.clients ≠ []) :
      Steps s (.frameCaptured frame) { s with queued := s.queued ++ [framePacket qCompress frame] }
  | delivered (packet : Plain) (queued : List Plain) (idle : s.reading = none)
      (waiting : s.queued = packet :: queued) :
      Steps s .frameDelivered (broadcast { s with queued := queued } packet)

theorem steps_of_step {s t : Agent} {event : Event}
    (stepped : step oversized qCompress host s event = some t) :
    Steps oversized qCompress host s event t := by
  cases event with
  | newConnection pending =>
    simp only [step] at stepped
    split_ifs at stepped with busy
    obtain rfl := Option.some.inj stepped
    exact .newConnection pending (by simpa using busy)
  | readyRead id data =>
    simp only [step] at stepped
    split_ifs at stepped with unready
    obtain rfl := Option.some.inj stepped
    exact .readyRead id data (by simpa using (not_or.mp unready).1)
  | pass =>
    simp only [step] at stepped
    split at stepped
    · cases stepped
    · next id buffer reading =>
      obtain same | ⟨packet, left, same⟩ :=
        readyReadStep_cases (handleOn oversized host id) s buffer
      · rw [same] at stepped
        obtain rfl := Option.some.inj stepped
        exact .returned id buffer reading
      · rw [same] at stepped
        obtain rfl := Option.some.inj stepped
        exact .handled id buffer packet left reading
  | disconnected id =>
    obtain rfl := Option.some.inj stepped
    exact .disconnected id
  | closed id =>
    obtain rfl := Option.some.inj stepped
    exact .closed id
  | frameCaptured frame =>
    simp only [step] at stepped
    split_ifs at stepped with nobody
    · obtain rfl := Option.some.inj stepped
      exact .unwatched frame (List.isEmpty_iff.mp nobody)
    · obtain rfl := Option.some.inj stepped
      exact .captured frame (mt List.isEmpty_iff.mpr nobody)
  | frameDelivered =>
    simp only [step] at stepped
    split_ifs at stepped with busy
    split at stepped
    · cases stepped
    · next packet queued waiting =>
      obtain rfl := Option.some.inj stepped
      exact .delivered packet queued (by simpa using busy) waiting

/-! ### Authentication outcomes in the history -/

namespace Entry

def outcome (id : SocketId) : Entry → Option Bool
  | accepted other loopback => if other = id then some loopback else none
  | effect other e => if other = id then e.outcome else none
  | frame _ _ => none

def needsAuth (id : SocketId) : Entry → Bool
  | accepted _ _ => false
  | effect other e => decide (other = id) && e.privileged
  | frame other _ => decide (other = id)

end Entry

def latestOutcome (id : SocketId) (log : List Entry) : Option Bool :=
  latest (Entry.outcome id) log

/-- Whatever needs authentication happened while the latest outcome was positive. -/
def Guarded (log : List Entry) : Prop :=
  EachAfter (fun before e => ∀ id, e.needsAuth id = true → latestOutcome id before = some true) log

structure Invariant (s : Agent) : Prop where
  flag : ∀ id socket, s.sockets id = some socket →
    latestOutcome id s.log = some socket.authenticated
  guarded : Guarded s.log

theorem invariant_initial : Invariant initial where
  flag := by simp [initial]
  guarded := eachAfter_nil _

theorem Invariant.congr {s t : Agent} (inv : Invariant s) (sockets : t.sockets = s.sockets)
    (log : t.log = s.log) : Invariant t where
  flag := by
    rw [sockets, log]
    exact inv.flag
  guarded := by
    rw [log]
    exact inv.guarded

theorem accept_invariant {s : Agent} (peer : Peer) (inv : Invariant s) :
    Invariant (accept s peer) where
  flag := by
    intro id socket known
    by_cases new : id = s.nextId
    · subst new
      have value :
          socket = { authenticated := isLoopback peer, isLoopback := isLoopback peer } := by
        simpa [accept] using known.symm
      rw [value]
      exact latest_append_cons (by simp [Entry.outcome]) (by simp)
    · have old : s.sockets id = some socket := by simpa [accept, new] using known
      have quiet : ∀ e ∈ [Entry.accepted s.nextId (isLoopback peer)], e.outcome id = none := by
        simp [Entry.outcome, Ne.symm new]
      exact (latest_append_quiet quiet).trans (inv.flag id socket old)
  guarded := by
    apply inv.guarded.append
    intro before e since split id needs
    have member : e ∈ [Entry.accepted s.nextId (isLoopback peer)] := split ▸ by simp
    rw [List.mem_singleton.mp member] at needs
    simp [Entry.needsAuth] at needs

section Effects

variable {id : SocketId} {effects : List Effect}

theorem quiet_effects (quiet : ∀ e ∈ effects, e.outcome = none) (other : SocketId) :
    ∀ entry ∈ effects.map (Entry.effect id), entry.outcome other = none := by
  intro entry member
  obtain ⟨e, old, rfl⟩ := List.mem_map.mp member
  simp [Entry.outcome, quiet e old]

theorem other_effects {other : SocketId} (different : other ≠ id) :
    ∀ entry ∈ effects.map (Entry.effect id), entry.outcome other = none := by
  intro entry member
  obtain ⟨e, -, rfl⟩ := List.mem_map.mp member
  simp [Entry.outcome, Ne.symm different]

/-- Effects that bring no outcome keep the history guarded when the privileged
ones among them happen to an authenticated socket. -/
theorem guarded_effects {log : List Entry} (guarded : Guarded log)
    (quiet : ∀ e ∈ effects, e.outcome = none)
    (allowed : ∀ e ∈ effects, e.privileged = true → latestOutcome id log = some true) :
    Guarded (log ++ effects.map (Entry.effect id)) := by
  apply guarded.append
  intro before entry since split other needs
  obtain ⟨first, rest, rfl, rfl, tail⟩ := List.map_eq_append_iff.mp split
  obtain ⟨e, later, rfl, rfl, rfl⟩ := List.map_eq_cons_iff.mp tail
  simp only [Entry.needsAuth, Bool.and_eq_true, decide_eq_true_eq] at needs
  obtain ⟨rfl, privileged⟩ := needs
  have silent : ∀ entry ∈ first.map (Entry.effect id), entry.outcome id = none :=
    quiet_effects (fun e member => quiet e (List.mem_append_left _ member)) id
  rw [latestOutcome, latest_append_quiet silent]
  exact allowed e (by simp) privileged

theorem Invariant.record {s : Agent} {socket : ClientSocket} (inv : Invariant s)
    (flag : latestOutcome id (s.log ++ effects.map (Entry.effect id)) =
      some socket.authenticated)
    (guarded : Guarded (s.log ++ effects.map (Entry.effect id))) :
    Invariant { s with
      sockets := Function.update s.sockets id (some socket)
      log := s.log ++ effects.map (Entry.effect id) } where
  flag := by
    intro other found known
    by_cases same : other = id
    · subst same
      have value : socket = found := by simpa using known
      rw [← value]
      exact flag
    · have old : s.sockets other = some found := by simpa [same] using known
      exact (latest_append_quiet (other_effects same)).trans (inv.flag other found old)
  guarded := guarded

end Effects

theorem handleOn_invariant {s : Agent} (id : SocketId) (packet : Packet) (inv : Invariant s) :
    Invariant (handleOn oversized host id s packet) := by
  unfold handleOn
  cases known : s.sockets id with
  | none => exact inv
  | some socket =>
    obtain ⟨authSuccess, rest, handled, harmless⟩ | ⟨effects, handled, allowed⟩ :=
      handleClientPacket_spec oversized host socket packet
    · have quiet : ∀ e ∈ rest, e.outcome = none := fun e member => (harmless e member).1
      have first : Guarded (s.log ++ [Entry.effect id (.setAuthenticated authSuccess)]) := by
        apply inv.guarded.append
        intro before entry since split other needs
        have member : entry ∈ [Entry.effect id (.setAuthenticated authSuccess)] := split ▸ by simp
        rw [List.mem_singleton.mp member] at needs
        simp [Entry.needsAuth, Effect.privileged] at needs
      simp only [handled]
      apply inv.record
      · exact latest_append_cons (by simp [Entry.outcome, Effect.outcome]) (quiet_effects quiet id)
      · rw [List.map_cons, List.append_cons]
        apply guarded_effects first quiet
        intro e member privileged
        rw [(harmless e member).2] at privileged
        cases privileged
    · have quiet : ∀ e ∈ effects, e.outcome = none := fun e member => (allowed e member).1
      simp only [handled]
      apply inv.record
      · exact (latest_append_quiet (quiet_effects quiet id)).trans (inv.flag id socket known)
      · apply guarded_effects inv.guarded quiet
        intro e member _
        rw [inv.flag id socket known, (allowed e member).2]

theorem broadcast_invariant {s : Agent} (packet : Plain) (inv : Invariant s) :
    Invariant (broadcast s packet) := by
  have quiet : ∀ (ids : List SocketId) (other : SocketId),
      ∀ entry ∈ ids.map (Entry.frame · packet), entry.outcome other = none := by
    intro ids other entry member
    obtain ⟨id, -, rfl⟩ := List.mem_map.mp member
    rfl
  constructor
  · intro id socket known
    exact (latest_append_quiet (quiet _ id)).trans (inv.flag id socket known)
  · apply inv.guarded.append
    intro before entry since split other needs
    obtain ⟨first, rest, ids, rfl, tail⟩ := List.map_eq_append_iff.mp split
    obtain ⟨id, later, rfl, rfl, rfl⟩ := List.map_eq_cons_iff.mp tail
    have receiver : id ∈ s.clients.filter (receives s) := ids ▸ by simp
    obtain ⟨-, open_and_authenticated⟩ := List.mem_filter.mp receiver
    simp only [receives, Bool.and_eq_true, Option.any_eq_true] at open_and_authenticated
    obtain ⟨-, socket, known, authenticated⟩ := open_and_authenticated
    simp only [Entry.needsAuth, decide_eq_true_eq] at needs
    subst needs
    rw [latestOutcome, latest_append_quiet (quiet _ id)]
    exact authenticated ▸ inv.flag id socket known

theorem step_invariant {s t : Agent} {event : Event}
    (stepped : step oversized qCompress host s event = some t) (inv : Invariant s) :
    Invariant t := by
  cases steps_of_step oversized qCompress host stepped with
  | newConnection pending =>
    exact List.foldlRecOn pending accept inv fun s inv peer _ => accept_invariant peer inv
  | handled id buffer packet left =>
    exact (handleOn_invariant oversized host id packet inv).congr rfl rfl
  | delivered packet queued =>
    have popped : Invariant { s with queued := queued } := inv.congr rfl rfl
    exact broadcast_invariant packet popped
  | unwatched => exact inv
  | readyRead | returned | disconnected | closed | captured => exact inv.congr rfl rfl

theorem run_invariant {events : List Event} {s : Agent}
    (ran : run oversized qCompress host events = some s) : Invariant s :=
  Transitions.run_invariant Invariant invariant_initial
    (step_invariant oversized qCompress host) ran

/-- In every run whatever needs authentication is done for a socket whose latest
outcome is positive: accepted as loopback or by its password, and not rejected
since. So what is queued behind a rejected `AuthRequest` has no such effect
until another is accepted. -/
theorem privileged_only_authenticated (events : List Event) (s : Agent)
    (ran : run oversized qCompress host events = some s) (before since : List Entry)
    (e : Entry) (split : s.log = before ++ e :: since) (id : SocketId)
    (needs : e.needsAuth id = true) :
    ∃ (earlier between : List Entry) (granted : Entry),
      before = earlier ++ granted :: between ∧
      (granted = .accepted id true ∨ granted = .effect id (.setAuthenticated true)) ∧
      .effect id (.setAuthenticated false) ∉ between ∧ .accepted id false ∉ between := by
  have positive :=
    (run_invariant oversized qCompress host ran).guarded before e since split id needs
  obtain ⟨earlier, granted, between, whole, outcome, quiet⟩ :=
    (latest_eq_some_iff before true).mp positive
  refine ⟨earlier, between, granted, whole, ?_, ?_, ?_⟩
  · cases granted with
    | accepted other loopback => simpa [Entry.outcome] using outcome
    | effect other e => cases e <;> simp_all [Entry.outcome, Effect.outcome]
    | frame other packet => simp [Entry.outcome] at outcome
  · intro rejected
    simpa [Entry.outcome, Effect.outcome] using quiet _ rejected
  · intro refused
    simpa [Entry.outcome] using quiet _ refused

theorem privileged_only_authenticated_frame :
    ∃ (s : Agent) (earlier between : List Entry) (granted : Entry),
      run (fun _ => 1) id ⟨true, true, []⟩
          [.newConnection [⟨true, []⟩], .frameCaptured ⟨1, 1, [0, 0, 0, 0], 1, 0⟩,
            .frameDelivered] =
        some s ∧
      s.log = earlier ++ granted :: between ++
        [.frame 0 (framePacket id ⟨1, 1, [0, 0, 0, 0], 1, 0⟩)] ∧
      (granted = .accepted 0 true ∨ granted = .effect 0 (.setAuthenticated true)) := by
  obtain ⟨s, ran, log⟩ : ∃ s, run (fun _ => 1) id ⟨true, true, []⟩
      [.newConnection [⟨true, []⟩], .frameCaptured ⟨1, 1, [0, 0, 0, 0], 1, 0⟩, .frameDelivered] =
        some s ∧ s.log = [.accepted 0 true] ++
          [.frame 0 (framePacket id ⟨1, 1, [0, 0, 0, 0], 1, 0⟩)] := ⟨_, rfl, rfl⟩
  obtain ⟨earlier, between, granted, whole, positive, -, -⟩ :=
    privileged_only_authenticated (fun _ => 1) id ⟨true, true, []⟩ _ s ran _ [] _ log 0 rfl
  exact ⟨s, earlier, between, granted, ran, by rw [log, whole], positive⟩

/-! ### A second password in the same read -/

def wrongPassword : Plain := ⟨.authRequest, 1, 0, [0x77, 0x72, 0x6F, 0x6E, 0x67]⟩
def rightPassword : Plain := ⟨.authRequest, 2, 0, [0x61, 0x64, 0x6D, 0x69, 0x6E, 0x31, 0x32, 0x33]⟩
def pointerMove : Plain := ⟨.inputEvent, 3, 0, List.replicate 24 0⟩

theorem step_pass_sealed {s : Agent} {id : SocketId} {m : Plain} {rest : List UInt8}
    {socket socket' : ClientSocket} {effects : List Effect}
    (reading : s.reading = some (id, (m.message oversized).bytes ++ rest))
    (known : s.sockets id = some socket)
    (fits : headerSize + (m.plaintext.length + CryptoEngine.tagSize) < 2 ^ 32)
    (handled : handleClientPacket oversized host socket (m.message oversized).packet =
      (socket', effects)) :
    ∃ t, step oversized qCompress host s .pass = some t ∧ t.reading = some (id, rest) ∧
      t.sockets id = some socket' ∧ t.log = s.log ++ effects.map (Entry.effect id) := by
  have room : headerSize + (m.message oversized).payload.length < 2 ^ 32 := by
    rwa [Plain.message, length_sealPayload]
  simp only [step, reading, readyReadStep_bytes _ s room, handleOn, known, handled]
  exact ⟨_, rfl, rfl, Function.update_self .., rfl⟩

theorem step_readyRead {s : Agent} {id : SocketId} {socket : ClientSocket}
    (idle : s.reading = none) (known : s.sockets id = some socket) (data : List UInt8) :
    ∃ t, step oversized qCompress host s (.readyRead id data) = some t ∧
      t.reading = some (id, data) ∧ t.sockets id = some socket ∧ t.log = s.log := by
  have ready : ¬ (s.reading.isSome = true ∨ (s.sockets id).isNone = true) := by
    simp [idle, known]
  exact ⟨_, if_neg ready, rfl, known, rfl⟩

theorem step_pass_empty {s : Agent} {id : SocketId} (reading : s.reading = some (id, [])) :
    step oversized qCompress host s .pass = some { s with reading := none } := by
  simp [step, reading, readyReadStep]

/-- Behind a rejected `AuthRequest` a second one is accepted and an input event
injected, all in one read. -/
theorem accepted_behind_rejected :
    ∃ s : Agent, run (fun _ => 1) id ⟨true, true, literal ['1', '2', '3', '4', '5', '6']⟩
      [.newConnection [⟨false, literal ['1', '0', '.', '0', '.', '0', '.', '2']⟩],
       .readyRead 0 ((wrongPassword.message fun _ => 1).bytes ++
          ((rightPassword.message fun _ => 1).bytes ++
            ((pointerMove.message fun _ => 1).bytes ++ []))),
       .pass, .pass, .pass, .pass] = some s ∧
      s.log = [.accepted 0 false,
        .effect 0 (.setAuthenticated false), .effect 0 (.write (authResponse 1 false)),
        .effect 0 .disconnectFromHost,
        .effect 0 (.setAuthenticated true), .effect 0 (.write (authResponse 2 true)),
        .effect 0 (.injectEvent (eventOf pointerMove.plaintext))] := by
  set host : Host := ⟨true, true, literal ['1', '2', '3', '4', '5', '6']⟩
  have wrong : passwordAccepted host.dynamicOtp wrongPassword.plaintext = false := by decide
  have right : passwordAccepted host.dynamicOtp rightPassword.plaintext = true := by decide
  have rejects : handleClientPacket (fun _ => 1) host ⟨false, false⟩
      (wrongPassword.message fun _ => 1).packet = (⟨false, false⟩,
        [.setAuthenticated false, .write (authResponse 1 false), .disconnectFromHost]) := by
    rw [handleClientPacket_message _ (by decide), wrong]
    rfl
  have accepts : handleClientPacket (fun _ => 1) host ⟨false, false⟩
      (rightPassword.message fun _ => 1).packet = (⟨true, false⟩,
        [.setAuthenticated true, .write (authResponse 2 true)]) := by
    rw [handleClientPacket_message _ (by decide), right]
    rfl
  have injects : handleClientPacket (fun _ => 1) host ⟨true, false⟩
      (pointerMove.message fun _ => 1).packet = (⟨true, false⟩,
        [.injectEvent (eventOf pointerMove.plaintext)]) := by
    rw [handleClientPacket_message _ (by decide)]
    rfl
  obtain ⟨s, connected, idle, known, log⟩ : ∃ s, step (fun _ => 1) id host initial
      (.newConnection [⟨false, literal ['1', '0', '.', '0', '.', '0', '.', '2']⟩]) = some s ∧
        s.reading = none ∧ s.sockets 0 = some ⟨false, false⟩ ∧ s.log = [.accepted 0 false] :=
    ⟨_, rfl, rfl, rfl, rfl⟩
  obtain ⟨s₁, arrived, reading₁, known₁, log₁⟩ := step_readyRead (fun _ => 1) id host idle known
    ((wrongPassword.message fun _ => 1).bytes ++
      ((rightPassword.message fun _ => 1).bytes ++ ((pointerMove.message fun _ => 1).bytes ++ [])))
  obtain ⟨s₂, first, reading₂, known₂, log₂⟩ :=
    step_pass_sealed (fun _ => 1) id host reading₁ known₁ (by decide) rejects
  obtain ⟨s₃, second, reading₃, known₃, log₃⟩ :=
    step_pass_sealed (fun _ => 1) id host reading₂ known₂ (by decide) accepts
  obtain ⟨s₄, third, reading₄, known₄, log₄⟩ :=
    step_pass_sealed (fun _ => 1) id host reading₃ known₃ (by decide) injects
  have last := step_pass_empty (fun _ => 1) id host reading₄
  refine ⟨{ s₄ with reading := none }, ?_, ?_⟩
  · simp only [run, Transitions.run, List.foldlM_cons, List.foldlM_nil, connected, arrived, first,
      second, third, last, Option.bind_eq_bind, Option.bind_some, Option.pure_def]
  · simp only [log₄, log₃, log₂, log₁, log]
    rfl

end RemoteAccess.AgentServer
