import RemoteAccess.Basics.Transitions
import RemoteAccess.SessionSend

/-! The client's connection: user calls, the reconnect timer, and the callbacks of a
`QTcpSocket`, whose states are modelled as far as they decide which signals it emits.
A failed attempt emits `errorOccurred` only; a connection that is lost emits
`errorOccurred` and then `disconnected`. -/

namespace RemoteAccess.SessionConnection

open QtText SealedMessage

/-- `connecting` stands for the host lookup as well. The flag is the socket's pending
close: it was told to disconnect before it was connected. -/
inductive SocketState
  | unconnected
  | connecting (pendingClose : Bool)
  | connected
  | closing
deriving DecidableEq

inductive Status
  | connecting (target : QString)
  | connected (target : QString)
  | connectionLost (delayMs attempt : Nat)
  | disconnected
  | socketError (errorString : QString)
  | reconnecting (target : QString) (attempt : Nat)
  | canceled
  | authenticationFailed
deriving DecidableEq

structure HistoryRecord where
  target : QString
  timestamp : QString
  duration : QString
  status : QString
  reason : QString
deriving DecidableEq

inductive Effect
  | attempt (host : QString) (port : UInt16)
  | write (packet : Plain)
deriving DecidableEq

/-- The members these functions use; an armed timer has its delay. -/
structure Client where
  socket : SocketState
  receiveBuffer : List UInt8
  isConnected : Bool
  statusText : Status
  lastConnectedTarget : QString
  requestedPassword : QString
  receivedFrames : UInt64
  inputSequence : UInt64
  lastClipboardText : QString
  reconnectTimer : Option Nat
  isReconnecting : Bool
  reconnectAttempts : Nat
  userInitiatedDisconnect : Bool
  lastHost : QString
  lastPort : UInt16
  connectionHistory : List HistoryRecord
  sessionStartTimeMs : Int
  effects : List Effect

def Client.setSocket (c : Client) (socket : SocketState) : Client := { c with socket := socket }

def Client.setTarget (c : Client) (target : QString) : Client :=
  { c with lastConnectedTarget := target }

/-- How both `disconnectFromHost` and `cancelReconnect` begin. -/
def Client.stopReconnecting (c : Client) : Client :=
  { c with
    userInitiatedDisconnect := true
    reconnectTimer := none
    isReconnecting := false }

def maxReconnectAttempts : Nat := 5

def start (history : List HistoryRecord) : Client where
  socket := .unconnected
  receiveBuffer := []
  isConnected := false
  statusText := .disconnected
  lastConnectedTarget := []
  requestedPassword := []
  receivedFrames := 0
  inputSequence := 0
  lastClipboardText := []
  reconnectTimer := none
  isReconnecting := false
  reconnectAttempts := 0
  userInitiatedDisconnect := false
  lastHost := []
  lastPort := 18443
  connectionHistory := history
  sessionStartTimeMs := 0
  effects := []

/-- What a function finds outside: the clock, the socket's error text, and whether data
is still to be written when the socket is told to disconnect. -/
structure Outside where
  nowMs : Int
  timestamp : QString
  errorString : QString
  dataPending : Bool

def number (n : Int) : QString := literal (toString n).toList

/-- `host + ":" + QString::number(port)`. -/
def directLabel (host : QString) (port : UInt16) : QString :=
  host ++ literal [':'] ++ number port.toNat

def deskLabel (p2pIdInput : QString) : QString :=
  literal ['D', 'e', 's', 'k', ' ', 'I', 'D', ':', ' '] ++ p2pIdInput

theorem deskLabel_ne_nil (p2pIdInput : QString) : deskLabel p2pIdInput ≠ [] := by
  simp [deskLabel, literal]

/-! ### Callbacks -/

def Client.sender (c : Client) : SessionSend.Sender where
  connected := c.socket = .connected
  requestedPassword := c.requestedPassword
  inputSequence := c.inputSequence
  lastClipboardText := c.lastClipboardText

/-- What the status text calls the other side. -/
def Client.shownTarget (c : Client) : QString :=
  if c.lastConnectedTarget = [] then
    literal ['R', 'e', 'm', 'o', 't', 'e', ' ', 'D', 'e', 's', 'k']
  else c.lastConnectedTarget

def onConnected (out : Outside) (c : Client) : Client :=
  let (sender, packets) := SessionSend.onConnected c.sender
  { c with
    isConnected := true
    receiveBuffer := []
    receivedFrames := 0
    inputSequence := sender.inputSequence
    reconnectAttempts := 0
    sessionStartTimeMs := out.nowMs
    isReconnecting := false
    effects := c.effects ++ packets.map .write
    statusText := .connected c.shownTarget }

def durationText (durationSec : Int) : QString :=
  if durationSec ≥ 60 then
    number (durationSec.tdiv 60) ++ literal [' ', 'm', 'i', 'n', 's']
  else number durationSec ++ literal [' ', 's', 'e', 'c', 's']

/-- The newest record is the first. -/
def addHistoryRecord (out : Outside) (target status : QString) (durationSec : Int)
    (disconnectReason : QString) (history : List HistoryRecord) : List HistoryRecord :=
  ({ target := target, timestamp := out.timestamp, duration := durationText durationSec,
     status := status, reason := disconnectReason } :: history).take 50

def Client.durationSec (c : Client) (out : Outside) : Int :=
  if c.sessionStartTimeMs > 0 then max 0 ((out.nowMs - c.sessionStartTimeMs).tdiv 1000) else 0

def disconnectedText : QString :=
  literal ['D', 'i', 's', 'c', 'o', 'n', 'n', 'e', 'c', 't', 'e', 'd']

def Client.reason (c : Client) : QString :=
  if c.userInitiatedDisconnect then
    literal ['U', 's', 'e', 'r', ' ', 'I', 'n', 'i', 't', 'i', 'a', 't', 'e', 'd']
  else literal ['N', 'e', 't', 'w', 'o', 'r', 'k', ' ', 'D', 'i', 's', 'c', 'o', 'n', 'n', 'e',
    'c', 't']

/-- `1000 * (1 << (reconnectAttempts_ - 1))`, at most 30000. -/
def delayMs (reconnectAttempts : Nat) : Nat := min 30000 (1000 * (1 <<< (reconnectAttempts - 1)))

/-- The condition in `onDisconnected` under which a retry is scheduled. -/
def Client.Retries (c : Client) : Prop :=
  c.userInitiatedDisconnect = false ∧ c.lastHost ≠ [] ∧
    c.reconnectAttempts < maxReconnectAttempts

instance (c : Client) : Decidable c.Retries := by unfold Client.Retries; infer_instance

/-- The first half of `onDisconnected`. -/
def endSession (out : Outside) (c : Client) : Client :=
  { c with
    isConnected := false
    receiveBuffer := []
    sessionStartTimeMs := if c.sessionStartTimeMs > 0 then 0 else c.sessionStartTimeMs
    connectionHistory :=
      if c.isConnected ∧ c.lastConnectedTarget ≠ [] then
        addHistoryRecord out c.lastConnectedTarget disconnectedText (c.durationSec out) c.reason
          c.connectionHistory
      else c.connectionHistory }

def scheduleReconnect (c : Client) : Client :=
  let attempts := c.reconnectAttempts + 1
  { c with
    reconnectAttempts := attempts
    isReconnecting := true
    statusText := .connectionLost (delayMs attempts) attempts
    reconnectTimer := some (delayMs attempts) }

def stayDisconnected (c : Client) : Client :=
  { c with
    isReconnecting := false
    lastConnectedTarget := []
    statusText := .disconnected }

def onDisconnected (out : Outside) (c : Client) : Client :=
  if c.Retries then scheduleReconnect (endSession out c) else stayDisconnected (endSession out c)

def onErrorOccurred (errorString : QString) (c : Client) : Client :=
  { c with
    isConnected := false
    receiveBuffer := []
    statusText := if c.isReconnecting then c.statusText else .socketError errorString }

/-! ### The socket -/

/-- A socket that is not unconnected reports an `OperationError`. -/
def socketConnectToHost (out : Outside) (host : QString) (port : UInt16) (c : Client) : Client :=
  if c.socket = .unconnected then
    { c with socket := .connecting false, effects := c.effects ++ [.attempt host port] }
  else onErrorOccurred out.errorString c

/-- Aborting an attempt emits no signal. -/
def socketAbort (out : Outside) (c : Client) : Client :=
  match c.socket with
  | .unconnected => c
  | .connecting _ => c.setSocket .unconnected
  | .connected | .closing => onDisconnected out (c.setSocket .unconnected)

def socketDisconnectFromHost (out : Outside) (c : Client) : Client :=
  match c.socket with
  | .unconnected => c
  | .connecting _ => c.setSocket (.connecting true)
  | .connected | .closing =>
    if out.dataPending then c.setSocket .closing
    else onDisconnected out (c.setSocket .unconnected)

/-! ### User calls and the timer -/

def connectToHost (out : Outside) (host : QString) (port : UInt16) (password : QString)
    (c : Client) : Client :=
  let c := if c.socket ≠ .unconnected then socketAbort out c else c
  let c := { c with
    requestedPassword := password
    lastHost := host
    lastPort := port
    userInitiatedDisconnect := false }
  let c :=
    if c.lastConnectedTarget = [] then { c with lastConnectedTarget := directLabel host port }
    else c
  socketConnectToHost out host port { c with statusText := .connecting c.lastConnectedTarget }

def localHost : QString := literal ['1', '2', '7', '.', '0', '.', '0', '.', '1']

/-- The id without its spaces is only logged. -/
def connectByP2PId (out : Outside) (p2pIdInput password : QString) (c : Client) : Client :=
  connectToHost out localHost 18443 password (c.setTarget (deskLabel p2pIdInput))

/-- A socket that is not open is unconnected. -/
def disconnectFromHost (out : Outside) (c : Client) : Client :=
  socketDisconnectFromHost out c.stopReconnecting

def attemptReconnect (out : Outside) (c : Client) : Client :=
  if c.userInitiatedDisconnect ∨ c.lastHost = [] then c
  else socketConnectToHost out c.lastHost c.lastPort { c with
    statusText := .reconnecting c.lastConnectedTarget c.reconnectAttempts }

def cancelReconnect (c : Client) : Client :=
  { c.stopReconnecting with
    reconnectAttempts := 0
    lastConnectedTarget := []
    statusText := .canceled }

/-! ### What each does to the state of the connection -/

section Fields

variable (c : Client) (socket : SocketState)

@[simp] theorem setSocket_socket : (c.setSocket socket).socket = socket := rfl

@[simp] theorem setSocket_lastConnectedTarget :
    (c.setSocket socket).lastConnectedTarget = c.lastConnectedTarget := rfl

@[simp] theorem setSocket_reconnectTimer :
    (c.setSocket socket).reconnectTimer = c.reconnectTimer := rfl

@[simp] theorem setSocket_isReconnecting :
    (c.setSocket socket).isReconnecting = c.isReconnecting := rfl

@[simp] theorem setSocket_userInitiatedDisconnect :
    (c.setSocket socket).userInitiatedDisconnect = c.userInitiatedDisconnect := rfl

@[simp] theorem setSocket_lastHost : (c.setSocket socket).lastHost = c.lastHost := rfl

@[simp] theorem setSocket_lastClipboardText :
    (c.setSocket socket).lastClipboardText = c.lastClipboardText := rfl

@[simp] theorem setSocket_effects : (c.setSocket socket).effects = c.effects := rfl

@[simp] theorem setSocket_retries : (c.setSocket socket).Retries ↔ c.Retries := Iff.rfl

@[simp] theorem stopReconnecting_userInitiatedDisconnect :
    c.stopReconnecting.userInitiatedDisconnect = true := rfl

end Fields

/-- A connection is up, or going down. -/
def Client.Established (c : Client) : Prop := c.socket = .connected ∨ c.socket = .closing

instance (c : Client) : Decidable c.Established := by unfold Client.Established; infer_instance

def Client.Connecting (c : Client) : Prop := ∃ pendingClose, c.socket = .connecting pendingClose

theorem socket_cases (c : Client) : c.socket = .unconnected ∨ c.Connecting ∨ c.Established := by
  unfold Client.Connecting Client.Established
  cases c.socket <;> simp

section Callbacks

variable (out : Outside) (c : Client)

@[simp] theorem onDisconnected_isConnected : (onDisconnected out c).isConnected = false := by
  unfold onDisconnected
  split <;> rfl

@[simp] theorem onDisconnected_socket : (onDisconnected out c).socket = c.socket := by
  unfold onDisconnected
  split <;> rfl

@[simp] theorem onDisconnected_userInitiatedDisconnect :
    (onDisconnected out c).userInitiatedDisconnect = c.userInitiatedDisconnect := by
  unfold onDisconnected
  split <;> rfl

@[simp] theorem onDisconnected_lastHost : (onDisconnected out c).lastHost = c.lastHost := by
  unfold onDisconnected
  split <;> rfl

@[simp] theorem onDisconnected_effects : (onDisconnected out c).effects = c.effects := by
  unfold onDisconnected
  split <;> rfl

@[simp] theorem onDisconnected_lastClipboardText :
    (onDisconnected out c).lastClipboardText = c.lastClipboardText := by
  unfold onDisconnected
  split <;> rfl

@[simp] theorem onDisconnected_isReconnecting :
    (onDisconnected out c).isReconnecting = decide c.Retries := by
  unfold onDisconnected
  split
  · next retries => exact (decide_eq_true retries).symm
  · next stays => exact (decide_eq_false stays).symm

@[simp] theorem onDisconnected_reconnectTimer :
    (onDisconnected out c).reconnectTimer =
      if c.Retries then some (delayMs (c.reconnectAttempts + 1)) else c.reconnectTimer := by
  unfold onDisconnected
  split <;> rfl

@[simp] theorem onDisconnected_lastConnectedTarget :
    (onDisconnected out c).lastConnectedTarget =
      if c.Retries then c.lastConnectedTarget else [] := by
  unfold onDisconnected
  split <;> rfl

@[simp] theorem onDisconnected_connectionHistory :
    (onDisconnected out c).connectionHistory =
      if c.isConnected ∧ c.lastConnectedTarget ≠ [] then
        addHistoryRecord out c.lastConnectedTarget disconnectedText (c.durationSec out) c.reason
          c.connectionHistory
      else c.connectionHistory := by
  unfold onDisconnected
  split <;> rfl

variable {out c}

theorem socketAbort_established (up : c.Established) :
    socketAbort out c = onDisconnected out (c.setSocket .unconnected) := by
  unfold socketAbort
  obtain here | here := up <;> rw [here]

theorem socketAbort_down (down : ¬ c.Established) :
    socketAbort out c = c.setSocket .unconnected := by
  unfold socketAbort
  split
  · next here =>
    rw [← here]
    rfl
  · rfl
  · next here => exact absurd (.inl here) down
  · next here => exact absurd (.inr here) down

@[simp] theorem socketAbort_socket : (socketAbort out c).socket = .unconnected := by
  by_cases up : c.Established
  · rw [socketAbort_established up, onDisconnected_socket, setSocket_socket]
  · rw [socketAbort_down up, setSocket_socket]

theorem connectToHost_eq (host : QString) (port : UInt16) (password : QString) :
    connectToHost out host port password c =
      let dropped := socketAbort out c
      let label := if dropped.lastConnectedTarget = [] then directLabel host port
        else dropped.lastConnectedTarget
      { dropped with
        socket := .connecting false
        requestedPassword := password
        lastHost := host
        lastPort := port
        userInitiatedDisconnect := false
        lastConnectedTarget := label
        statusText := .connecting label
        effects := dropped.effects ++ [.attempt host port] } := by
  have same : (if c.socket ≠ .unconnected then socketAbort out c else c) = socketAbort out c := by
    by_cases idle : c.socket = .unconnected
    · rw [if_neg (not_not_intro idle), socketAbort, idle]
    · rw [if_pos idle]
  simp only [connectToHost, same, socketConnectToHost]
  split <;> simp

theorem connectToHost_connectionHistory (host : QString) (port : UInt16) (password : QString) :
    (connectToHost out host port password c).connectionHistory =
      (socketAbort out c).connectionHistory := by
  rw [connectToHost_eq]

theorem connectToHost_effects (out : Outside) (host : QString) (port : UInt16) (password : QString)
    (c : Client) :
    (connectToHost out host port password c).effects = c.effects ++ [.attempt host port] := by
  rw [connectToHost_eq]
  by_cases up : c.Established
  · simp [socketAbort_established up]
  · simp [socketAbort_down up]

theorem attemptReconnect_cases (out : Outside) (c : Client) :
    ((c.userInitiatedDisconnect = true ∨ c.lastHost = []) ∧ attemptReconnect out c = c) ∨
    (c.userInitiatedDisconnect = false ∧ c.lastHost ≠ [] ∧
      ((c.socket = .unconnected ∧ attemptReconnect out c = { c with
          socket := .connecting false
          statusText := .reconnecting c.lastConnectedTarget c.reconnectAttempts
          effects := c.effects ++ [.attempt c.lastHost c.lastPort] }) ∨
        (c.socket ≠ .unconnected ∧ attemptReconnect out c = onErrorOccurred out.errorString { c with
          statusText := .reconnecting c.lastConnectedTarget c.reconnectAttempts }))) := by
  unfold attemptReconnect
  split
  · next stays => exact .inl ⟨stays, rfl⟩
  · next goes =>
    obtain ⟨user, host⟩ := not_or.mp goes
    refine .inr ⟨Bool.eq_false_iff.mpr user, host, ?_⟩
    unfold socketConnectToHost
    split
    · next idle => exact .inl ⟨idle, rfl⟩
    · next busy => exact .inr ⟨busy, rfl⟩

theorem socketDisconnectFromHost_established (up : c.Established) (out : Outside) :
    socketDisconnectFromHost out c =
      if out.dataPending then c.setSocket .closing
      else onDisconnected out (c.setSocket .unconnected) := by
  unfold socketDisconnectFromHost
  obtain here | here := up <;> rw [here]

theorem socketDisconnectFromHost_cases (out : Outside) (c : Client) :
    (c.socket = .unconnected ∧ socketDisconnectFromHost out c = c) ∨
    (c.Connecting ∧ socketDisconnectFromHost out c = c.setSocket (.connecting true)) ∨
    (c.Established ∧ (socketDisconnectFromHost out c = c.setSocket .closing ∨
      socketDisconnectFromHost out c = onDisconnected out (c.setSocket .unconnected))) := by
  obtain idle | ⟨pendingClose, here⟩ | up := socket_cases c
  · exact .inl ⟨idle, by rw [socketDisconnectFromHost, idle]⟩
  · exact .inr (.inl ⟨⟨pendingClose, here⟩, by rw [socketDisconnectFromHost, here]⟩)
  · refine .inr (.inr ⟨up, ?_⟩)
    rw [socketDisconnectFromHost_established up]
    split
    · exact .inl rfl
    · exact .inr rfl

@[simp] theorem socketDisconnectFromHost_userInitiatedDisconnect (out : Outside) (c : Client) :
    (socketDisconnectFromHost out c).userInitiatedDisconnect = c.userInitiatedDisconnect := by
  obtain ⟨-, same⟩ | ⟨-, same⟩ | ⟨-, same | same⟩ := socketDisconnectFromHost_cases out c <;>
    rw [same] <;> simp

@[simp] theorem socketDisconnectFromHost_effects (out : Outside) (c : Client) :
    (socketDisconnectFromHost out c).effects = c.effects := by
  obtain ⟨-, same⟩ | ⟨-, same⟩ | ⟨-, same | same⟩ := socketDisconnectFromHost_cases out c <;>
    rw [same] <;> simp

@[simp] theorem socketDisconnectFromHost_lastClipboardText (out : Outside) (c : Client) :
    (socketDisconnectFromHost out c).lastClipboardText = c.lastClipboardText := by
  obtain ⟨-, same⟩ | ⟨-, same⟩ | ⟨-, same | same⟩ := socketDisconnectFromHost_cases out c <;>
    rw [same] <;> simp

@[simp] theorem socketAbort_lastClipboardText :
    (socketAbort out c).lastClipboardText = c.lastClipboardText := by
  by_cases up : c.Established
  · simp [socketAbort_established up]
  · simp [socketAbort_down up]

theorem not_established_of_connecting (connecting : c.Connecting) : ¬ c.Established := by
  obtain ⟨pendingClose, here⟩ := connecting
  simp [Client.Established, here]

theorem not_established_of_connecting_eq {pendingClose : Bool}
    (here : c.socket = .connecting pendingClose) : ¬ c.Established :=
  not_established_of_connecting ⟨pendingClose, here⟩

end Callbacks

/-! ### Runs -/

inductive Action
  | connectToHost (host : QString) (port : UInt16) (password : QString)
  | connectByP2PId (p2pIdInput password : QString)
  | disconnectFromHost
  | cancelReconnect
  /-- The attempt of the socket succeeds. -/
  | connected
  | attemptFailed
  | connectionLost
  /-- What was still to be written is written, and the socket is closed. -/
  | closed
  | timerFired
deriving DecidableEq

/-- The two calls that open a new connection. -/
def Action.IsConnectCall : Action → Prop
  | connectToHost .. | connectByP2PId .. => True
  | _ => False

structure Event where
  action : Action
  out : Outside

def step (c : Client) (e : Event) : Option Client :=
  match e.action with
  | .connectToHost host port password => some (connectToHost e.out host port password c)
  | .connectByP2PId p2pIdInput password => some (connectByP2PId e.out p2pIdInput password c)
  | .disconnectFromHost => some (disconnectFromHost e.out c)
  | .cancelReconnect => some (cancelReconnect c)
  | .connected =>
    match c.socket with
    | .connecting false => some (onConnected e.out (c.setSocket .connected))
    | .connecting true =>
      some (socketDisconnectFromHost e.out (onConnected e.out (c.setSocket .connected)))
    | _ => none
  | .attemptFailed =>
    match c.socket with
    | .connecting _ => some (onErrorOccurred e.out.errorString (c.setSocket .unconnected))
    | _ => none
  | .connectionLost =>
    match c.socket with
    | .connected | .closing =>
      some (onDisconnected e.out (onErrorOccurred e.out.errorString (c.setSocket .unconnected)))
    | _ => none
  | .closed =>
    match c.socket with
    | .closing => some (onDisconnected e.out (c.setSocket .unconnected))
    | _ => none
  | .timerFired =>
    match c.reconnectTimer with
    | some _ => some (attemptReconnect e.out { c with reconnectTimer := none })
    | none => none

def run (c : Client) (events : List Event) : Option Client := Transitions.run step c events

/-! ### When the socket or the timer moves -/

section Moves

variable {c d : Client} {out : Outside}

theorem step_connected (stepped : step c ⟨.connected, out⟩ = some d) :
    c.Connecting ∧ (d = onConnected out (c.setSocket .connected) ∨
      d = socketDisconnectFromHost out (onConnected out (c.setSocket .connected))) := by
  simp only [step] at stepped
  split at stepped
  · next here => exact ⟨⟨_, here⟩, .inl (Option.some.inj stepped).symm⟩
  · next here => exact ⟨⟨_, here⟩, .inr (Option.some.inj stepped).symm⟩
  · cases stepped

theorem step_attemptFailed (stepped : step c ⟨.attemptFailed, out⟩ = some d) :
    c.Connecting ∧ d = onErrorOccurred out.errorString (c.setSocket .unconnected) := by
  simp only [step] at stepped
  split at stepped
  · next here => exact ⟨⟨_, here⟩, (Option.some.inj stepped).symm⟩
  · cases stepped

theorem step_connectionLost (stepped : step c ⟨.connectionLost, out⟩ = some d) :
    c.Established ∧ d =
      onDisconnected out (onErrorOccurred out.errorString (c.setSocket .unconnected)) := by
  simp only [step] at stepped
  split at stepped
  · next here => exact ⟨.inl here, (Option.some.inj stepped).symm⟩
  · next here => exact ⟨.inr here, (Option.some.inj stepped).symm⟩
  · cases stepped

theorem step_closed (stepped : step c ⟨.closed, out⟩ = some d) :
    c.Established ∧ d = onDisconnected out (c.setSocket .unconnected) := by
  simp only [step] at stepped
  split at stepped
  · next here => exact ⟨.inr here, (Option.some.inj stepped).symm⟩
  · cases stepped

theorem step_timerFired (stepped : step c ⟨.timerFired, out⟩ = some d) :
    c.reconnectTimer ≠ none ∧ d = attemptReconnect out { c with reconnectTimer := none } := by
  simp only [step] at stepped
  split at stepped
  · next armed => exact ⟨by simp [armed], (Option.some.inj stepped).symm⟩
  · cases stepped

end Moves

def calm : Outside := ⟨1, [], [], false⟩

def localSession : List Event := [⟨.connectToHost localHost 18443 [], calm⟩, ⟨.connected, calm⟩]

def localRetry : List Event :=
  localSession ++ [⟨.connectionLost, calm⟩, ⟨.timerFired, calm⟩]

end RemoteAccess.SessionConnection
