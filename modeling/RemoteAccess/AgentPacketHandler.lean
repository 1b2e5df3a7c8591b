import RemoteAccess.QtText
import RemoteAccess.SealedMessage

/-! `handleClientPacket`: one branch for each packet type the agent acts on. The
handler reads and sets properties of the socket; everything else it does is
listed as an `Effect`, in order. -/

namespace RemoteAccess.AgentPacketHandler

open LittleEndian CryptoEngine ProtocolCodec SealedMessage QtText

/-- An `enum class` over `uint16_t`, read off the wire without a check. -/
structure InputEventType where
  code : UInt16
deriving DecidableEq, Repr

namespace InputEventType

def unknown : InputEventType := ⟨0⟩
def mouseMove : InputEventType := ⟨1⟩
def mouseDown : InputEventType := ⟨2⟩
def mouseUp : InputEventType := ⟨3⟩
def mouseWheel : InputEventType := ⟨4⟩
def keyDown : InputEventType := ⟨5⟩
def keyUp : InputEventType := ⟨6⟩

end InputEventType

structure InputEvent where
  type : InputEventType
  x : Int32
  y : Int32
  button : UInt32
  delta : Int32
  keycode : UInt32
  modifiers : UInt32 := 0
deriving DecidableEq

/-- The properties set on a client socket. -/
structure ClientSocket where
  authenticated : Bool
  isLoopback : Bool
deriving DecidableEq, Repr

/-- What the handler finds on its host: whether `inputBackend` and the clipboard
are there, and the one-time password. -/
structure Host where
  hasInputBackend : Bool
  hasClipboard : Bool
  dynamicOtp : QString

inductive Effect
  | setAuthenticated (authSuccess : Bool)
  /-- A packet sealed, encoded, written and flushed. -/
  | write (packet : Plain)
  | disconnectFromHost
  | injectEvent (event : InputEvent)
  | setClipboardText (text : QString)
  | executeAction (actionId : UInt32)
  | system (command : String)
deriving DecidableEq

variable (oversized : Nat → UInt64)

/-- The sequence number of the packet is the nonce. -/
def openPacket (packet : Packet) : Option (List UInt8) :=
  decryptPayload oversized packet.payload sessionKey (nonceOf packet.header.sequenceNumber)

def masterPassword : QString := literal ['a', 'd', 'm', 'i', 'n', '1', '2', '3']

/-- `authSuccess` for the plaintext of an `AuthRequest`. -/
def passwordAccepted (dynamicOtp : QString) (decrypted : List UInt8) : Bool :=
  let reqPassword := removeSpaces (trimmed (fromUtf8 decrypted (intOfSize decrypted.length)))
  let cleanOtp := removeSpaces dynamicOtp
  reqPassword == cleanOtp || reqPassword == masterPassword || reqPassword.isEmpty

def authResponse (seq : UInt64) (authSuccess : Bool) : Plain where
  type := .authResponse
  seq := seq
  timestampMs := 0
  plaintext := [if authSuccess then 0 else 1]

def handleAuthRequest (host : Host) (socket : ClientSocket) (packet : Packet) :
    ClientSocket × List Effect :=
  match openPacket oversized packet with
  | none => (socket, [])
  | some decrypted =>
    if decrypted.isEmpty then (socket, []) else
    let authSuccess := passwordAccepted host.dynamicOtp decrypted
    ({ socket with authenticated := authSuccess },
      .setAuthenticated authSuccess ::
        .write (authResponse packet.header.sequenceNumber authSuccess) ::
          if authSuccess then [] else [.disconnectFromHost])

/-- The six fields copied out of the plaintext; the two bytes after the type and
the modifiers are not on the wire. -/
def eventOf (decrypted : List UInt8) : InputEvent where
  type := ⟨UInt16.ofNat (word 0 2 decrypted)⟩
  x := (UInt32.ofNat (word 4 4 decrypted)).toInt32
  y := (UInt32.ofNat (word 8 4 decrypted)).toInt32
  button := UInt32.ofNat (word 12 4 decrypted)
  delta := (UInt32.ofNat (word 16 4 decrypted)).toInt32
  keycode := UInt32.ofNat (word 20 4 decrypted)

def handleInputEvent (host : Host) (socket : ClientSocket) (decrypted : List UInt8) :
    List Effect :=
  if 24 ≤ decrypted.length then
    if host.hasInputBackend then
      if socket.isLoopback then [] else [.injectEvent (eventOf decrypted)]
    else []
  else []

def handleClipboardData (host : Host) (decrypted : List UInt8) : List Effect :=
  if decrypted.isEmpty then [] else
  let text := fromUtf8 decrypted (intOfSize decrypted.length)
  if host.hasClipboard then [.setClipboardText text] else []

/-- Action 2 locks the workstation; the others are logged only. -/
def handleSessionControl (decrypted : List UInt8) : List Effect :=
  if 4 ≤ decrypted.length then
    let actionId := UInt32.ofNat (word 0 4 decrypted)
    .executeAction actionId ::
      if actionId = 2 then
        [.system "loginctl lock-session 2>/dev/null || xdg-screensaver lock 2>/dev/null &"]
      else []
  else []

/-- The three branches behind the `authenticated` check open the payload the
same way and differ in `act`. -/
def whenAuthenticated (socket : ClientSocket) (packet : Packet)
    (act : List UInt8 → List Effect) : List Effect :=
  if socket.authenticated then
    match openPacket oversized packet with
    | none => []
    | some decrypted => act decrypted
  else []

def handleClientPacket (host : Host) (socket : ClientSocket) (packet : Packet) :
    ClientSocket × List Effect :=
  if packet.header.type = .authRequest ∧ packet.payload ≠ [] then
    handleAuthRequest oversized host socket packet
  else if packet.header.type = .inputEvent ∧ packet.payload ≠ [] then
    (socket, whenAuthenticated oversized socket packet (handleInputEvent host socket))
  else if packet.header.type = .clipboardData ∧ packet.payload ≠ [] then
    (socket, whenAuthenticated oversized socket packet (handleClipboardData host))
  else if packet.header.type = .sessionControl ∧ packet.payload ≠ [] then
    (socket, whenAuthenticated oversized socket packet handleSessionControl)
  else (socket, [])

def collect (host : Host) (agent : ClientSocket × List Effect) (packet : Packet) :
    ClientSocket × List Effect :=
  let (socket, effects) := handleClientPacket oversized host agent.1 packet
  (socket, agent.2 ++ effects)

/-! ### What a packet can do -/

def Effect.privileged : Effect → Bool
  | .injectEvent _ | .setClipboardText _ | .executeAction _ | .system _ => true
  | .setAuthenticated _ | .write _ | .disconnectFromHost => false

def Effect.outcome : Effect → Option Bool
  | .setAuthenticated authSuccess => some authSuccess
  | _ => none

def Effect.sealed : Effect → Option Plain
  | .write packet => some packet
  | _ => none

theorem toInt_toInt32_of_lt {n : UInt32} (small : n.toNat < 2 ^ 31) :
    n.toInt32.toInt = n.toNat :=
  BitVec.toInt_eq_toNat_of_lt (by change 2 * n.toNat < 2 ^ 32; omega)

theorem handleInputEvent_outcome (host : Host) (socket : ClientSocket) (decrypted : List UInt8) :
    ∀ e ∈ handleInputEvent host socket decrypted, e.outcome = none := by
  unfold handleInputEvent
  split_ifs <;> simp [Effect.outcome]

theorem handleClipboardData_outcome (host : Host) (decrypted : List UInt8) :
    ∀ e ∈ handleClipboardData host decrypted, e.outcome = none := by
  unfold handleClipboardData
  split_ifs <;> simp [Effect.outcome]

theorem handleSessionControl_outcome (decrypted : List UInt8) :
    ∀ e ∈ handleSessionControl decrypted, e.outcome = none := by
  unfold handleSessionControl
  dsimp only
  split_ifs <;> simp [Effect.outcome]

theorem whenAuthenticated_spec (socket : ClientSocket) (packet : Packet)
    {act : List UInt8 → List Effect}
    (noOutcome : ∀ decrypted, ∀ e ∈ act decrypted, e.outcome = none) :
    ∀ e ∈ whenAuthenticated oversized socket packet act,
      e.outcome = none ∧ socket.authenticated = true := by
  intro e mem
  unfold whenAuthenticated at mem
  split at mem
  · next authenticated =>
    split at mem
    · simp at mem
    · next decrypted _ => exact ⟨noOutcome decrypted e mem, authenticated⟩
  · simp at mem

/-- A packet either brings an authentication outcome, with nothing privileged,
or leaves the socket as it was and acts on the host only if it is authenticated. -/
theorem handleClientPacket_spec (host : Host) (socket : ClientSocket) (packet : Packet) :
    (∃ authSuccess rest, handleClientPacket oversized host socket packet =
        ({ socket with authenticated := authSuccess }, .setAuthenticated authSuccess :: rest) ∧
      ∀ e ∈ rest, e.outcome = none ∧ e.privileged = false) ∨
    ∃ effects, handleClientPacket oversized host socket packet = (socket, effects) ∧
      ∀ e ∈ effects, e.outcome = none ∧ socket.authenticated = true := by
  have nothing : ∃ effects : List Effect, (socket, []) = (socket, effects) ∧
      ∀ e ∈ effects, e.outcome = none ∧ socket.authenticated = true := ⟨[], rfl, by simp⟩
  unfold handleClientPacket
  split_ifs
  · unfold handleAuthRequest
    split
    · exact .inr nothing
    · next decrypted _ =>
      by_cases empty : decrypted.isEmpty
      · rw [if_pos empty]
        exact .inr nothing
      · rw [if_neg empty]
        refine .inl ⟨_, _, rfl, ?_⟩
        split_ifs <;> simp [Effect.outcome, Effect.privileged]
  · exact .inr ⟨_, rfl, whenAuthenticated_spec oversized socket packet
      (handleInputEvent_outcome host socket)⟩
  · exact .inr ⟨_, rfl, whenAuthenticated_spec oversized socket packet
      (handleClipboardData_outcome host)⟩
  · exact .inr ⟨_, rfl, whenAuthenticated_spec oversized socket packet
      handleSessionControl_outcome⟩
  · exact .inr nothing

theorem handleClientPacket_isLoopback (host : Host) (socket : ClientSocket) (packet : Packet) :
    (handleClientPacket oversized host socket packet).1.isLoopback = socket.isLoopback := by
  obtain ⟨authSuccess, rest, handled, -⟩ | ⟨effects, handled, -⟩ :=
    handleClientPacket_spec oversized host socket packet
  · rw [handled]
  · rw [handled]

/-! ### Sealed packets -/

section Sealed

variable {m : Plain} (fits : m.plaintext.length + tagSize < 2 ^ 32)
include fits

theorem openPacket_message :
    openPacket oversized (m.message oversized).packet = some m.plaintext := by
  rw [packet_message oversized m fits, openPacket]
  exact open_sealPayload oversized m.seq m.plaintext

theorem payload_ne_nil : (m.message oversized).packet.payload ≠ [] := by
  have length := length_sealPayload oversized m.seq m.plaintext
  rw [packet_message oversized m fits, ProtocolCodec.packet]
  intro empty
  simp only at empty
  rw [empty, List.length_nil, tagSize] at length
  omega

theorem handleClientPacket_message (host : Host) (socket : ClientSocket) :
    handleClientPacket oversized host socket (m.message oversized).packet =
      if m.type = .authRequest then
        if m.plaintext.isEmpty then (socket, [])
        else
          ({ socket with authenticated := passwordAccepted host.dynamicOtp m.plaintext },
            .setAuthenticated (passwordAccepted host.dynamicOtp m.plaintext) ::
              .write (authResponse m.seq (passwordAccepted host.dynamicOtp m.plaintext)) ::
                if passwordAccepted host.dynamicOtp m.plaintext then [] else [.disconnectFromHost])
      else if ¬ socket.authenticated then (socket, [])
      else if m.type = .inputEvent then (socket, handleInputEvent host socket m.plaintext)
      else if m.type = .clipboardData then (socket, handleClipboardData host m.plaintext)
      else if m.type = .sessionControl then (socket, handleSessionControl m.plaintext)
      else (socket, []) := by
  have opened := openPacket_message oversized fits
  have nonempty := payload_ne_nil oversized fits
  have type : (m.message oversized).packet.header.type = m.type := by
    rw [packet_message oversized m fits]
    rfl
  have seq : (m.message oversized).packet.header.sequenceNumber = m.seq := by
    rw [packet_message oversized m fits]
    rfl
  simp only [handleClientPacket, handleAuthRequest, whenAuthenticated, opened, nonempty, type, seq,
    ne_eq, not_false_eq_true, and_true]
  cases authenticated : socket.authenticated with
  | true => simp only [if_true, not_true_eq_false, if_false]
  | false => simp only [Bool.false_eq_true, if_false, not_false_eq_true, if_true, ite_self]

theorem sealed_message (host : Host) (socket : ClientSocket) :
    (handleClientPacket oversized host socket (m.message oversized).packet).2.filterMap
        Effect.sealed =
      if m.type = .authRequest ∧ m.plaintext ≠ [] then
        [authResponse m.seq (passwordAccepted host.dynamicOtp m.plaintext)]
      else [] := by
  have input : (handleInputEvent host socket m.plaintext).filterMap Effect.sealed = [] := by
    unfold handleInputEvent
    split_ifs <;> rfl
  have clipboard : (handleClipboardData host m.plaintext).filterMap Effect.sealed = [] := by
    unfold handleClipboardData
    split_ifs <;> rfl
  have control : (handleSessionControl m.plaintext).filterMap Effect.sealed = [] := by
    unfold handleSessionControl
    dsimp only
    split_ifs <;> rfl
  rw [handleClientPacket_message oversized fits]
  by_cases auth : m.type = .authRequest
  · rw [if_pos auth]
    by_cases empty : m.plaintext = []
    · simp [empty]
    · have nonempty : ¬ m.plaintext.isEmpty = true := by simpa using empty
      have answered : m.type = .authRequest ∧ m.plaintext ≠ [] := ⟨auth, empty⟩
      rw [if_neg nonempty, if_pos answered]
      cases passwordAccepted host.dynamicOtp m.plaintext <;> rfl
  · have unanswered : ¬ (m.type = .authRequest ∧ m.plaintext ≠ []) := fun both => auth both.1
    rw [if_neg auth, if_neg unanswered]
    split_ifs
    · exact input
    · exact clipboard
    · exact control
    · rfl
    · rfl

end Sealed

end RemoteAccess.AgentPacketHandler
