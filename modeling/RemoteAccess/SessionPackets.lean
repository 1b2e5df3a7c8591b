import RemoteAccess.AgentPacketHandler
import RemoteAccess.SessionReceive
import RemoteAccess.SessionSend

/-! The packet branches of `SessionClient::onReadyRead`. Each opens the payload
as the agent does and changes the session; what the rest of the client gets to
see is listed as `effects`, in order. -/

namespace RemoteAccess.SessionPackets

open LittleEndian ProtocolCodec QtText SessionReceive SessionSend
open AgentPacketHandler (openPacket)

/-- An image of four bytes a pixel. `rows` holds what the scan lines do. -/
structure QImage where
  width : Nat
  height : Nat
  rows : List (List UInt8)
deriving DecidableEq

namespace QImage

def null : QImage := ⟨0, 0, []⟩

/-- `QImage(data, width, height, bytesPerLine, Format_RGBA8888).copy()`. Qt gives
a null image for sizes it cannot work with, and computes `bytesPerLine` where it
is zero; it does not look at how long `data` is. -/
def ofData (data : List UInt8) (width height : Int32) (bytesPerLine : Nat) : QImage :=
  if width ≤ 0 ∨ height ≤ 0 ∨ (2 ^ 31 - 1 - 31) / 32 < width.toInt then null
  else
    let w := width.toInt.toNat
    if 0 < bytesPerLine ∧ bytesPerLine < 4 * w then null
    else
      let stride := if bytesPerLine = 0 then 4 * w else bytesPerLine
      { width := w
        height := height.toInt.toNat
        rows := (List.range height.toInt.toNat).map fun y => (data.drop (stride * y)).take (4 * w) }

end QImage

/-! ### Texts -/

def chatMark : QString := literal ['C', 'H', 'A', 'T', ':']

def remoteHost : QString := literal
  ['R', 'e', 'm', 'o', 't', 'e', ' ', 'H', 'o', 's', 't']

def connectedToText : QString := literal
  ['C', 'o', 'n', 'n', 'e', 'c', 't', 'e', 'd', ' ', 't', 'o', ' ']

def remoteDesk : QString := literal
  ['R', 'e', 'm', 'o', 't', 'e', ' ', 'D', 'e', 's', 'k']

def disconnectedText : QString := literal
  ['D', 'i', 's', 'c', 'o', 'n', 'n', 'e', 'c', 't', 'e', 'd']

def sessionVerified : QString := literal
  [' ', '—', ' ', 'S', 'e', 's', 's', 'i', 'o', 'n', ' ', 'V', 'e', 'r', 'i', 'f', 'i', 'e', 'd']

def authenticationFailed : QString := literal
  ['A', 'u', 't', 'h', 'e', 'n', 't', 'i', 'c', 'a', 't', 'i', 'o', 'n', ' ', 'F', 'a', 'i', 'l',
   'e', 'd', ':', ' ', 'I', 'n', 'v', 'a', 'l', 'i', 'd', ' ', 'R', 'e', 'm', 'o', 't', 'e', ' ',
   'P', 'a', 's', 's', 'w', 'o', 'r', 'd']

/-! ### The session -/

inductive ClientEffect
  | updateFrame (image : QImage)
  | chatMessageReceived (sender message : QString)
  | setClipboardText (text : QString)
  | clipboardTextReceived (text : QString)
  | terminalOutputReceived (text : QString)
  | statusTextChanged (status : QString)
  /-- The line logged for an accepting and for a rejecting `AuthResponse`. -/
  | authResponse (granted : Bool)
  | disconnectFromHost
deriving DecidableEq

/-- The fields of the client that the branches use. -/
structure Session extends Sender where
  hasFrameProvider : Bool
  hasClipboard : Bool
  renderGated : Bool
  receivedFrames : UInt64
  terminalOutput : QString
  statusText : QString
  lastConnectedTarget : QString
  /-- Whether the socket still has bytes to write. -/
  bytesToWrite : Bool
  effects : List ClientEffect

namespace Session

def emit (s : Session) (e : ClientEffect) : Session := { s with effects := s.effects ++ [e] }

def setStatus (s : Session) (status : QString) : Session :=
  if s.statusText ≠ status then { s with statusText := status }.emit (.statusTextChanged status)
  else s

@[simp] theorem emit_effects (s : Session) (e : ClientEffect) :
    (s.emit e).effects = s.effects ++ [e] := rfl

theorem setStatus_cases (s : Session) (status : QString) :
    s.setStatus status = s ∨
      s.setStatus status = { s with statusText := status }.emit (.statusTextChanged status) := by
  unfold setStatus
  split_ifs
  · exact .inr rfl
  · exact .inl rfl

theorem setStatus_connected (s : Session) (status : QString) :
    (s.setStatus status).connected = s.connected := by
  obtain same | same := s.setStatus_cases status <;> rw [same]
  rfl

theorem mem_setStatus {s : Session} {status : QString} {e : ClientEffect}
    (other : ∀ text, e ≠ .statusTextChanged text) :
    e ∈ (s.setStatus status).effects ↔ e ∈ s.effects := by
  obtain same | same := s.setStatus_cases status
  · rw [same]
  · simp [same, other status]

end Session

/-- A client that has asked for nothing yet, its terminal banner left out. -/
def newSession : Session where
  toSender := initial
  hasFrameProvider := true
  hasClipboard := true
  renderGated := false
  receivedFrames := 0
  terminalOutput := []
  statusText := disconnectedText
  lastConnectedTarget := []
  bytesToWrite := false
  effects := []

variable (oversized : Nat → UInt64) (qUncompress : List UInt8 → List UInt8)

/-- The pixels of a frame: decompressed, or the bytes from offset 8 on where that
fails. The comparison is made in `size_t`, the size copied in `uint32_t`. -/
def framePixels (decrypted : List UInt8) (width height : UInt32) : List UInt8 :=
  let uncompressedPixels := qUncompress (decrypted.drop 12)
  if uncompressedPixels.isEmpty ∧
      (8 + width.toNat * height.toNat * 4) % 2 ^ 64 ≤ decrypted.length then
    (decrypted.drop 8).take (width * height * 4).toNat
  else uncompressedPixels

def showFrame (s : Session) (decrypted : List UInt8) : Session :=
  let width := UInt32.ofNat (word 0 4 decrypted)
  let height := UInt32.ofNat (word 4 4 decrypted)
  let pixels := framePixels qUncompress decrypted width height
  if 0 < width ∧ 0 < height ∧ ¬ pixels.isEmpty then
    let imgCopy := QImage.ofData pixels width.toInt32 height.toInt32 (width * 4).toNat
    if s.hasFrameProvider then
      { s with receivedFrames := s.receivedFrames + 1 }.emit (.updateFrame imgCopy)
    else s
  else s

def handleFrameHeader (s : Session) (packet : Packet) : Session :=
  if s.renderGated then s else
  match openPacket oversized packet with
  | none => s
  | some decrypted => if 12 ≤ decrypted.length then showFrame qUncompress s decrypted else s

def withText (packet : Packet) (act : Session → QString → Session) (s : Session) : Session :=
  match openPacket oversized packet with
  | none => s
  | some decrypted =>
    if decrypted.isEmpty then s else act s (fromUtf8 decrypted (intOfSize decrypted.length))

def applyClipboardText (s : Session) (text : QString) : Session :=
  if chatMark.isPrefixOf text then
    s.emit (.chatMessageReceived remoteHost (text.drop 5))
  else
    let s := { s with lastClipboardText := text }
    let s := if s.hasClipboard then s.emit (.setClipboardText text) else s
    s.emit (.clipboardTextReceived text)

def appendTerminalOutput (s : Session) (text : QString) : Session :=
  { s with terminalOutput := s.terminalOutput ++ text }.emit (.terminalOutputReceived text)

def connectedTo (s : Session) : QString :=
  connectedToText ++
    if s.lastConnectedTarget.isEmpty then remoteDesk else s.lastConnectedTarget

/-- A socket with nothing left to write closes at once, and `onDisconnected`
clears the buffer; otherwise it closes later. -/
def disconnectFromHost (r : Receiver Session) : Receiver Session :=
  if ¬ r.session.connected then r else
  let s := { r.session with connected := false }.emit .disconnectFromHost
  if s.bytesToWrite then { r with session := s }
  else
    { session := { s with lastConnectedTarget := [] }.setStatus disconnectedText
      receiveBuffer := [] }

theorem disconnectFromHost_spec {s : Session} (connected : s.connected = true)
    (buffer : List UInt8) :
    ∃ session left, disconnectFromHost ⟨s, buffer⟩ = ⟨session, left⟩ ∧
      (left = buffer ∨ left = []) ∧
      ∀ e, (∀ text, e ≠ .statusTextChanged text) →
        (e ∈ session.effects ↔ e ∈ s.effects ∨ e = .disconnectFromHost) := by
  unfold disconnectFromHost
  rw [if_neg (not_not.mpr connected)]
  dsimp only
  split_ifs
  · exact ⟨_, _, rfl, .inl rfl, by simp⟩
  · refine ⟨_, _, rfl, .inr rfl, fun e other => ?_⟩
    rw [Session.mem_setStatus other]
    simp

def handleAuthResponse (packet : Packet) (r : Receiver Session) : Receiver Session :=
  match openPacket oversized packet with
  | none => r
  | some [] => r
  | some (authCode :: _) =>
    let s := r.session.emit (.authResponse (authCode == 0))
    if authCode = 0 then
      { r with session := s.setStatus (connectedTo s ++ sessionVerified) }
    else
      disconnectFromHost { r with
        session := s.setStatus authenticationFailed }

def dispatch (packet : Packet) (r : Receiver Session) : Receiver Session :=
  if packet.header.type = .frameHeader ∧ packet.payload ≠ [] then
    { r with session := handleFrameHeader oversized qUncompress r.session packet }
  else if packet.header.type = .clipboardData ∧ packet.payload ≠ [] then
    { r with session := withText oversized packet applyClipboardText r.session }
  else if packet.header.type = .authResponse ∧ packet.payload ≠ [] then
    handleAuthResponse oversized packet r
  else if packet.header.type = .terminalData ∧ packet.payload ≠ [] then
    { r with session := withText oversized packet appendTerminalOutput r.session }
  -- audio is logged only
  else r

/-! ### Sealed packets -/

section Sealed

open SealedMessage AgentPacketHandler

variable {m : Plain} (fits : m.plaintext.length + CryptoEngine.tagSize < 2 ^ 32)
include fits

theorem dispatch_frame (type : m.type = .frameHeader) (r : Receiver Session) :
    dispatch oversized qUncompress (m.message oversized).packet r =
      if r.session.renderGated = true ∨ m.plaintext.length < 12 then r
      else { r with session := showFrame qUncompress r.session m.plaintext } := by
  have known : (m.message oversized).packet.header.type = .frameHeader := type
  rw [dispatch, if_pos ⟨known, payload_ne_nil oversized fits⟩, handleFrameHeader,
    openPacket_message oversized fits]
  by_cases gated : r.session.renderGated
  · rw [if_pos gated, if_pos (.inl gated)]
  · by_cases short : m.plaintext.length < 12
    · simp [gated, short, Nat.not_le.mpr short]
    · simp [gated, short, Nat.not_lt.mp short]

theorem dispatch_authResponse (type : m.type = .authResponse) (r : Receiver Session) :
    dispatch oversized qUncompress (m.message oversized).packet r =
      handleAuthResponse oversized (m.message oversized).packet r := by
  have known : (m.message oversized).packet.header.type = .authResponse := type
  rw [dispatch, known, if_neg fun both => absurd both.1 (by decide),
    if_neg fun both => absurd both.1 (by decide), if_pos ⟨rfl, payload_ne_nil oversized fits⟩]

end Sealed

end RemoteAccess.SessionPackets
