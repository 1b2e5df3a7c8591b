import RemoteAccess.AgentPacketHandler
import RemoteAccess.SessionSend

/-! The tag covers the encrypted payload only. A sealed packet whose two type
bytes are written over in transit still opens, and the agent reads its plaintext
as that of the new type. -/

namespace RemoteAccess.PacketRelabelling

open LittleEndian ProtocolCodec PacketStream SealedMessage AgentPacketHandler SessionSend

/-- Bytes 6 and 7 of an encoding are its type. -/
def relabel (type : PayloadType) (bytes : List UInt8) : List UInt8 :=
  bytes.take 6 ++ toBytes 2 type.code.toNat ++ bytes.drop 8

variable (oversized : Nat → UInt64)

theorem relabel_bytes (type : PayloadType) (m : Plain) :
    relabel type (m.message oversized).bytes =
      (({ m with type := type } : Plain).message oversized).bytes := by
  simp only [relabel, Message.bytes, Plain.message, encode, encodeHeader, List.append_assoc]
  rw [← List.append_assoc (toBytes 4 _) (toBytes 2 _), List.take_left' (by simp),
    ← List.append_assoc _ (toBytes 2 m.type.code.toNat), List.drop_left' (by simp)]
  simp only [List.append_assoc]

theorem decode_relabel (type : PayloadType) (m : Plain) :
    decode (relabel type (m.message oversized).bytes) =
      .ok (({ m with type := type } : Plain).message oversized).packet := by
  rw [relabel_bytes, ← List.append_nil (Message.bytes _), Message.decode_bytes_append]

/-- Nothing is injected, written to the clipboard or executed, and the socket is
as authenticated as before. -/
def NoEffect (socket : ClientSocket) (result : ClientSocket × List Effect) : Prop :=
  result.1.authenticated = socket.authenticated ∧ ∀ e ∈ result.2, e.privileged = false

/-- When a plaintext does nothing on an authenticated socket under `type`. -/
def Inert (host : Host) (socket : ClientSocket) (type : PayloadType) (plaintext : List UInt8) :
    Prop :=
  (type = .authRequest → plaintext = [] ∨ passwordAccepted host.dynamicOtp plaintext = true) ∧
  (type = .inputEvent →
    plaintext.length < 24 ∨ host.hasInputBackend = false ∨ socket.isLoopback = true) ∧
  (type = .clipboardData → plaintext = [] ∨ host.hasClipboard = false) ∧
  (type = .sessionControl → plaintext.length < 4)

theorem inert_of_handleInputEvent {host : Host} {socket : ClientSocket} {plaintext : List UInt8} :
    (∀ e ∈ handleInputEvent host socket plaintext, e.privileged = false) ↔
      plaintext.length < 24 ∨ host.hasInputBackend = false ∨ socket.isLoopback = true := by
  unfold handleInputEvent
  split_ifs with long backend loopback
  · simp [loopback]
  · simp [Effect.privileged, backend, loopback, long]
  · simp [backend]
  · simp [Nat.not_le.mp long]

theorem inert_of_handleClipboardData {host : Host} {plaintext : List UInt8} :
    (∀ e ∈ handleClipboardData host plaintext, e.privileged = false) ↔
      plaintext = [] ∨ host.hasClipboard = false := by
  unfold handleClipboardData
  dsimp only
  split_ifs with empty clipboard
  · simp [List.isEmpty_iff.mp empty]
  · rw [List.isEmpty_iff] at empty
    simp [Effect.privileged, clipboard, empty]
  · simp [clipboard]

theorem inert_of_handleSessionControl {plaintext : List UInt8} :
    (∀ e ∈ handleSessionControl plaintext, e.privileged = false) ↔ plaintext.length < 4 := by
  unfold handleSessionControl
  dsimp only
  split_ifs with long
  · simp [Effect.privileged, long]
  · simp [Effect.privileged, long]
  · simp [Nat.not_le.mp long]

section Sealed

variable {host : Host} {socket : ClientSocket} {m : Plain}
  (authenticated : socket.authenticated = true)
  (fits : m.plaintext.length + CryptoEngine.tagSize < 2 ^ 32)
include authenticated fits

theorem noEffect_authRequest (type : m.type = .authRequest) :
    NoEffect socket (handleClientPacket oversized host socket (m.message oversized).packet) ↔
      m.plaintext = [] ∨ passwordAccepted host.dynamicOtp m.plaintext = true := by
  rw [handleClientPacket_message oversized fits, NoEffect, if_pos type]
  by_cases empty : m.plaintext = []
  · simp [empty]
  · cases accepted : passwordAccepted host.dynamicOtp m.plaintext with
    | true => simp [empty, authenticated, Effect.privileged]
    | false => simp [empty, authenticated]

theorem noEffect_iff_inert :
    NoEffect socket (handleClientPacket oversized host socket (m.message oversized).packet) ↔
      Inert host socket m.type m.plaintext := by
  by_cases auth : m.type = .authRequest
  · rw [noEffect_authRequest oversized authenticated fits auth, Inert, auth]
    simp [PayloadType.authRequest, PayloadType.inputEvent, PayloadType.clipboardData,
      PayloadType.sessionControl]
  rw [handleClientPacket_message oversized fits, NoEffect, Inert, if_neg auth, authenticated,
    if_neg (not_not.mpr rfl)]
  by_cases input : m.type = .inputEvent
  · rw [if_pos input, input, ← inert_of_handleInputEvent]
    simp [authenticated, PayloadType.authRequest, PayloadType.inputEvent,
      PayloadType.clipboardData, PayloadType.sessionControl]
  rw [if_neg input]
  by_cases clipboard : m.type = .clipboardData
  · rw [if_pos clipboard, clipboard, ← inert_of_handleClipboardData]
    simp [authenticated, PayloadType.authRequest, PayloadType.inputEvent,
      PayloadType.clipboardData, PayloadType.sessionControl]
  rw [if_neg clipboard]
  by_cases control : m.type = .sessionControl
  · rw [if_pos control, control, ← inert_of_handleSessionControl]
    simp [authenticated, PayloadType.authRequest, PayloadType.inputEvent,
      PayloadType.clipboardData, PayloadType.sessionControl]
  · simp [auth, input, clipboard, control, authenticated]

end Sealed

/-- A packet of the client's, relabelled, does nothing on an authenticated socket
exactly when its plaintext is inert under the new type. -/
theorem relabelled_noEffect_iff (host : Host) (socket : ClientSocket) (c : Sender) (call : Call)
    (m : Plain) (type : PayloadType) (authenticated : socket.authenticated = true)
    (emitted : m ∈ (call.perform c).2)
    (fits : headerSize + (m.plaintext.length + CryptoEngine.tagSize) < 2 ^ 31) :
    (∀ p, decode (relabel type (m.message oversized).bytes) = .ok p →
        NoEffect socket (handleClientPacket oversized host socket p)) ↔
      Inert host socket type (call.plaintext c.requestedPassword) := by
  have relabelled : ({ m with type := type } : Plain).plaintext.length + CryptoEngine.tagSize <
      2 ^ 32 := by
    simp only
    omega
  have same : NoEffect socket (handleClientPacket oversized host socket
      (({ m with type := type } : Plain).message oversized).packet) ↔
        Inert host socket type m.plaintext :=
    noEffect_iff_inert oversized authenticated relabelled
  rw [← (Call.emitted emitted).2, decode_relabel, ← same]
  constructor
  · intro harmless
    exact harmless _ rfl
  · intro harmless p read
    exact Except.ok.inj read ▸ harmless

theorem relabelled_noEffect_iff_action :
    ∃ m ∈ ((Call.sendSessionControlAction 2).perform { initial with connected := true }).2,
      ∀ p, decode (relabel .inputEvent (m.message fun _ => 1).bytes) = .ok p →
        NoEffect ⟨true, false⟩ (handleClientPacket (fun _ => 1) ⟨true, true, []⟩ ⟨true, false⟩ p) :=
  ⟨_, List.mem_singleton.mpr rfl,
    (relabelled_noEffect_iff (fun _ => 1) ⟨true, true, []⟩ ⟨true, false⟩
      { initial with connected := true } (.sendSessionControlAction 2) _ .inputEvent rfl
      (List.mem_singleton.mpr rfl) (by decide)).mpr
      ⟨by decide, by decide, by decide, by decide⟩⟩

def lockCommand : Effect :=
  .system "loginctl lock-session 2>/dev/null || xdg-screensaver lock 2>/dev/null &"

/-- A mouse press relabelled as a session control action locks the workstation. -/
theorem relabelled_press_locks_workstation :
    ∃ m ∈ ((Call.sendInputEvent 2 0 0 1 0 0 0).perform { initial with connected := true }).2,
      m.type = .inputEvent ∧
      ∃ p, decode (relabel .sessionControl (m.message fun _ => 1).bytes) = .ok p ∧
        (handleClientPacket (fun _ => 1) ⟨true, true, []⟩ ⟨true, false⟩ p).2 =
          [.executeAction 2, lockCommand] ∧
        ¬ NoEffect ⟨true, false⟩
          (handleClientPacket (fun _ => 1) ⟨true, true, []⟩ ⟨true, false⟩ p) := by
  refine ⟨_, List.mem_singleton.mpr rfl, rfl, _, decode_relabel .., ?_, ?_⟩
  · rw [handleClientPacket_message _ (by decide)]
    rfl
  · rw [noEffect_iff_inert _ rfl (by decide)]
    intro inert
    exact absurd (inert.2.2.2 rfl) (by decide)

end RemoteAccess.PacketRelabelling
