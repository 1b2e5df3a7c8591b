import RemoteAccess.InputPath
import RemoteAccess.LinuxX11Input

/-! The XTest calls an `InputEvent` packet leads to, against the bounds of the threat
model: coordinates within the host geometry, existing buttons and key codes. -/

namespace RemoteAccess.InputBounds

open SealedMessage AgentPacketHandler LinuxX11Input InputPath

def hostWidth : Int32 := 1920
def hostHeight : Int32 := 1080

def InsideHost (x y : Int32) : Prop := 0 ≤ x ∧ x < hostWidth ∧ 0 ≤ y ∧ y < hostHeight

def ButtonNumber (button : UInt32) : Prop := 1 ≤ button ∧ button ≤ 5

/-- X numbers its key codes from 8. -/
def KeyCode (keycode : UInt32) : Prop := 8 ≤ keycode ∧ keycode ≤ 255

/-- A call with nothing out of range. -/
def Sanitised : XTestCall → Prop
  | .motionEvent x y => InsideHost x y
  | .buttonEvent button _ => ButtonNumber button
  | .keyEvent keycode _ => KeyCode keycode

def Handled (event : InputEvent) : Prop :=
  event.type = .mouseMove ∨ event.type = .mouseDown ∨ event.type = .mouseUp ∨
    event.type = .mouseWheel ∨ event.type = .keyDown ∨ event.type = .keyUp

/-- The words that the case of this kind passes on are in range; a key of code 0 is not
passed on. -/
@[mk_iff]
structure WithinBounds (event : InputEvent) : Prop where
  pointer : event.type = .mouseMove ∨ event.type = .mouseDown → InsideHost event.x event.y
  button : event.type = .mouseDown ∨ event.type = .mouseUp → ButtonNumber event.button
  key : event.type = .keyDown ∨ event.type = .keyUp → event.keycode = 0 ∨ KeyCode event.keycode

/-! ### One event -/

section Event

variable {backend : Backend} {event : InputEvent}

theorem injectEvent_disabled (off : ¬ (backend.disabled = false ∧ backend.display = true ∧
    backend.xtestSupported = true)) : injectEvent backend event = [] := by
  unfold injectEvent
  cases disabled : backend.disabled with
  | true => rfl
  | false =>
    have closed : ¬ (backend.display = true ∧ backend.xtestSupported = true) :=
      fun both => off ⟨disabled, both⟩
    rw [if_neg Bool.false_ne_true, if_pos closed]

theorem injectEvent_unhandled (other : ¬ Handled event) : injectEvent backend event = [] := by
  simp only [Handled, not_or] at other
  obtain ⟨move, down, up, wheel, keyDown, keyUp⟩ := other
  simp only [injectEvent, move, down, up, wheel, keyDown, keyUp, if_false, ite_self]

theorem sanitised_wheel (delta : Int32) (isPress : Bool) :
    Sanitised (.buttonEvent (if 0 < delta then 4 else 5) isPress) := by
  split_ifs
  · exact ⟨by decide, by decide⟩
  · exact ⟨by decide, by decide⟩

theorem sanitised_key (keycode : UInt32) (isPress : Bool) :
    (∀ call ∈ if 0 < keycode then [XTestCall.keyEvent keycode isPress] else [],
      Sanitised call) ↔ keycode = 0 ∨ KeyCode keycode := by
  by_cases zero : keycode = 0
  · simp [zero]
  · have positive : 0 < keycode := UInt32.pos_iff_ne_zero.mpr zero
    simp [positive, zero, Sanitised]

theorem injectEvent_sanitised_iff (on : backend.disabled = false ∧ backend.display = true ∧
    backend.xtestSupported = true) :
    (∀ call ∈ injectEvent backend event, Sanitised call) ↔ WithinBounds event := by
  obtain ⟨type, x, y, button, delta, keycode, modifiers⟩ := event
  by_cases handled : Handled ⟨type, x, y, button, delta, keycode, modifiers⟩
  · have keys := sanitised_key keycode
    obtain rfl | rfl | rfl | rfl | rfl | rfl := handled <;>
      simp only [injectEvent, on, withinBounds_iff, InputEventType.mouseMove,
        InputEventType.mouseDown, InputEventType.mouseUp, InputEventType.mouseWheel,
        InputEventType.keyDown, InputEventType.keyUp, InputEventType.mk.injEq]
    · simp [Sanitised]
    · simp [Sanitised]
    · simp [Sanitised]
    · simp [sanitised_wheel]
    · simpa using keys true
    · simpa using keys false
  · rw [injectEvent_unhandled handled]
    simp only [Handled, not_or] at handled
    simp [withinBounds_iff, handled]

end Event

/-! ### One packet -/

variable (oversized : Nat → UInt64)

def xtestCalls (backend : Backend) : Effect → List XTestCall
  | .injectEvent event => injectEvent backend event
  | _ => []

def packetCalls (backend : Backend) (host : Host) (socket : ClientSocket)
    (packet : ProtocolCodec.Packet) : List XTestCall :=
  (handleClientPacket oversized host socket packet).2.flatMap (xtestCalls backend)

/-- Whether input of this client is injected at all. -/
structure Injects (backend : Backend) (host : Host) (socket : ClientSocket) : Prop where
  authenticated : socket.authenticated = true
  remote : socket.isLoopback = false
  hasInputBackend : host.hasInputBackend = true
  enabled : backend.disabled = false ∧ backend.display = true ∧ backend.xtestSupported = true

/-- Nothing out of range is asked of X for the packet, and nothing at all for an event of
another kind. -/
structure PacketSanitised (backend : Backend) (host : Host) (socket : ClientSocket)
    (packet : ProtocolCodec.Packet) (event : InputEvent) : Prop where
  inRange : ∀ call ∈ packetCalls oversized backend host socket packet, Sanitised call
  others : ¬ Handled event → packetCalls oversized backend host socket packet = []

section Packet

variable {backend : Backend} {host : Host} {socket : ClientSocket}
  {packet : ProtocolCodec.Packet} {decrypted : List UInt8}

theorem opened_ne_nil (opened : openPacket oversized packet = some decrypted) :
    packet.payload ≠ [] := by
  intro empty
  simp [openPacket, CryptoEngine.decryptPayload, CryptoEngine.tagSize, empty] at opened

theorem packetCalls_eq (type : packet.header.type = .inputEvent)
    (opened : openPacket oversized packet = some decrypted) (whole : 24 ≤ decrypted.length) :
    packetCalls oversized backend host socket packet =
      if socket.authenticated = true ∧ host.hasInputBackend = true ∧ socket.isLoopback = false then
        injectEvent backend (eventOf decrypted)
      else [] := by
  have nonempty := opened_ne_nil oversized opened
  have handled : handleClientPacket oversized host socket packet =
      (socket, whenAuthenticated oversized socket packet (handleInputEvent host socket)) := by
    rw [handleClientPacket, if_neg (by simp [type, ProtocolCodec.PayloadType.inputEvent,
      ProtocolCodec.PayloadType.authRequest]), if_pos ⟨type, nonempty⟩]
  rw [packetCalls, handled, whenAuthenticated, opened]
  cases authenticated : socket.authenticated <;> cases input : host.hasInputBackend <;>
    cases loopback : socket.isLoopback <;>
    simp [handleInputEvent, whole, input, loopback, xtestCalls]

/-- The agent passes the words of an event on as they came: what it asks of X is in range
exactly if the client kept them so. -/
theorem sanitised_iff (backend : Backend) (host : Host) (socket : ClientSocket)
    (type : packet.header.type = .inputEvent)
    (opened : openPacket oversized packet = some decrypted) (whole : 24 ≤ decrypted.length) :
    PacketSanitised oversized backend host socket packet (eventOf decrypted) ↔
      (Injects backend host socket → WithinBounds (eventOf decrypted)) := by
  have calls := @packetCalls_eq oversized backend host socket packet decrypted type opened whole
  by_cases reached : socket.authenticated = true ∧ host.hasInputBackend = true ∧
      socket.isLoopback = false
  · rw [if_pos reached] at calls
    obtain ⟨authenticated, input, remote⟩ := reached
    by_cases on : backend.disabled = false ∧ backend.display = true ∧
        backend.xtestSupported = true
    · constructor
      · intro sanitised _
        exact (injectEvent_sanitised_iff on).mp (calls ▸ sanitised.inRange)
      · intro within
        refine ⟨calls ▸ (injectEvent_sanitised_iff on).mpr
          (within ⟨authenticated, remote, input, on⟩), fun other => ?_⟩
        rw [calls, injectEvent_unhandled other]
    · rw [injectEvent_disabled on] at calls
      refine iff_of_true ⟨by simp [calls], fun _ => calls⟩ fun injects => ?_
      exact absurd injects.enabled on
  · rw [if_neg reached] at calls
    refine iff_of_true ⟨by simp [calls], fun _ => calls⟩ fun injects => ?_
    exact absurd ⟨injects.authenticated, injects.hasInputBackend, injects.remote⟩ reached

end Packet

/-! ### Two packets -/

def sealedEvent (k : InputCall) : Plain := ⟨.inputEvent, 7, 0, k.plaintext⟩

def middle : InputCall := ⟨2, 960, 540, 1, 0, 0, 0⟩

def outside : InputCall := ⟨1, -1, 0, 0, 0, 0, 0⟩

theorem sanitised_iff_middle :
    PacketSanitised (fun _ => 1) ⟨false, true, true⟩ ⟨true, true, []⟩ ⟨true, false⟩
        ((sealedEvent middle).message fun _ => 1).packet (eventOf middle.plaintext) ↔
      (Injects ⟨false, true, true⟩ ⟨true, true, []⟩ ⟨true, false⟩ →
        WithinBounds (eventOf middle.plaintext)) :=
  sanitised_iff (fun _ => 1) ⟨false, true, true⟩ ⟨true, true, []⟩ ⟨true, false⟩ rfl
    (openPacket_message (fun _ => 1) (m := sealedEvent middle) (by decide)) (by decide)

/-- Another position reaches X as it was sent. -/
theorem outside_is_injected :
    (sealedEvent outside).plaintext.length = 24 ∧
      packetCalls (fun _ => 1) ⟨false, true, true⟩ ⟨true, true, []⟩ ⟨true, false⟩
        ((sealedEvent outside).message fun _ => 1).packet = [.motionEvent (-1) 0] ∧
      ¬ PacketSanitised (fun _ => 1) ⟨false, true, true⟩ ⟨true, true, []⟩ ⟨true, false⟩
        ((sealedEvent outside).message fun _ => 1).packet (eventOf outside.plaintext) := by
  have opened := openPacket_message (fun _ => 1) (m := sealedEvent outside) (by decide)
  have calls : packetCalls (fun _ => 1) ⟨false, true, true⟩ ⟨true, true, []⟩ ⟨true, false⟩
      ((sealedEvent outside).message fun _ => 1).packet = [.motionEvent (-1) 0] := by
    rw [packetCalls_eq (fun _ => 1) rfl opened (by decide)]
    decide
  refine ⟨by decide, calls, fun sanitised => ?_⟩
  have inside : InsideHost (-1) 0 := sanitised.inRange (.motionEvent (-1) 0) (by simp [calls])
  exact absurd inside.1 (by decide)

end RemoteAccess.InputBounds
