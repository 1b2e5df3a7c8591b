import RemoteAccess.QtText
import RemoteAccess.SealedMessage

/-! The sending sites of `SessionClient`. Each takes the next sequence number,
which is also the nonce, and seals its plaintext under it; `onConnected` starts
the count again. -/

namespace RemoteAccess.SessionSend

open LittleEndian ProtocolCodec SealedMessage QtText

/-- The fields of the client that the sending sites use. `connected` is
`socket_.isOpen()` in `ConnectedState`. -/
structure Sender where
  connected : Bool
  requestedPassword : QString
  inputSequence : UInt64
  lastClipboardText : QString

def initial : Sender where
  connected := false
  requestedPassword := []
  inputSequence := 0
  lastClipboardText := []

/-- `++inputSequence_`, and a packet of that number. -/
def send (c : Sender) (type : PayloadType) (plaintext : List UInt8) : Sender × List Plain :=
  let seq := c.inputSequence + 1
  ({ c with inputSequence := seq },
    [{ type := type, seq := seq, timestampMs := 0, plaintext := plaintext }])

/-- 24 bytes; the two after the type stay zero and the modifiers are dropped. -/
def inputPlaintext (type : UInt16) (x y : Int32) (button : UInt32) (delta : Int32)
    (keycode : UInt32) : List UInt8 :=
  toBytes 2 type.toNat ++ List.replicate 2 0 ++ toBytes 4 x.toUInt32.toNat ++
    toBytes 4 y.toUInt32.toNat ++ toBytes 4 button.toNat ++ toBytes 4 delta.toUInt32.toNat ++
    toBytes 4 keycode.toNat

def sendInputEvent (type : UInt16) (x y : Int32) (button : UInt32) (delta : Int32)
    (keycode _modifiers : UInt32) (c : Sender) : Sender × List Plain :=
  if ¬ c.connected then (c, [])
  else send c .inputEvent (inputPlaintext type x y button delta keycode)

def sendClipboardText (text : QString) (c : Sender) : Sender × List Plain :=
  if ¬ c.connected then (c, [])
  else if text = c.lastClipboardText then (c, [])
  else send { c with lastClipboardText := text } .clipboardData (toUtf8 text)

def sendSessionControlAction (actionId : UInt32) (c : Sender) : Sender × List Plain :=
  if ¬ c.connected then (c, [])
  else send c .sessionControl (toBytes 4 actionId.toNat)

/-- The socket is in `ConnectedState` when its `connected` signal arrives. -/
def onConnected (c : Sender) : Sender × List Plain :=
  send { c with connected := true, inputSequence := 0 } .authRequest (toUtf8 c.requestedPassword)

/-! ### One call -/

inductive Call
  | onConnected
  | sendInputEvent (type : UInt16) (x y : Int32) (button : UInt32) (delta : Int32)
      (keycode modifiers : UInt32)
  | sendClipboardText (text : QString)
  | sendSessionControlAction (actionId : UInt32)

namespace Call

def perform : Call → Sender → Sender × List Plain
  | .onConnected => SessionSend.onConnected
  | .sendInputEvent type x y button delta keycode modifiers =>
    SessionSend.sendInputEvent type x y button delta keycode modifiers
  | .sendClipboardText text => SessionSend.sendClipboardText text
  | .sendSessionControlAction actionId => SessionSend.sendSessionControlAction actionId

def type : Call → PayloadType
  | .onConnected => .authRequest
  | .sendInputEvent .. => .inputEvent
  | .sendClipboardText _ => .clipboardData
  | .sendSessionControlAction _ => .sessionControl

def plaintext (requestedPassword : QString) : Call → List UInt8
  | .onConnected => toUtf8 requestedPassword
  | .sendInputEvent type x y button delta keycode _ => inputPlaintext type x y button delta keycode
  | .sendClipboardText text => toUtf8 text
  | .sendSessionControlAction actionId => toBytes 4 actionId.toNat

/-- What a call counts on from: `zero` in a new connection. -/
def countsFrom {α : Type} (zero last : α) : Call → α
  | .onConnected => zero
  | _ => last

theorem perform_cases (call : Call) (c : Sender) :
    call.perform c = (c, []) ∨
    ∃ c' : Sender, c'.requestedPassword = c.requestedPassword ∧
      c'.inputSequence = call.countsFrom 0 c.inputSequence ∧
      call.perform c = send c' call.type (call.plaintext c.requestedPassword) := by
  cases call with
  | onConnected => exact .inr ⟨{ c with connected := true, inputSequence := 0 }, rfl, rfl, rfl⟩
  | sendInputEvent type x y button delta keycode modifiers =>
    dsimp only [perform, SessionSend.sendInputEvent]
    split_ifs
    · exact .inr ⟨c, rfl, rfl, rfl⟩
    · exact .inl rfl
  | sendClipboardText text =>
    dsimp only [perform, SessionSend.sendClipboardText]
    split_ifs
    · exact .inl rfl
    · exact .inr ⟨{ c with lastClipboardText := text }, rfl, rfl, rfl⟩
    · exact .inl rfl
  | sendSessionControlAction actionId =>
    dsimp only [perform, SessionSend.sendSessionControlAction]
    split_ifs
    · exact .inr ⟨c, rfl, rfl, rfl⟩
    · exact .inl rfl

theorem emitted {call : Call} {c : Sender} {m : Plain} (member : m ∈ (call.perform c).2) :
    m.type = call.type ∧ m.plaintext = call.plaintext c.requestedPassword := by
  obtain nothing | ⟨c', -, -, sent⟩ := perform_cases call c
  · simp [nothing] at member
  · rw [sent, send, List.mem_singleton] at member
    simp [member]

def performAll : List Call → Sender → Sender × List Plain
  | [], c => (c, [])
  | call :: calls, c =>
    let (c, packets) := call.perform c
    let (c, more) := performAll calls c
    (c, packets ++ more)

end Call

end RemoteAccess.SessionSend
