import RemoteAccess.AgentPacketHandler
import RemoteAccess.AgentReceive
import RemoteAccess.SessionSend

/-! Input events from one end to the other: `sendInputEvent` lays out 24 bytes,
seals and frames them, and the agent reads the same fields back. -/

namespace RemoteAccess.InputPath

open LittleEndian ProtocolCodec PacketStream SealedMessage QtText
open AgentReceive AgentPacketHandler SessionSend

structure InputCall where
  type : UInt16
  x : Int32
  y : Int32
  button : UInt32
  delta : Int32
  keycode : UInt32
  modifiers : UInt32

namespace InputCall

def call (k : InputCall) : Call :=
  .sendInputEvent k.type k.x k.y k.button k.delta k.keycode k.modifiers

/-- What the agent makes of it. The modifiers are not sent. -/
def event (k : InputCall) : InputEvent where
  type := ⟨k.type⟩
  x := k.x
  y := k.y
  button := k.button
  delta := k.delta
  keycode := k.keycode

def plaintext (k : InputCall) : List UInt8 :=
  inputPlaintext k.type k.x k.y k.button k.delta k.keycode

end InputCall

theorem length_inputPlaintext (k : InputCall) : k.plaintext.length = 24 := by
  simp [InputCall.plaintext, inputPlaintext]

section Fields

variable (k : InputCall)

theorem word_type : word 0 2 k.plaintext = k.type.toNat := by
  simp only [InputCall.plaintext, inputPlaintext, List.append_assoc, word_toBytes]
  exact Nat.mod_eq_of_lt k.type.toNat_lt

theorem word_fields : word 4 4 k.plaintext = k.x.toUInt32.toNat ∧
    word 8 4 k.plaintext = k.y.toUInt32.toNat ∧ word 12 4 k.plaintext = k.button.toNat ∧
    word 16 4 k.plaintext = k.delta.toUInt32.toNat ∧ word 20 4 k.plaintext = k.keycode.toNat := by
  have small : ∀ n : UInt32, n.toNat % 256 ^ 4 = n.toNat := fun n => Nat.mod_eq_of_lt n.toNat_lt
  simp (disch := simp) only [InputCall.plaintext, inputPlaintext, List.append_assoc,
    word_append_right, length_toBytes, List.length_replicate, Nat.reduceSub, word_toBytes,
    word_toBytes_self, small, and_self]

theorem eventOf_plaintext : eventOf k.plaintext = k.event := by
  obtain ⟨x, y, button, delta, keycode⟩ := word_fields k
  simp only [eventOf, word_type, x, y, button, delta, keycode, UInt16.ofNat_toNat,
    UInt32.ofNat_toNat, Int32.toInt32_toUInt32, InputCall.event]

end Fields

/-! ### Over the connection -/

variable (oversized : Nat → UInt64)

/-- The host of the agent's `main`: `createDefaultBackend` always makes a backend. -/
def mainHost (hasClipboard : Bool) (dynamicOtp : QString) : Host where
  hasInputBackend := true
  hasClipboard := hasClipboard
  dynamicOtp := dynamicOtp

def remoteSocket : ClientSocket := ⟨true, false⟩

theorem handleClientPacket_input (hasClipboard : Bool) (dynamicOtp : QString) (seq : UInt64)
    (k : InputCall) :
    handleClientPacket oversized (mainHost hasClipboard dynamicOtp) remoteSocket
        ((⟨.inputEvent, seq, 0, k.plaintext⟩ : Plain).message oversized).packet =
      (remoteSocket, [.injectEvent k.event]) := by
  have length := length_inputPlaintext k
  rw [handleClientPacket_message oversized (by rw [length]; decide)]
  simp only [remoteSocket, handleInputEvent, mainHost, length, eventOf_plaintext]
  rfl

theorem perform_call {c : Sender} (connected : c.connected = true) (k : InputCall) :
    ∃ c', k.call.perform c = (c', [⟨.inputEvent, c.inputSequence + 1, 0, k.plaintext⟩]) ∧
      c'.connected = true := by
  refine ⟨{ c with inputSequence := c.inputSequence + 1 }, ?_, connected⟩
  exact if_neg (not_not.mpr connected)

theorem length_of_sent {c : Sender} (connected : c.connected = true) (calls : List InputCall) :
    ∀ m ∈ (Call.performAll (calls.map InputCall.call) c).2, m.plaintext.length = 24 := by
  induction calls generalizing c with
  | nil => simp [Call.performAll]
  | cons k calls ih =>
    obtain ⟨c', sent, still⟩ := perform_call connected k
    rw [List.map_cons, Call.performAll, sent]
    exact List.forall_mem_cons.mpr ⟨length_inputPlaintext k, ih still⟩

section Run

variable {hasClipboard : Bool} {dynamicOtp : QString} {c : Sender}

theorem foldl_collect (connected : c.connected = true) (calls : List InputCall)
    (before : List Effect) :
    ((Call.performAll (calls.map InputCall.call) c).2.map fun m =>
        (m.message oversized).packet).foldl
        (collect oversized (mainHost hasClipboard dynamicOtp)) (remoteSocket, before) =
      (remoteSocket, before ++ calls.map fun k => .injectEvent k.event) := by
  induction calls generalizing c before with
  | nil => simp [Call.performAll]
  | cons k calls ih =>
    obtain ⟨c', sent, still⟩ := perform_call connected k
    rw [List.map_cons, Call.performAll, sent]
    simp only [List.singleton_append, List.map_cons, List.foldl_cons, collect,
      handleClientPacket_input]
    rw [ih still, List.append_assoc, List.singleton_append]

end Run

/-- Whatever the calls, and however many packets a read delivers, the agent injects
the event of each call once and in order, with its six fields. -/
theorem input_events_unchanged (hasClipboard : Bool) (dynamicOtp : QString) (c : Sender)
    (connected : c.connected = true) (calls : List InputCall) (groups : List (List Message))
    (sent : groups.flatten =
      (Call.performAll (calls.map InputCall.call) c).2.map (Plain.message oversized))
    (fuel : Nat) (enough : (groups.flatten.map Message.bytes).flatten.length < fuel) :
    deliver (collect oversized (mainHost hasClipboard dynamicOtp)) fuel (remoteSocket, [])
        (groups.map fun group => (group.map Message.bytes).flatten) =
      some (remoteSocket, calls.map fun k => .injectEvent k.event) := by
  have writable : ∀ m ∈ groups.flatten, headerSize + m.payload.length < 2 ^ 31 := by
    rw [sent]
    intro message member
    obtain ⟨m, written, rfl⟩ := List.mem_map.mp member
    rw [Plain.message, length_sealPayload, length_of_sent connected calls m written]
    decide
  rw [deliver_whole writable enough, sent, List.map_map]
  exact congrArg some (foldl_collect oversized connected calls [])

theorem input_events_unchanged_click :
    ∃ (group : List Message) (fuel : Nat),
      deliver (collect (fun _ => 1) (mainHost true [])) fuel (remoteSocket, [])
          [(group.map Message.bytes).flatten] =
        some (remoteSocket, [.injectEvent ⟨⟨2⟩, -5, 7, 1, 0, 0, 0⟩,
          .injectEvent ⟨⟨3⟩, -5, 7, 1, 0, 0, 0⟩]) :=
  ⟨[_, _], _, input_events_unchanged (fun _ => 1) true [] { initial with connected := true } rfl
    [⟨2, -5, 7, 1, 0, 0, 3⟩, ⟨3, -5, 7, 1, 0, 0, 3⟩] [[_, _]] rfl _ (Nat.lt_succ_self _)⟩

end RemoteAccess.InputPath
