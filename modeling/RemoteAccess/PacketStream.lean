import RemoteAccess.Basics.StreamFraming
import RemoteAccess.ProtocolCodec

/-! The codec as a stream reader. Both receive loops take a packet off the front
of their buffer when `decode` finds one and wait while bytes are missing; they
differ in what they do with bytes that are no packet, so that is a parameter. -/

namespace RemoteAccess.PacketStream

open ProtocolCodec StreamFraming

/-- `size_t totalPacketSize = 28 + packet.header.payloadSize`: an `int` and a
`uint32_t` are added as `uint32_t`, and only the sum is widened. -/
def totalPacketSize (packet : Packet) : Nat := (28 + packet.header.payloadSize).toNat

theorem totalPacketSize_eq {packet : Packet}
    (room : headerSize + packet.header.payloadSize.toNat < 2 ^ 32) :
    totalPacketSize packet = headerSize + packet.header.payloadSize.toNat := by
  rw [totalPacketSize, UInt32.toNat_add]
  exact Nat.mod_eq_of_lt room

/-- What a loop does next, by what `decode` makes of its buffer. -/
def inspectPacket (skipsGarbage : Bool) (buffer : List UInt8) : Verdict Packet :=
  match decode buffer with
  | .ok packet => .item packet
  | .error .incompleteHeader => .wait
  | .error .incompletePayload => .wait
  | .error _ => if skipsGarbage then .skip else .wait

theorem inspectPacket_eq_item_iff (skipsGarbage : Bool) (buffer : List UInt8) (p : Packet) :
    inspectPacket skipsGarbage buffer = .item p ↔ decode buffer = .ok p := by
  unfold inspectPacket
  split
  · next packet h => simp [h]
  · next h => simp [h]
  · next h => simp [h]
  · next e _ _ h => cases skipsGarbage <;> simp [h]

theorem inspectPacket_eq_skip_iff (skipsGarbage : Bool) (buffer : List UInt8) :
    inspectPacket skipsGarbage buffer = .skip ↔ skipsGarbage = true ∧
      (decode buffer = .error .invalidMagicHeader ∨
        decode buffer = .error .unsupportedVersion) := by
  have known := decode_cases buffer
  unfold inspectPacket
  split
  · next packet h => simp [h]
  · next h => simp [h]
  · next h => simp [h]
  · next e header payload h =>
    rw [h] at known ⊢
    cases skipsGarbage
    · simp
    · simp only [if_true, true_and, true_iff]
      obtain ⟨-, e⟩ | ⟨-, e⟩ | ⟨-, e⟩ | ⟨-, e⟩ | ⟨-, e⟩ := known
      · exact absurd (Except.error.inj e) header
      · exact .inl e
      · exact .inr e
      · exact absurd (Except.error.inj e) payload
      · cases e

def packetReader (skipsGarbage : Bool) : Reader UInt8 Packet where
  inspect := inspectPacket skipsGarbage
  size packet := headerSize + packet.header.payloadSize.toNat
  skip_nonempty := by
    intro buffer skip empty
    obtain ⟨-, rejected | rejected⟩ := (inspectPacket_eq_skip_iff _ _).mp skip <;>
      simp [empty, decode_eq, headerSize] at rejected
  item_bounds := by
    intro buffer p item
    obtain ⟨-, size, rfl⟩ := (decode_eq_ok_iff _ _).mp ((inspectPacket_eq_item_iff _ _ _).mp item)
    exact ⟨by simp [headerSize], size⟩
  stable := by
    intro buffer more decided
    cases h : inspectPacket skipsGarbage buffer with
    | wait => exact absurd h decided
    | skip =>
      obtain ⟨skips, rejected⟩ := (inspectPacket_eq_skip_iff _ _).mp h
      refine (inspectPacket_eq_skip_iff _ _).mpr ⟨skips, ?_⟩
      obtain rejected | rejected := rejected
      · exact .inl (decode_append_error more rejected (.inl rfl))
      · exact .inr (decode_append_error more rejected (.inr rfl))
    | item p =>
      rw [inspectPacket_eq_item_iff] at h ⊢
      exact decode_append_ok more h

@[simp] theorem packetReader_inspect (skipsGarbage : Bool) (buffer : List UInt8) :
    (packetReader skipsGarbage).inspect buffer = inspectPacket skipsGarbage buffer := rfl

@[simp] theorem packetReader_size (skipsGarbage : Bool) (p : Packet) :
    (packetReader skipsGarbage).size p = headerSize + p.header.payloadSize.toNat := rfl

/-- The calls made so far, as a receiver that only keeps count of them. -/
def record (calls : List Packet) (p : Packet) : List Packet := calls ++ [p]

theorem foldl_record (calls packets : List Packet) :
    packets.foldl record calls = calls ++ packets := by
  induction packets generalizing calls with
  | nil => rw [List.foldl_nil, List.append_nil]
  | cons p packets ih => rw [List.foldl_cons, ih, record, List.append_assoc, List.singleton_append]

/-! ### Encodings on the stream -/

structure Message where
  type : PayloadType
  sequenceNumber : UInt64
  timestampMs : UInt64
  payload : List UInt8

namespace Message

def bytes (m : Message) : List UInt8 :=
  encode m.type m.sequenceNumber m.timestampMs m.payload

def packet (m : Message) : Packet :=
  ProtocolCodec.packet m.type m.sequenceNumber m.timestampMs (sentPayload m.payload)

theorem decode_bytes_append (m : Message) (rest : List UInt8) :
    decode (m.bytes ++ rest) = .ok m.packet := by
  rw [bytes, ← encode_sentPayload, decode_encode_append (sentPayload_lt m.payload)]
  rfl

theorem length_bytes (m : Message) :
    m.bytes.length = headerSize + m.packet.header.payloadSize.toNat := by
  have size := sentPayload_lt m.payload
  rw [bytes, ← encode_sentPayload, length_encode size]
  simp only [packet, ProtocolCodec.packet]
  rw [UInt32.toNat_ofNat_of_lt' size]

theorem bytes_ne_nil (m : Message) : m.bytes ≠ [] := by
  intro empty
  have length := m.length_bytes
  rw [empty, List.length_nil, headerSize] at length
  omega

theorem size_packet (m : Message) (short : m.payload.length < 2 ^ 32) :
    headerSize + m.packet.header.payloadSize.toNat = headerSize + m.payload.length := by
  rw [← m.length_bytes, bytes, length_encode short]

theorem totalPacketSize_packet (m : Message) (room : headerSize + m.payload.length < 2 ^ 32) :
    totalPacketSize m.packet = m.bytes.length := by
  rw [m.length_bytes]
  refine totalPacketSize_eq ?_
  rw [m.size_packet (by omega)]
  exact room

end Message

section Reading

variable (skipsGarbage : Bool)

theorem waits_on_cut {m : Message} {tail : List UInt8} (start : tail <+: m.bytes)
    (proper : tail ≠ m.bytes) : (packetReader skipsGarbage).inspect tail = .wait := by
  obtain ⟨missing, whole⟩ := start
  have read := m.decode_bytes_append []
  rw [List.append_nil, ← whole] at read
  cases h : (packetReader skipsGarbage).inspect tail with
  | wait => rfl
  | skip =>
    obtain ⟨-, rejected⟩ := (inspectPacket_eq_skip_iff _ _).mp h
    obtain rejected | rejected := rejected
    · simp [decode_append_error missing rejected (.inl rfl)] at read
    · simp [decode_append_error missing rejected (.inr rfl)] at read
  | item p =>
    have accepted := (inspectPacket_eq_item_iff _ _ _).mp h
    have long := ((packetReader skipsGarbage).item_bounds h).2
    rw [decode_append_ok missing accepted, Except.ok.injEq] at read
    have size := m.length_bytes
    rw [packetReader_size, read] at long
    rw [← whole, List.length_append] at size
    have none_missing : missing = [] := List.length_eq_zero_iff.mp (by omega)
    rw [none_missing, List.append_nil] at whole
    exact absurd whole proper

theorem drains_messages (ms : List Message) {tail : List UInt8}
    (waits : (packetReader skipsGarbage).inspect tail = .wait) :
    Drains (packetReader skipsGarbage) ((ms.map Message.bytes).flatten ++ tail)
      (ms.map Message.packet) tail := by
  refine drains_encodings (fun m more => ?_) (fun m => ?_) ms waits
  · rw [packetReader_inspect, inspectPacket_eq_item_iff]
    exact m.decode_bytes_append more
  · rw [m.length_bytes, packetReader_size]

theorem arrived_messages (ms : List Message) {arrived missing : List UInt8}
    (stream : arrived ++ missing = (ms.map Message.bytes).flatten) :
    ∃ now later tail, ms = now ++ later ∧ arrived = (now.map Message.bytes).flatten ++ tail ∧
      (packetReader skipsGarbage).inspect tail = .wait ∧
      tail ++ missing = (later.map Message.bytes).flatten := by
  induction ms generalizing arrived with
  | nil =>
    obtain ⟨rfl, rfl⟩ := List.append_eq_nil_iff.mp stream
    exact ⟨[], [], [], rfl, rfl, rfl, rfl⟩
  | cons m ms ih =>
    rw [List.map_cons, List.flatten_cons] at stream
    have start : arrived <+: m.bytes ++ (ms.map Message.bytes).flatten := ⟨missing, stream⟩
    by_cases short : arrived.length < m.bytes.length
    · have cut := List.prefix_of_prefix_length_le start (List.prefix_append _ _)
        (Nat.le_of_lt short)
      have proper : arrived ≠ m.bytes := fun same => by
        rw [same] at short
        exact Nat.lt_irrefl _ short
      exact ⟨[], m :: ms, arrived, rfl, rfl, waits_on_cut skipsGarbage cut proper, stream⟩
    · obtain ⟨more, rfl⟩ := List.prefix_of_prefix_length_le (List.prefix_append _ _) start
        (Nat.not_lt.mp short)
      rw [List.append_assoc, List.append_cancel_left_eq] at stream
      obtain ⟨now, later, tail, rfl, rfl, waits, rest⟩ := ih stream
      exact ⟨m :: now, later, tail, rfl, by simp, waits, rest⟩

end Reading

end RemoteAccess.PacketStream
