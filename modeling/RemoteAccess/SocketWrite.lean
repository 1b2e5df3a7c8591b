import RemoteAccess.AgentReceive
import RemoteAccess.QtText

/-! `socket.write(QByteArray(data, static_cast<int>(size)))` ends every sending site of the
two programs. From 2^31 bytes on the cast leaves less than a header of the encoding. -/

namespace RemoteAccess.SocketWrite

open ProtocolCodec PacketStream SealedMessage QtText

/-- A negative size makes Qt look for the terminating zero. -/
def qByteArray (data : List UInt8) (size : Int) : List UInt8 :=
  if size < 0 then data.takeWhile (· ≠ 0) else data.take size.toNat

def written (encoded : List UInt8) : List UInt8 := qByteArray encoded (intOfSize encoded.length)

theorem written_whole {encoded : List UInt8} (short : encoded.length < 2 ^ 31) :
    written encoded = encoded := by
  have whole : ¬ (encoded.length : Int) < 0 := by omega
  rw [written, qByteArray, intOfSize_eq short, if_neg whole, Int.toNat_natCast, List.take_length]

theorem length_bytes_lt (m : Message) : m.bytes.length < headerSize + 2 ^ 32 := by
  rw [m.length_bytes]
  exact Nat.add_lt_add_left m.packet.header.payloadSize.toNat_lt _

theorem length_takeWhile_bytes (m : Message) : (m.bytes.takeWhile (· ≠ 0)).length = 5 := by
  have start : ∃ rest, m.bytes = [0x30, 0x50, 0x41, 0x52, 1, 0] ++ rest :=
    ⟨_, by simp only [Message.bytes, encode, encodeHeader, List.append_assoc]; rfl⟩
  obtain ⟨rest, bytes⟩ := start
  rw [bytes]
  rfl

theorem intOfSize_long {n : Nat} (long : 2 ^ 31 ≤ n) (short : n < headerSize + 2 ^ 32) :
    intOfSize n < headerSize := by
  rw [intOfSize, BitVec.toInt_ofNat', Int.bmod_def]
  unfold headerSize at short ⊢
  split_ifs <;> omega

theorem length_written_lt {m : Message} (long : 2 ^ 31 ≤ m.bytes.length) :
    (written m.bytes).length < headerSize := by
  have size := intOfSize_long long (length_bytes_lt m)
  rw [written, qByteArray]
  split_ifs
  · rw [length_takeWhile_bytes]
    decide
  · refine Nat.lt_of_le_of_lt (List.length_take_le _ _) ?_
    omega

theorem written_eq_iff (m : Message) : written m.bytes = m.bytes ↔ m.bytes.length < 2 ^ 31 := by
  refine ⟨fun same => ?_, written_whole⟩
  by_contra long
  have short := length_written_lt (m := m) (Nat.le_of_not_lt long)
  rw [same, m.length_bytes] at short
  omega

/-! ### Sealed packets -/

def fits (m : Plain) : Prop := headerSize + (m.plaintext.length + CryptoEngine.tagSize) < 2 ^ 31

instance (m : Plain) : Decidable (fits m) := inferInstanceAs (Decidable (_ < _))

theorem room_of_fits {m : Plain} (whole : fits m) :
    m.plaintext.length + CryptoEngine.tagSize < 2 ^ 32 := by
  unfold fits at whole
  omega

def writes (oversized : Nat → UInt64) (packets : List Plain) : List UInt8 :=
  (packets.map fun m => written (m.message oversized).bytes).flatten

section Writes

variable (oversized : Nat → UInt64)

theorem writes_singleton (m : Plain) :
    writes oversized [m] = written (m.message oversized).bytes := by
  rw [writes, List.map_singleton, List.flatten_singleton]

theorem length_bytes_sealed {m : Plain}
    (room : m.plaintext.length + CryptoEngine.tagSize < 2 ^ 32) :
    (m.message oversized).bytes.length =
      headerSize + (m.plaintext.length + CryptoEngine.tagSize) := by
  have payload : (m.message oversized).payload.length =
      m.plaintext.length + CryptoEngine.tagSize :=
    length_sealPayload oversized m.seq m.plaintext
  rw [Message.length_bytes, Message.size_packet _ (payload ▸ room), payload]

theorem bytes_lt_iff {m : Plain} (room : m.plaintext.length + CryptoEngine.tagSize < 2 ^ 32) :
    (m.message oversized).bytes.length < 2 ^ 31 ↔ fits m := by
  rw [length_bytes_sealed oversized room, fits]

theorem writes_whole {packets : List Plain} (whole : ∀ m ∈ packets, fits m) :
    writes oversized packets = (packets.map fun m => (m.message oversized).bytes).flatten := by
  refine congrArg List.flatten (List.map_congr_left fun m member => written_whole ?_)
  exact (bytes_lt_iff oversized (room_of_fits (whole m member))).mpr (whole m member)

end Writes

/-! ### One delivery to the agent -/

theorem readyRead_short {σ : Type*} {handle : σ → Packet → σ} {fuel : Nat} (running : 0 < fuel)
    (agent : σ) {data : List UInt8} (short : data.length < headerSize) :
    AgentReceive.readyRead handle fuel agent data = some agent := by
  obtain ⟨fuel, rfl⟩ := Nat.exists_eq_add_of_le' running
  have stop : AgentReceive.readyReadStep handle (agent, data) = none := if_pos short
  rw [AgentReceive.readyRead, WhileLoop.run_exit _ stop]
  rfl

theorem readyRead_message {σ : Type*} {handle : σ → Packet → σ} {fuel : Nat} (enough : 1 < fuel)
    (agent : σ) {m : Message} (short : m.bytes.length < 2 ^ 31) :
    AgentReceive.readyRead handle fuel agent (written m.bytes) =
      some (handle agent m.packet) := by
  obtain ⟨fuel, rfl⟩ := Nat.exists_eq_add_of_le' enough
  have item : (packetReader false).inspect m.bytes = .item m.packet := by
    rw [packetReader_inspect, inspectPacket_eq_item_iff, ← List.append_nil m.bytes]
    exact m.decode_bytes_append []
  have size : (packetReader false).size m.packet = m.bytes.length := by
    rw [m.length_bytes, packetReader_size]
  obtain ⟨left, pass, removed⟩ := (AgentReceive.readyReadStep_follows handle).item agent item
  have empty : left = [] := by
    rw [removed (by omega), size, List.drop_length]
  have stop : AgentReceive.readyReadStep handle (handle agent m.packet, []) = none := rfl
  rw [written_whole short, AgentReceive.readyRead, WhileLoop.run_pass _ pass, empty,
    WhileLoop.run_exit _ stop]
  rfl

end RemoteAccess.SocketWrite
