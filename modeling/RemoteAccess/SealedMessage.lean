import RemoteAccess.CryptoEngine
import RemoteAccess.PacketStream

/-! What every sending site does, on both sides: the sequence number of the
packet, copied over twelve zero bytes, is the nonce; the plaintext is encrypted
under the session key both programs have built in; the result is encoded. -/

namespace RemoteAccess.SealedMessage

open LittleEndian CryptoEngine PacketStream ProtocolCodec

def sessionKey : List UInt8 :=
  [0x01, 0x02, 0x03, 0x04, 0x05, 0x06, 0x07, 0x08,
   0x09, 0x0A, 0x0B, 0x0C, 0x0D, 0x0E, 0x0F, 0x10,
   0x11, 0x12, 0x13, 0x14, 0x15, 0x16, 0x17, 0x18,
   0x19, 0x1A, 0x1B, 0x1C, 0x1D, 0x1E, 0x1F, 0x20]

/-- `memcpy(nonce.data(), &seq, sizeof(seq))` into twelve zero bytes. -/
def nonceOf (seq : UInt64) : List UInt8 := toBytes 8 seq.toNat ++ List.replicate 4 0

theorem length_sessionKey : sessionKey.length = keySize := rfl

theorem length_nonceOf (seq : UInt64) : (nonceOf seq).length = nonceSize := by
  rw [nonceOf, List.length_append, length_toBytes, List.length_replicate]
  rfl

theorem nonceOf_injective {seq seq' : UInt64} (same : nonceOf seq = nonceOf seq') :
    seq = seq' := by
  have bytes := List.append_cancel_right same
  exact UInt64.toNat_inj.mp (toBytes_injective seq.toNat_lt seq'.toNat_lt bytes)

/-- `encryptPayload` throws on a key or nonce of the wrong size only, so here it
always returns. -/
def sealPayload (oversized : Nat → UInt64) (seq : UInt64) (plaintext : List UInt8) :
    { c // encryptPayload oversized plaintext sessionKey (nonceOf seq) = .ok c } :=
  ⟨_, encryptPayload_eq oversized length_sessionKey (length_nonceOf seq) plaintext⟩

/-- What one sending site encrypts and under which header. -/
structure Plain where
  type : PayloadType
  seq : UInt64
  timestampMs : UInt64
  plaintext : List UInt8
deriving DecidableEq, Repr

variable (oversized : Nat → UInt64)

def Plain.message (m : Plain) : Message where
  type := m.type
  sequenceNumber := m.seq
  timestampMs := m.timestampMs
  payload := (sealPayload oversized m.seq m.plaintext).val

theorem length_sealPayload (seq : UInt64) (plaintext : List UInt8) :
    (sealPayload oversized seq plaintext).val.length = plaintext.length + tagSize := by
  simp [sealPayload]

theorem open_sealPayload (seq : UInt64) (plaintext : List UInt8) :
    decryptPayload oversized (sealPayload oversized seq plaintext).val sessionKey (nonceOf seq) =
      some plaintext :=
  decryptPayload_encryptPayload oversized length_sessionKey (length_nonceOf seq)
    (sealPayload oversized seq plaintext).property

theorem packet_message (m : Plain) (fits : m.plaintext.length + tagSize < 2 ^ 32) :
    (m.message oversized).packet = ProtocolCodec.packet m.type m.seq m.timestampMs
      (sealPayload oversized m.seq m.plaintext).val := by
  have short : (sealPayload oversized m.seq m.plaintext).val.length < 2 ^ 32 := by
    rwa [length_sealPayload]
  rw [Message.packet, Plain.message, sentPayload_eq short]

end RemoteAccess.SealedMessage
