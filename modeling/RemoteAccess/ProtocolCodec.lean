import Mathlib.Data.List.Infix
import RemoteAccess.Basics.LittleEndian

/-! The C++ packet codec. `encode` and `decode` are `ProtocolCodec::encode` and
`ProtocolCodec::decode` on byte lists: every field is a `memcpy` on a
little-endian host, `ptr` is the rest of the buffer, and the width of `size_t`
is a parameter of `decodeOn` because the length check is done in it. -/

namespace RemoteAccess.ProtocolCodec

open LittleEndian

def magicHeader : UInt32 := 0x52415030
def protocolVersion : UInt16 := 1
def headerSize : Nat := 4 + 2 + 2 + 8 + 8 + 4

/-- An `enum class` over `uint16_t`: any 16-bit value can be cast to it, the
named ones are the constants below. -/
structure PayloadType where
  code : UInt16
deriving DecidableEq, Repr

namespace PayloadType

def unspecified : PayloadType := ⟨0⟩
def handshakeReq : PayloadType := ⟨1⟩
def handshakeResp : PayloadType := ⟨2⟩
def frameHeader : PayloadType := ⟨3⟩
def inputEvent : PayloadType := ⟨4⟩
def heartbeat : PayloadType := ⟨5⟩
def clipboardData : PayloadType := ⟨6⟩
def fileTransferRequest : PayloadType := ⟨7⟩
def fileTransferResponse : PayloadType := ⟨8⟩
def fileChunkPayload : PayloadType := ⟨9⟩
def fileTransferControl : PayloadType := ⟨10⟩
def directoryListRequest : PayloadType := ⟨11⟩
def directoryListResponse : PayloadType := ⟨12⟩
def authRequest : PayloadType := ⟨13⟩
def authResponse : PayloadType := ⟨14⟩
def sessionControl : PayloadType := ⟨15⟩
def audioFrame : PayloadType := ⟨16⟩
def terminalData : PayloadType := ⟨17⟩

end PayloadType

inductive ParseError
  | none
  | invalidMagicHeader
  | unsupportedVersion
  | incompleteHeader
  | incompletePayload
  | corruptedPayload
deriving DecidableEq, Repr

structure PacketHeader where
  magic : UInt32 := magicHeader
  version : UInt16 := protocolVersion
  type : PayloadType := .unspecified
  sequenceNumber : UInt64 := 0
  timestampMs : UInt64 := 0
  payloadSize : UInt32 := 0
deriving DecidableEq, Repr

structure Packet where
  header : PacketHeader
  payload : List UInt8
deriving DecidableEq, Repr

abbrev ParseResult := Except ParseError Packet

/-- The 28 bytes that precede the payload. -/
def encodeHeader (type : PayloadType) (sequenceNumber timestampMs : UInt64)
    (payloadSize : UInt32) : List UInt8 :=
  toBytes 4 magicHeader.toNat ++ toBytes 2 protocolVersion.toNat ++ toBytes 2 type.code.toNat ++
    toBytes 8 sequenceNumber.toNat ++ toBytes 8 timestampMs.toNat ++ toBytes 4 payloadSize.toNat

/-- The size field is the payload length cast to 32 bits, and that many bytes
of the payload are copied behind the header. -/
def encode (type : PayloadType) (sequenceNumber timestampMs : UInt64)
    (payload : List UInt8) : List UInt8 :=
  let payloadSize := UInt32.ofNat payload.length
  encodeHeader type sequenceNumber timestampMs payloadSize ++ payload.take payloadSize.toNat

def decodeOn (sizeBits : Nat) (data : List UInt8) : ParseResult :=
  if data.length < headerSize then .error .incompleteHeader else
  let ptr := data
  let magic := UInt32.ofNat (toNat (ptr.take 4))
  let ptr := ptr.drop 4
  if magic ≠ magicHeader then .error .invalidMagicHeader else
  let version := UInt16.ofNat (toNat (ptr.take 2))
  let ptr := ptr.drop 2
  if version ≠ protocolVersion then .error .unsupportedVersion else
  let typeVal := UInt16.ofNat (toNat (ptr.take 2))
  let ptr := ptr.drop 2
  let sequenceNumber := UInt64.ofNat (toNat (ptr.take 8))
  let ptr := ptr.drop 8
  let timestampMs := UInt64.ofNat (toNat (ptr.take 8))
  let ptr := ptr.drop 8
  let payloadSize := UInt32.ofNat (toNat (ptr.take 4))
  let ptr := ptr.drop 4
  -- `HEADER_SIZE + payloadSize` is evaluated in `size_t`
  if data.length < (headerSize + payloadSize.toNat) % 2 ^ sizeBits then
    .error .incompletePayload
  else
    .ok
      { header :=
          { magic := magic
            version := version
            type := ⟨typeVal⟩
            sequenceNumber := sequenceNumber
            timestampMs := timestampMs
            payloadSize := payloadSize }
        payload := ptr.take payloadSize.toNat }

/-- Decoding on a host whose `size_t` has 64 bits. -/
def decode (data : List UInt8) : ParseResult := decodeOn 64 data

/-! ### The header, field by field -/

def magicOf (data : List UInt8) : UInt32 := UInt32.ofNat (word 0 4 data)
def versionOf (data : List UInt8) : UInt16 := UInt16.ofNat (word 4 2 data)
def typeOf (data : List UInt8) : PayloadType := ⟨UInt16.ofNat (word 6 2 data)⟩
def sequenceNumberOf (data : List UInt8) : UInt64 := UInt64.ofNat (word 8 8 data)
def timestampOf (data : List UInt8) : UInt64 := UInt64.ofNat (word 16 8 data)
def payloadSizeOf (data : List UInt8) : UInt32 := UInt32.ofNat (word 24 4 data)

/-- A whole header with the right magic and version. -/
structure HeaderOk (data : List UInt8) : Prop where
  size : headerSize ≤ data.length
  magic : magicOf data = magicHeader
  version : versionOf data = protocolVersion

def packetOf (data : List UInt8) : Packet where
  header :=
    { magic := magicOf data
      version := versionOf data
      type := typeOf data
      sequenceNumber := sequenceNumberOf data
      timestampMs := timestampOf data
      payloadSize := payloadSizeOf data }
  payload := (data.drop headerSize).take (payloadSizeOf data).toNat

theorem decodeOn_eq (sizeBits : Nat) (data : List UInt8) :
    decodeOn sizeBits data =
      if data.length < headerSize then .error .incompleteHeader
      else if magicOf data ≠ magicHeader then .error .invalidMagicHeader
      else if versionOf data ≠ protocolVersion then .error .unsupportedVersion
      else if data.length < (headerSize + (payloadSizeOf data).toNat) % 2 ^ sizeBits then
        .error .incompletePayload
      else .ok (packetOf data) := by
  simp only [decodeOn, packetOf, magicOf, versionOf, typeOf, sequenceNumberOf, timestampOf,
    payloadSizeOf, word, headerSize, List.drop_drop, List.drop_zero, Nat.reduceAdd]

theorem decode_eq (data : List UInt8) :
    decode data =
      if data.length < headerSize then .error .incompleteHeader
      else if magicOf data ≠ magicHeader then .error .invalidMagicHeader
      else if versionOf data ≠ protocolVersion then .error .unsupportedVersion
      else if data.length < headerSize + (payloadSizeOf data).toNat then .error .incompletePayload
      else .ok (packetOf data) := by
  have room : headerSize + (payloadSizeOf data).toNat < 2 ^ 64 := by
    have := (payloadSizeOf data).toNat_lt
    simp only [headerSize]
    omega
  rw [decode, decodeOn_eq, Nat.mod_eq_of_lt room]

@[simp] theorem length_encodeHeader (type : PayloadType) (sequenceNumber timestampMs : UInt64)
    (payloadSize : UInt32) :
    (encodeHeader type sequenceNumber timestampMs payloadSize).length = headerSize := by
  simp [encodeHeader, headerSize]

section Fields

variable (type : PayloadType) (sequenceNumber timestampMs : UInt64) (payloadSize : UInt32)
  (body : List UInt8)

theorem magicOf_header :
    magicOf (encodeHeader type sequenceNumber timestampMs payloadSize ++ body) = magicHeader := by
  simp only [magicOf, encodeHeader, List.append_assoc, word_toBytes]
  rfl

theorem versionOf_header :
    versionOf (encodeHeader type sequenceNumber timestampMs payloadSize ++ body) =
      protocolVersion := by
  simp only [versionOf, encodeHeader, List.append_assoc]
  rw [word_append_right _ (by simp)]
  simp only [length_toBytes, Nat.reduceSub, word_toBytes]
  rfl

theorem typeOf_header :
    typeOf (encodeHeader type sequenceNumber timestampMs payloadSize ++ body) = type := by
  simp only [typeOf, encodeHeader, List.append_assoc]
  rw [word_append_right _ (by simp), word_append_right _ (by simp)]
  simp only [length_toBytes, Nat.reduceSub, word_toBytes]
  rw [Nat.mod_eq_of_lt (show _ < 256 ^ 2 from type.code.toNat_lt), UInt16.ofNat_toNat]

theorem sequenceNumberOf_header :
    sequenceNumberOf (encodeHeader type sequenceNumber timestampMs payloadSize ++ body) =
      sequenceNumber := by
  simp only [sequenceNumberOf, encodeHeader, List.append_assoc]
  rw [word_append_right _ (by simp), word_append_right _ (by simp), word_append_right _ (by simp)]
  simp only [length_toBytes, Nat.reduceSub, word_toBytes]
  rw [Nat.mod_eq_of_lt (show _ < 256 ^ 8 from sequenceNumber.toNat_lt), UInt64.ofNat_toNat]

theorem timestampOf_header :
    timestampOf (encodeHeader type sequenceNumber timestampMs payloadSize ++ body) =
      timestampMs := by
  simp only [timestampOf, encodeHeader, List.append_assoc]
  rw [word_append_right _ (by simp), word_append_right _ (by simp), word_append_right _ (by simp),
    word_append_right _ (by simp)]
  simp only [length_toBytes, Nat.reduceSub, word_toBytes]
  rw [Nat.mod_eq_of_lt (show _ < 256 ^ 8 from timestampMs.toNat_lt), UInt64.ofNat_toNat]

theorem payloadSizeOf_header :
    payloadSizeOf (encodeHeader type sequenceNumber timestampMs payloadSize ++ body) =
      payloadSize := by
  simp only [payloadSizeOf, encodeHeader, List.append_assoc]
  rw [word_append_right _ (by simp), word_append_right _ (by simp), word_append_right _ (by simp),
    word_append_right _ (by simp), word_append_right _ (by simp)]
  simp only [length_toBytes, Nat.reduceSub, word_toBytes]
  rw [Nat.mod_eq_of_lt (show _ < 256 ^ 4 from payloadSize.toNat_lt), UInt32.ofNat_toNat]

theorem headerOk_header :
    HeaderOk (encodeHeader type sequenceNumber timestampMs payloadSize ++ body) where
  size := by simp
  magic := magicOf_header type sequenceNumber timestampMs payloadSize body
  version := versionOf_header type sequenceNumber timestampMs payloadSize body

end Fields

theorem HeaderOk.split {data : List UInt8} (ok : HeaderOk data) :
    data = encodeHeader (typeOf data) (sequenceNumberOf data) (timestampOf data)
      (payloadSizeOf data) ++ data.drop headerSize := by
  have size : 28 ≤ data.length := ok.size
  have slices : data = data.take 4 ++ ((data.drop 4).take 2 ++ ((data.drop 6).take 2 ++
      ((data.drop 8).take 8 ++ ((data.drop 16).take 8 ++ ((data.drop 24).take 4 ++
        data.drop 28))))) := by
    conv_lhs => rw [← List.take_append_drop 4 data, ← List.take_append_drop 2 (data.drop 4),
      List.drop_drop, ← List.take_append_drop 2 (data.drop 6), List.drop_drop,
      ← List.take_append_drop 8 (data.drop 8), List.drop_drop,
      ← List.take_append_drop 8 (data.drop 16), List.drop_drop,
      ← List.take_append_drop 4 (data.drop 24), List.drop_drop]
  have magic : toBytes 4 magicHeader.toNat = data.take 4 := by
    rw [← ok.magic, magicOf, UInt32.toNat_ofNat_of_lt' (word_lt 0 4 data)]
    exact toBytes_word (by omega)
  have version : toBytes 2 protocolVersion.toNat = (data.drop 4).take 2 := by
    rw [← ok.version, versionOf, UInt16.toNat_ofNat_of_lt' (word_lt 4 2 data)]
    exact toBytes_word (by omega)
  simp only [encodeHeader, typeOf, sequenceNumberOf, timestampOf, payloadSizeOf, magic, version]
  rw [UInt16.toNat_ofNat_of_lt' (word_lt 6 2 data), UInt64.toNat_ofNat_of_lt' (word_lt 8 8 data),
    UInt64.toNat_ofNat_of_lt' (word_lt 16 8 data), UInt32.toNat_ofNat_of_lt' (word_lt 24 4 data),
    toBytes_word (by omega), toBytes_word (by omega), toBytes_word (by omega),
    toBytes_word (by omega)]
  simpa only [List.append_assoc, headerSize] using slices

/-! ### What is accepted -/

theorem decode_cases (data : List UInt8) :
    data.length < headerSize ∧ decode data = .error .incompleteHeader ∨
    (headerSize ≤ data.length ∧ magicOf data ≠ magicHeader) ∧
      decode data = .error .invalidMagicHeader ∨
    (headerSize ≤ data.length ∧ magicOf data = magicHeader ∧ versionOf data ≠ protocolVersion) ∧
      decode data = .error .unsupportedVersion ∨
    (HeaderOk data ∧ data.length < headerSize + (payloadSizeOf data).toNat) ∧
      decode data = .error .incompletePayload ∨
    (HeaderOk data ∧ headerSize + (payloadSizeOf data).toNat ≤ data.length) ∧
      decode data = .ok (packetOf data) := by
  rw [decode_eq]
  by_cases short : data.length < headerSize
  · exact .inl ⟨short, if_pos short⟩
  refine .inr ?_
  rw [if_neg short]
  have whole : headerSize ≤ data.length := by omega
  by_cases magic : magicOf data = magicHeader
  · refine .inr ?_
    rw [if_neg (not_not.mpr magic)]
    by_cases version : versionOf data = protocolVersion
    · refine .inr ?_
      have ok : HeaderOk data := ⟨whole, magic, version⟩
      rw [if_neg (not_not.mpr version)]
      by_cases size : data.length < headerSize + (payloadSizeOf data).toNat
      · exact .inl ⟨⟨ok, size⟩, if_pos size⟩
      · exact .inr ⟨⟨ok, by omega⟩, if_neg size⟩
    · exact .inl ⟨⟨whole, magic, version⟩, if_pos version⟩
  · exact .inl ⟨⟨whole, magic⟩, if_pos magic⟩

theorem decode_eq_ok_iff (data : List UInt8) (p : Packet) :
    decode data = .ok p ↔ HeaderOk data ∧
      headerSize + (payloadSizeOf data).toNat ≤ data.length ∧ p = packetOf data := by
  constructor
  · intro accepted
    obtain ⟨-, h⟩ | ⟨-, h⟩ | ⟨-, h⟩ | ⟨-, h⟩ | ⟨⟨ok, size⟩, h⟩ := decode_cases data <;>
      rw [h] at accepted
    · cases accepted
    · cases accepted
    · cases accepted
    · cases accepted
    · exact ⟨ok, size, (Except.ok.inj accepted).symm⟩
  · rintro ⟨⟨whole, magic, version⟩, size, rfl⟩
    rw [decode_eq, if_neg (by omega), if_neg (by simpa), if_neg (by simpa), if_neg (by omega)]

theorem decode_eq_error_iff (data : List UInt8) (e : ParseError) :
    decode data = .error e ↔
      e = .incompleteHeader ∧ data.length < headerSize ∨
      e = .invalidMagicHeader ∧ headerSize ≤ data.length ∧ magicOf data ≠ magicHeader ∨
      e = .unsupportedVersion ∧ headerSize ≤ data.length ∧ magicOf data = magicHeader ∧
        versionOf data ≠ protocolVersion ∨
      e = .incompletePayload ∧ HeaderOk data ∧
        data.length < headerSize + (payloadSizeOf data).toNat := by
  constructor
  · intro rejected
    obtain ⟨why, h⟩ | ⟨why, h⟩ | ⟨why, h⟩ | ⟨why, h⟩ | ⟨-, h⟩ := decode_cases data <;>
      rw [h] at rejected <;> cases rejected
    · exact .inl ⟨rfl, why⟩
    · exact .inr (.inl ⟨rfl, why⟩)
    · exact .inr (.inr (.inl ⟨rfl, why⟩))
    · exact .inr (.inr (.inr ⟨rfl, why⟩))
  · rw [decode_eq]
    rintro (⟨rfl, short⟩ | ⟨rfl, whole, magic⟩ | ⟨rfl, whole, magic, version⟩ |
      ⟨rfl, ⟨whole, magic, version⟩, size⟩)
    · rw [if_pos short]
    · rw [if_neg (by omega), if_pos magic]
    · rw [if_neg (by omega), if_neg (by simpa), if_pos version]
    · rw [if_neg (by omega), if_neg (by simpa), if_neg (by simpa), if_pos size]

/-! ### Growing buffers -/

section Extension

variable {data : List UInt8} (more : List UInt8) (whole : headerSize ≤ data.length)
include whole

theorem magicOf_append : magicOf (data ++ more) = magicOf data := by
  simp only [headerSize] at whole
  rw [magicOf, word_append_left _ (by omega), magicOf]

theorem versionOf_append : versionOf (data ++ more) = versionOf data := by
  simp only [headerSize] at whole
  rw [versionOf, word_append_left _ (by omega), versionOf]

theorem payloadSizeOf_append : payloadSizeOf (data ++ more) = payloadSizeOf data := by
  simp only [headerSize] at whole
  rw [payloadSizeOf, word_append_left _ (by omega), payloadSizeOf]

end Extension

theorem HeaderOk.append {data : List UInt8} (ok : HeaderOk data) (more : List UInt8) :
    HeaderOk (data ++ more) where
  size := by
    have := ok.size
    rw [List.length_append]
    omega
  magic := (magicOf_append more ok.size).trans ok.magic
  version := (versionOf_append more ok.size).trans ok.version

/-! ### Encodings -/

theorem length_encode {type : PayloadType} {sequenceNumber timestampMs : UInt64}
    {payload : List UInt8} (short : payload.length < 2 ^ 32) :
    (encode type sequenceNumber timestampMs payload).length = headerSize + payload.length := by
  have size : (UInt32.ofNat payload.length).toNat = payload.length :=
    UInt32.toNat_ofNat_of_lt' short
  simp only [encode, List.length_append, length_encodeHeader, size, List.take_length]

theorem encode_eq {type : PayloadType} {sequenceNumber timestampMs : UInt64}
    {payload : List UInt8} (short : payload.length < 2 ^ 32) :
    encode type sequenceNumber timestampMs payload =
      encodeHeader type sequenceNumber timestampMs (UInt32.ofNat payload.length) ++ payload := by
  rw [encode, UInt32.toNat_ofNat_of_lt' short, List.take_length]

/-- The packet whose fields are written out by `encode`. -/
def packet (type : PayloadType) (sequenceNumber timestampMs : UInt64)
    (payload : List UInt8) : Packet where
  header :=
    { type := type
      sequenceNumber := sequenceNumber
      timestampMs := timestampMs
      payloadSize := UInt32.ofNat payload.length }
  payload := payload

theorem decode_encode_append {type : PayloadType} {sequenceNumber timestampMs : UInt64}
    {payload : List UInt8} (short : payload.length < 2 ^ 32) (rest : List UInt8) :
    decode (encode type sequenceNumber timestampMs payload ++ rest) =
      .ok (packet type sequenceNumber timestampMs payload) := by
  have size : (UInt32.ofNat payload.length).toNat = payload.length :=
    UInt32.toNat_ofNat_of_lt' short
  rw [encode_eq short, List.append_assoc, decode_eq_ok_iff]
  refine ⟨headerOk_header .., ?_, ?_⟩
  · rw [payloadSizeOf_header, size, List.length_append, List.length_append, length_encodeHeader]
    omega
  · rw [packetOf, magicOf_header, versionOf_header, typeOf_header, sequenceNumberOf_header,
      timestampOf_header, payloadSizeOf_header, size,
      List.drop_append_of_le_length (by rw [length_encodeHeader]),
      List.drop_of_length_le (by rw [length_encodeHeader]), List.nil_append,
      List.take_left, packet]

/-- The part of the payload that `encode` copies: past 2^32 bytes the size field
wraps, and only so much is sent. -/
def sentPayload (payload : List UInt8) : List UInt8 :=
  payload.take (UInt32.ofNat payload.length).toNat

theorem length_sentPayload (payload : List UInt8) :
    (sentPayload payload).length = (UInt32.ofNat payload.length).toNat := by
  have le : (UInt32.ofNat payload.length).toNat ≤ payload.length := by
    rw [UInt32.toNat_ofNat']
    exact Nat.mod_le _ _
  rw [sentPayload, List.length_take, min_eq_left le]

theorem sentPayload_lt (payload : List UInt8) : (sentPayload payload).length < 2 ^ 32 := by
  rw [length_sentPayload]
  exact UInt32.toNat_lt _

theorem sentPayload_eq {payload : List UInt8} (short : payload.length < 2 ^ 32) :
    sentPayload payload = payload := by
  rw [sentPayload, UInt32.toNat_ofNat_of_lt' short, List.take_length]

theorem encode_sentPayload (type : PayloadType) (sequenceNumber timestampMs : UInt64)
    (payload : List UInt8) :
    encode type sequenceNumber timestampMs (sentPayload payload) =
      encode type sequenceNumber timestampMs payload := by
  rw [encode_eq (sentPayload_lt payload), length_sentPayload, UInt32.ofNat_toNat]
  rfl

theorem encode_of_decode {data : List UInt8} {p : Packet} (accepted : decode data = .ok p) :
    p.header.magic = magicHeader ∧ p.header.version = protocolVersion ∧
      p.payload.length = p.header.payloadSize.toNat ∧
      data = encode p.header.type p.header.sequenceNumber p.header.timestampMs p.payload ++
        data.drop (headerSize + p.header.payloadSize.toNat) := by
  obtain ⟨ok, size, rfl⟩ := (decode_eq_ok_iff data p).mp accepted
  have length : (packetOf data).payload.length = (payloadSizeOf data).toNat := by
    simp only [packetOf, List.length_take, List.length_drop]
    omega
  refine ⟨ok.magic, ok.version, length, ?_⟩
  have short : (packetOf data).payload.length < 2 ^ 32 := by
    rw [length]
    exact (payloadSizeOf data).toNat_lt
  rw [encode_eq short, length, UInt32.ofNat_toNat]
  conv_lhs => rw [ok.split, ← List.take_append_drop (payloadSizeOf data).toNat
    (data.drop headerSize), List.drop_drop]
  simp only [packetOf, List.append_assoc]

theorem eq_packet_of_decode {data : List UInt8} {p : Packet} (accepted : decode data = .ok p) :
    p.payload.length < 2 ^ 32 ∧ p = packet p.header.type p.header.sequenceNumber
      p.header.timestampMs p.payload := by
  obtain ⟨magic, version, length, -⟩ := encode_of_decode accepted
  have size : UInt32.ofNat p.payload.length = p.header.payloadSize := by
    rw [length, UInt32.ofNat_toNat]
  refine ⟨by rw [length]; exact p.header.payloadSize.toNat_lt, ?_⟩
  rw [packet, size, ← magic, ← version]

theorem decode_append_ok {data : List UInt8} {p : Packet} (more : List UInt8)
    (accepted : decode data = .ok p) : decode (data ++ more) = .ok p := by
  obtain ⟨short, known⟩ := eq_packet_of_decode accepted
  rw [(encode_of_decode accepted).2.2.2, List.append_assoc, decode_encode_append short, ← known]

theorem decode_append_error {data : List UInt8} {e : ParseError} (more : List UInt8)
    (rejected : decode data = .error e)
    (final : e = .invalidMagicHeader ∨ e = .unsupportedVersion) :
    decode (data ++ more) = .error e := by
  rw [decode_eq_error_iff] at rejected ⊢
  have longer : data.length ≤ (data ++ more).length := by
    rw [List.length_append]
    omega
  obtain ⟨rfl, -⟩ | ⟨rfl, whole, magic⟩ | ⟨rfl, whole, magic, version⟩ | ⟨rfl, -⟩ := rejected
  · simp at final
  · exact .inr (.inl ⟨rfl, whole.trans longer, by rwa [magicOf_append more whole]⟩)
  · refine .inr (.inr (.inl ⟨rfl, whole.trans longer, ?_, ?_⟩))
    · rwa [magicOf_append more whole]
    · rwa [versionOf_append more whole]
  · simp at final

theorem HeaderOk.exists_completion {data : List UInt8} (ok : HeaderOk data) :
    ∃ more p, decode (data ++ more) = .ok p := by
  refine ⟨List.replicate (payloadSizeOf data).toNat 0, _,
    (decode_eq_ok_iff _ _).mpr ⟨ok.append _, ?_, rfl⟩⟩
  have whole := ok.size
  rw [payloadSizeOf_append _ whole, List.length_append, List.length_replicate]
  omega

theorem encode_injective {type type' : PayloadType}
    {sequenceNumber sequenceNumber' timestampMs timestampMs' : UInt64}
    {payload payload' rest rest' : List UInt8}
    (short : payload.length < 2 ^ 32) (short' : payload'.length < 2 ^ 32)
    (same : encode type sequenceNumber timestampMs payload ++ rest =
      encode type' sequenceNumber' timestampMs' payload' ++ rest') :
    packet type sequenceNumber timestampMs payload =
      packet type' sequenceNumber' timestampMs' payload' := by
  have left : decode (encode type' sequenceNumber' timestampMs' payload' ++ rest') =
      .ok (packet type sequenceNumber timestampMs payload) := by
    rw [← same, decode_encode_append short]
  rw [decode_encode_append short'] at left
  exact (Except.ok.inj left).symm

theorem encode_eq_of_prefix {type type' : PayloadType}
    {sequenceNumber sequenceNumber' timestampMs timestampMs' : UInt64}
    {payload payload' : List UInt8}
    (start : encode type sequenceNumber timestampMs payload <+:
      encode type' sequenceNumber' timestampMs' payload') :
    encode type sequenceNumber timestampMs payload =
      encode type' sequenceNumber' timestampMs' payload' := by
  obtain ⟨rest, same⟩ := start
  rw [← encode_sentPayload _ _ _ payload, ← encode_sentPayload _ _ _ payload',
    ← List.append_nil (encode type' _ _ _)] at same
  have packets := encode_injective (sentPayload_lt payload) (sentPayload_lt payload') same
  simp only [packet, Packet.mk.injEq, PacketHeader.mk.injEq] at packets
  obtain ⟨⟨-, -, rfl, rfl, rfl, -⟩, sent⟩ := packets
  rw [← encode_sentPayload, sent, encode_sentPayload]

theorem decode_eq_incompletePayload_iff (data : List UInt8) :
    decode data = .error .incompletePayload ↔
      HeaderOk data ∧ data.length < headerSize + (payloadSizeOf data).toNat := by
  rw [decode_eq_error_iff]
  simp

/-- `decode` inverts `encode` exactly, whatever follows; its decisions other
than "too few bytes" stand when more bytes arrive. -/
theorem decode_exact :
    (∀ (d : List UInt8) (p : Packet), decode d = .ok p ↔
      p.header.magic = magicHeader ∧ p.header.version = protocolVersion ∧
      p.payload.length = p.header.payloadSize.toNat ∧ p.header.payloadSize.toNat < 2 ^ 32 ∧
      ∃ rest, d = encode p.header.type p.header.sequenceNumber p.header.timestampMs p.payload ++
        rest) ∧
    (∀ (type type' : PayloadType) (seq seq' ts ts' : UInt64) (payload payload' : List UInt8),
      encode type seq ts payload <+: encode type' seq' ts' payload' →
        encode type seq ts payload = encode type' seq' ts' payload') ∧
    (∀ (d more : List UInt8), (∀ p, decode d = .ok p → decode (d ++ more) = .ok p) ∧
      (decode d = .error .invalidMagicHeader → decode (d ++ more) = .error .invalidMagicHeader) ∧
      (decode d = .error .unsupportedVersion → decode (d ++ more) = .error .unsupportedVersion)) ∧
    (∀ d : List UInt8, decode d = .error .incompletePayload ↔
      ∃ (type : PayloadType) (seq ts : UInt64) (payloadSize : UInt32) (body : List UInt8),
        d = encodeHeader type seq ts payloadSize ++ body ∧ body.length < payloadSize.toNat) ∧
    (∀ d : List UInt8, decode d = .error .incompletePayload →
      ∃ more p, decode (d ++ more) = .ok p) := by
  refine ⟨fun d p => ⟨fun accepted => ?_, ?_⟩, ?_, fun d more => ⟨?_, ?_, ?_⟩,
    fun d => ⟨fun rejected => ?_, ?_⟩, fun d rejected => ?_⟩
  · obtain ⟨magic, version, length, bytes⟩ := encode_of_decode accepted
    exact ⟨magic, version, length, p.header.payloadSize.toNat_lt, _, bytes⟩
  · rintro ⟨magic, version, length, size, rest, rfl⟩
    rw [decode_encode_append (by omega), packet, ← magic, ← version, length, UInt32.ofNat_toNat]
  · intro type type' seq seq' ts ts' payload payload' start
    exact encode_eq_of_prefix start
  · exact fun p accepted => decode_append_ok more accepted
  · exact fun rejected => decode_append_error more rejected (.inl rfl)
  · exact fun rejected => decode_append_error more rejected (.inr rfl)
  · obtain ⟨ok, few⟩ := (decode_eq_incompletePayload_iff d).mp rejected
    have whole := ok.size
    exact ⟨_, _, _, _, _, ok.split, by rw [List.length_drop]; omega⟩
  · rintro ⟨type, seq, ts, payloadSize, body, rfl, few⟩
    refine (decode_eq_incompletePayload_iff _).mpr ⟨headerOk_header .., ?_⟩
    rw [payloadSizeOf_header, List.length_append, length_encodeHeader]
    omega
  · exact ((decode_eq_incompletePayload_iff d).mp rejected).1.exists_completion

end RemoteAccess.ProtocolCodec
