import RemoteAccess.ProtocolCodec

/-! The packet functions of `rap_mobile_c_api.cpp`. A pointer is null or the bytes it can
be used for; what a function writes through its pointers is part of its result. `malloc`
is taken to succeed. -/

namespace RemoteAccess.MobileApi

open ProtocolCodec

/-- `rap_c_packet_t`. -/
structure CPacket where
  payloadType : UInt32
  sequenceNum : UInt64
  timestampMs : UInt64
  payloadData : Option (List UInt8)
  payloadSize : Nat
deriving DecidableEq

/-- The arguments of `rap_mobile_encode_packet`, with what the caller promises of the
memory behind its pointers. -/
structure EncodeArgs where
  payloadType : UInt32
  sequenceNum : UInt64
  timestampMs : UInt64
  payloadData : Option (List UInt8)
  payloadLen : Nat
  outBuf : Option (List UInt8)
  maxOutLen : Nat
  writtenLen : Option Nat
  readable : ∀ bytes, payloadData = some bytes → payloadLen ≤ bytes.length
  writable : ∀ bytes, outBuf = some bytes → maxOutLen ≤ bytes.length

/-- The value returned, and what is behind `out_buf` and `written_len` then. -/
structure Encoded where
  code : Int32
  outBuf : Option (List UInt8)
  writtenLen : Option Nat
deriving DecidableEq

/-- `static_cast<PayloadType>` of a `uint32_t` keeps the low 16 bits. -/
def castPayloadType (payloadType : UInt32) : PayloadType := ⟨payloadType.toUInt16⟩

def EncodeArgs.payloadVec (a : EncodeArgs) : List UInt8 :=
  match a.payloadData with
  | some bytes => if 0 < a.payloadLen then bytes.take a.payloadLen else []
  | none => []

def rapMobileEncodePacket (a : EncodeArgs) : Encoded :=
  match a.outBuf, a.writtenLen with
  | some outBuf, some _ =>
    let encoded := encode (castPayloadType a.payloadType) a.sequenceNum a.timestampMs a.payloadVec
    if a.maxOutLen < encoded.length then ⟨-2, a.outBuf, a.writtenLen⟩
    else ⟨0, some (encoded ++ outBuf.drop encoded.length), some encoded.length⟩
  | _, _ => ⟨-1, a.outBuf, a.writtenLen⟩

/-- The value returned, and what is behind `out_packet` then. -/
def rapMobileDecodePacket (sizeBits : Nat) (inBuf : Option (List UInt8)) (inLen : Nat)
    (outPacket : Option CPacket) : Int32 × Option CPacket :=
  match inBuf, outPacket with
  | some bytes, some _ =>
    if inLen < 28 then (-1, outPacket) else
    match decodeOn sizeBits (bytes.take inLen) with
    | .error _ => (-2, outPacket)
    | .ok pkt =>
      (0, some
        { payloadType := pkt.header.type.code.toUInt32
          sequenceNum := pkt.header.sequenceNumber
          timestampMs := pkt.header.timestampMs
          payloadData := if pkt.payload = [] then none else some pkt.payload
          payloadSize := pkt.payload.length })
  | _, _ => (-1, outPacket)

/-! ### Encoding and decoding back -/

def EncodeArgs.payload (a : EncodeArgs) : List UInt8 :=
  (a.payloadData.getD []).take a.payloadLen

structure EncodeArgs.Given (a : EncodeArgs) (p : CPacket) : Prop where
  payloadType : p.payloadType = a.payloadType
  sequenceNum : p.sequenceNum = a.sequenceNum
  timestampMs : p.timestampMs = a.timestampMs
  payloadSize : p.payloadSize = a.payloadLen
  payload : p.payloadData.getD [] = a.payload

/-- Success means that the bytes written decode to what was given, and an error that
nothing was written. -/
structure Faithful (a : EncodeArgs) : Prop where
  decodesBack : (rapMobileEncodePacket a).code = 0 →
    ∃ outBuf written, (rapMobileEncodePacket a).outBuf = some outBuf ∧
      (rapMobileEncodePacket a).writtenLen = some written ∧
      ∀ outPacket, ∃ p, rapMobileDecodePacket 64 (some outBuf) written (some outPacket) =
        (0, some p) ∧ a.Given p
  unchanged : (rapMobileEncodePacket a).code ≠ 0 →
    (rapMobileEncodePacket a).outBuf = a.outBuf ∧
      (rapMobileEncodePacket a).writtenLen = a.writtenLen

def EncodeArgs.Fails (a : EncodeArgs) : Prop :=
  a.outBuf = none ∨ a.writtenLen = none ∨ a.maxOutLen < headerSize + a.payload.length

section Encode

variable {a : EncodeArgs}

theorem payloadVec_eq (a : EncodeArgs) : a.payloadVec = a.payload := by
  unfold EncodeArgs.payloadVec EncodeArgs.payload
  cases a.payloadData with
  | none => simp
  | some bytes =>
    by_cases empty : a.payloadLen = 0
    · simp [empty]
    · simp [Nat.pos_of_ne_zero empty]

theorem length_payload_le (a : EncodeArgs) : a.payload.length ≤ a.payloadLen :=
  List.length_take_le _ _

theorem length_payload_eq_iff (a : EncodeArgs) :
    a.payload.length = a.payloadLen ↔ a.payloadData ≠ none ∨ a.payloadLen = 0 := by
  unfold EncodeArgs.payload
  cases data : a.payloadData with
  | none => simp [eq_comm]
  | some bytes =>
    have readable := a.readable bytes data
    simpa using readable

theorem castPayloadType_eq_iff (payloadType : UInt32) :
    (castPayloadType payloadType).code.toUInt32 = payloadType ↔ payloadType.toNat < 2 ^ 16 := by
  rw [← UInt32.toNat_inj, castPayloadType, UInt16.toNat_toUInt32, UInt32.toNat_toUInt16]
  omega

theorem length_encode_payload (short : a.payloadLen < 2 ^ 32) :
    (encode (castPayloadType a.payloadType) a.sequenceNum a.timestampMs a.payloadVec).length =
      headerSize + a.payload.length := by
  have fits := length_payload_le a
  rw [payloadVec_eq, length_encode (by omega)]

theorem rapMobileEncodePacket_fails (fails : a.Fails) (short : a.payloadLen < 2 ^ 32) :
    (rapMobileEncodePacket a).code ≠ 0 ∧ (rapMobileEncodePacket a).outBuf = a.outBuf ∧
      (rapMobileEncodePacket a).writtenLen = a.writtenLen := by
  unfold rapMobileEncodePacket
  split
  · next outBuf written buf len =>
    have full : a.maxOutLen < headerSize + a.payload.length := by
      simpa [EncodeArgs.Fails, buf, len] using fails
    rw [← length_encode_payload short] at full
    rw [if_pos full]
    exact ⟨show (-2 : Int32) ≠ 0 by decide, rfl, rfl⟩
  · exact ⟨show (-1 : Int32) ≠ 0 by decide, rfl, rfl⟩

theorem rapMobileEncodePacket_succeeds (ok : ¬ a.Fails) (short : a.payloadLen < 2 ^ 32) :
    ∃ rest, rapMobileEncodePacket a =
      ⟨0, some (encode (castPayloadType a.payloadType) a.sequenceNum a.timestampMs a.payload ++
        rest), some (headerSize + a.payload.length)⟩ := by
  simp only [EncodeArgs.Fails, not_or, Nat.not_lt] at ok
  obtain ⟨buffer, counter, room⟩ := ok
  obtain ⟨outBuf, buf⟩ := Option.ne_none_iff_exists'.mp buffer
  obtain ⟨written, len⟩ := Option.ne_none_iff_exists'.mp counter
  refine ⟨outBuf.drop (headerSize + a.payload.length), ?_⟩
  simp only [rapMobileEncodePacket, buf, len, length_encode_payload short]
  rw [if_neg (Nat.not_lt.mpr room), payloadVec_eq]

theorem rapMobileDecodePacket_encode (short : a.payloadLen < 2 ^ 32) (rest : List UInt8)
    (outPacket : CPacket) :
    rapMobileDecodePacket 64
        (some (encode (castPayloadType a.payloadType) a.sequenceNum a.timestampMs a.payload ++
          rest)) (headerSize + a.payload.length) (some outPacket) =
      (0, some
        { payloadType := (castPayloadType a.payloadType).code.toUInt32
          sequenceNum := a.sequenceNum
          timestampMs := a.timestampMs
          payloadData := if a.payload = [] then none else some a.payload
          payloadSize := a.payload.length }) := by
  have fits : a.payload.length < 2 ^ 32 := Nat.lt_of_le_of_lt (length_payload_le a) short
  have whole : ¬ headerSize + a.payload.length < 28 := by
    rw [headerSize]
    omega
  have read : decode (encode (castPayloadType a.payloadType) a.sequenceNum a.timestampMs
      a.payload ++ []) =
        .ok (packet (castPayloadType a.payloadType) a.sequenceNum a.timestampMs a.payload) :=
    decode_encode_append fits []
  have length : (encode (castPayloadType a.payloadType) a.sequenceNum a.timestampMs
      a.payload).length = headerSize + a.payload.length := length_encode fits
  rw [List.append_nil, decode] at read
  simp only [rapMobileDecodePacket, if_neg whole]
  rw [← length, List.take_left, read]
  rfl

theorem given_iff :
    a.Given
        { payloadType := (castPayloadType a.payloadType).code.toUInt32
          sequenceNum := a.sequenceNum
          timestampMs := a.timestampMs
          payloadData := if a.payload = [] then none else some a.payload
          payloadSize := a.payload.length } ↔
      a.payloadType.toNat < 2 ^ 16 ∧ (a.payloadData ≠ none ∨ a.payloadLen = 0) := by
  rw [← castPayloadType_eq_iff, ← length_payload_eq_iff]
  constructor
  · intro given
    exact ⟨given.payloadType, given.payloadSize⟩
  · rintro ⟨type, size⟩
    refine ⟨type, rfl, rfl, size, ?_⟩
    by_cases empty : a.payload = []
    · simp [empty]
    · simp [empty]

theorem encode_faithful_iff_of_success (ok : ¬ a.Fails) (short : a.payloadLen < 2 ^ 32) :
    Faithful a ↔
      a.payloadType.toNat < 2 ^ 16 ∧ (a.payloadData ≠ none ∨ a.payloadLen = 0) := by
  obtain ⟨rest, encoded⟩ := rapMobileEncodePacket_succeeds ok short
  rw [← given_iff]
  constructor
  · intro faithful
    obtain ⟨outBuf, written, buf, len, back⟩ := faithful.decodesBack (by rw [encoded])
    rw [encoded, Option.some.injEq] at buf len
    obtain ⟨p, decoded, given⟩ := back ⟨0, 0, 0, none, 0⟩
    rw [← buf, ← len, rapMobileDecodePacket_encode short] at decoded
    obtain ⟨-, same⟩ := Prod.mk.inj decoded
    rwa [← Option.some.inj same] at given
  · intro given
    refine ⟨fun _ => ?_, fun error => absurd (by rw [encoded]) error⟩
    rw [encoded]
    exact ⟨_, _, rfl, rfl, fun outPacket =>
      ⟨_, rapMobileDecodePacket_encode short rest outPacket, given⟩⟩

end Encode

/-- The encoder does what it says unless it succeeds on a type of more than 16 bits or on a
null pointer with a length. -/
theorem encode_faithful_iff (a : EncodeArgs) (short : a.payloadLen < 2 ^ 32) :
    Faithful a ↔ a.Fails ∨
      a.payloadType.toNat < 2 ^ 16 ∧ (a.payloadData ≠ none ∨ a.payloadLen = 0) := by
  by_cases fails : a.Fails
  · obtain ⟨error, same⟩ := rapMobileEncodePacket_fails fails short
    exact iff_of_true ⟨fun ok => absurd ok error, fun _ => same⟩ (.inl fails)
  · rw [or_iff_right fails, encode_faithful_iff_of_success fails short]

def fourBytes (payloadType : UInt32) : EncodeArgs where
  payloadType := payloadType
  sequenceNum := 42
  timestampMs := 1000
  payloadData := some [0x10, 0x20, 0x30, 0x40]
  payloadLen := 4
  outBuf := some (List.replicate 64 0)
  maxOutLen := 64
  writtenLen := some 0
  readable := by simp
  writable := by
    rintro bytes same
    rw [← Option.some.inj same, List.length_replicate]

theorem encode_faithful_iff_four : Faithful (fourBytes 13) ↔ (fourBytes 13).Fails ∨
    (fourBytes 13).payloadType.toNat < 2 ^ 16 ∧
      ((fourBytes 13).payloadData ≠ none ∨ (fourBytes 13).payloadLen = 0) :=
  encode_faithful_iff (fourBytes 13) (by decide)

/-- Type 65549 is written as type 13, and the call succeeds. -/
theorem wide_type_is_narrowed :
    (rapMobileEncodePacket (fourBytes 65549)).code = 0 ∧
      rapMobileEncodePacket (fourBytes 65549) = rapMobileEncodePacket (fourBytes 13) ∧
      ¬ Faithful (fourBytes 65549) := by
  refine ⟨by decide, by decide, ?_⟩
  have ok : ¬ (fourBytes 65549).Fails := by
    simp [EncodeArgs.Fails, fourBytes, EncodeArgs.payload, headerSize]
  rw [encode_faithful_iff_of_success ok (by decide)]
  rintro ⟨type, -⟩
  exact absurd type (by decide)

end RemoteAccess.MobileApi
