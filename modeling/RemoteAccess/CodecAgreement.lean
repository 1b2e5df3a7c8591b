import RemoteAccess.SharedProtocol

/-! The two codecs side by side. They agree on every buffer except one: a good
header whose type code is above 12. The C++ enum goes on to 17 and its decoder
lets any code through; the Rust table stops at `DirectoryListResponse`. -/

namespace RemoteAccess.CodecAgreement

open LittleEndian
open ProtocolCodec (ParseError HeaderOk typeOf headerSize payloadSizeOf magicHeader
  protocolVersion magicOf versionOf)
open SharedProtocol (ProtocolError)

def Corresponds : ParseError → ProtocolError → Prop
  | .incompleteHeader, .incompleteHeader => True
  | .invalidMagicHeader, .invalidMagicHeader => True
  | .unsupportedVersion, .unsupportedVersion _ => True
  | .incompletePayload, .incompletePayload => True
  | _, _ => False

structure SamePacket (p : ProtocolCodec.Packet) (q : SharedProtocol.Packet) : Prop where
  type : p.header.type.code = q.header.payloadType.toU16
  sequenceNumber : p.header.sequenceNumber = q.header.sequenceNumber
  timestampMs : p.header.timestampMs = q.header.timestampMs
  payload : p.payload = q.payload

def Agree : ProtocolCodec.ParseResult → Option (Except ProtocolError SharedProtocol.Packet) → Prop
  | .ok p, some (.ok q) => SamePacket p q
  | .error e, some (.error e') => Corresponds e e'
  | _, _ => False

theorem disagree_of_unknown {d : List UInt8} (ok : HeaderOk d)
    (unknown : SharedProtocol.PayloadType.tryFrom (typeOf d).code =
      .error (.unknownPayloadType (typeOf d).code)) :
    ¬ Agree (ProtocolCodec.decode d) (SharedProtocol.decode d).run := by
  have rust : (SharedProtocol.decode d).run =
      some (.error (.unknownPayloadType (typeOf d).code)) := by
    rw [SharedProtocol.decode_run, if_neg (not_lt.mpr ok.size), if_neg (not_not.mpr ok.magic),
      if_neg (not_not.mpr ok.version)]
    simp only [typeOf] at unknown
    simp only [unknown, typeOf]
  rw [rust, ProtocolCodec.decode_eq, if_neg (not_lt.mpr ok.size), if_neg (not_not.mpr ok.magic),
    if_neg (not_not.mpr ok.version)]
  split_ifs <;> exact id

theorem agree_of_known {d : List UInt8} (known : HeaderOk d → (typeOf d).code ≤ 12) :
    Agree (ProtocolCodec.decode d) (SharedProtocol.decode d).run := by
  rw [ProtocolCodec.decode_eq, SharedProtocol.decode_run]
  by_cases short : d.length < headerSize
  · rw [if_pos short, if_pos short]
    trivial
  rw [if_neg short, if_neg short]
  by_cases magic : magicOf d = magicHeader
  swap
  · rw [if_pos magic, if_pos magic]
    trivial
  rw [if_neg (not_not.mpr magic), if_neg (not_not.mpr magic)]
  by_cases version : versionOf d = protocolVersion
  swap
  · rw [if_pos version, if_pos version]
    trivial
  rw [if_neg (not_not.mpr version), if_neg (not_not.mpr version)]
  obtain ⟨t, found, code, -⟩ | ⟨-, large⟩ :=
    SharedProtocol.PayloadType.tryFrom_eq (UInt16.ofNat (word 6 2 d))
  · simp only [found]
    split_ifs with size
    · trivial
    · exact ⟨code.symm, rfl, rfl, rfl⟩
  · exact absurd (known ⟨by omega, magic, version⟩) large

/-- The decoders agree on a buffer unless it has a good header with a type code
above 12; the encoders agree on every type that both declare. -/
theorem codecs_agree_iff (d : List UInt8) :
    (Agree (ProtocolCodec.decode d) (SharedProtocol.decode d).run ↔
      (d.length < 28 ∨ magicOf d ≠ magicHeader ∨ versionOf d ≠ protocolVersion ∨
        (typeOf d).code ≤ 12)) ∧
    (∀ (t : SharedProtocol.PayloadType) (sequenceNumber timestampMs : UInt64)
      (payload : List UInt8), payload.length < 2 ^ 32 →
      ProtocolCodec.encode ⟨t.toU16⟩ sequenceNumber timestampMs payload =
        SharedProtocol.encode t sequenceNumber timestampMs payload) := by
  refine ⟨⟨fun agree => ?_, fun fine => ?_⟩, fun t sequenceNumber timestampMs payload short => ?_⟩
  · by_contra bad
    simp only [not_or, not_not, not_lt] at bad
    obtain ⟨whole, magic, version, large⟩ := bad
    obtain ⟨t, -, -, small⟩ | ⟨unknown, -⟩ :=
      SharedProtocol.PayloadType.tryFrom_eq (typeOf d).code
    · exact large small
    · exact disagree_of_unknown ⟨whole, magic, version⟩ unknown agree
  · refine agree_of_known fun ok => ?_
    obtain short | magic | version | small := fine
    · exact absurd short (not_lt.mpr ok.size)
    · exact absurd ok.magic magic
    · exact absurd ok.version version
    · exact small
  · exact (SharedProtocol.encode_eq short t sequenceNumber timestampMs).symm

/-- An `AuthRequest` written by the C++ client is a packet to the C++ agent and
an error to the Rust decoder. -/
theorem codecs_disagree_on_authRequest :
    ¬ ∀ d : List UInt8, Agree (ProtocolCodec.decode d) (SharedProtocol.decode d).run := by
  intro agree
  have authRequest := agree (ProtocolCodec.encode .authRequest 1 0 [])
  have cpp : ProtocolCodec.decode (ProtocolCodec.encode .authRequest 1 0 []) =
      .ok (ProtocolCodec.packet .authRequest 1 0 []) := by rfl
  have rust : (SharedProtocol.decode (ProtocolCodec.encode .authRequest 1 0 [])).run =
      some (.error (.unknownPayloadType 13)) := by rfl
  rw [cpp, rust] at authRequest
  exact authRequest

end RemoteAccess.CodecAgreement
