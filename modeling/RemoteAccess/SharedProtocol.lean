import RemoteAccess.ProtocolCodec

/-! The Rust packet codec of the shared service crate. A Rust computation is an
`ExceptT ProtocolError Option`: `none` is a panic (an index out of range, an
overflowing 64-bit `usize` addition), an error is an `Err`. -/

namespace RemoteAccess.SharedProtocol

open LittleEndian
open ProtocolCodec (magicHeader protocolVersion headerSize magicOf versionOf
  sequenceNumberOf timestampOf payloadSizeOf encodeHeader HeaderOk)

inductive PayloadType
  | unspecified
  | handshakeReq
  | handshakeResp
  | frameHeader
  | inputEvent
  | heartbeat
  | clipboardData
  | fileTransferRequest
  | fileTransferResponse
  | fileChunkPayload
  | fileTransferControl
  | directoryListRequest
  | directoryListResponse
deriving DecidableEq, Repr

inductive ProtocolError
  | incompleteHeader
  | invalidMagicHeader
  | unsupportedVersion (version : UInt16)
  | unknownPayloadType (code : UInt16)
  | incompletePayload
deriving DecidableEq, Repr

namespace PayloadType

/-- The `repr(u16)` discriminant. -/
def toU16 : PayloadType → UInt16
  | unspecified => 0
  | handshakeReq => 1
  | handshakeResp => 2
  | frameHeader => 3
  | inputEvent => 4
  | heartbeat => 5
  | clipboardData => 6
  | fileTransferRequest => 7
  | fileTransferResponse => 8
  | fileChunkPayload => 9
  | fileTransferControl => 10
  | directoryListRequest => 11
  | directoryListResponse => 12

def tryFrom (val : UInt16) : Except ProtocolError PayloadType :=
  match val with
  | 0 => .ok unspecified
  | 1 => .ok handshakeReq
  | 2 => .ok handshakeResp
  | 3 => .ok frameHeader
  | 4 => .ok inputEvent
  | 5 => .ok heartbeat
  | 6 => .ok clipboardData
  | 7 => .ok fileTransferRequest
  | 8 => .ok fileTransferResponse
  | 9 => .ok fileChunkPayload
  | 10 => .ok fileTransferControl
  | 11 => .ok directoryListRequest
  | 12 => .ok directoryListResponse
  | _ => .error (.unknownPayloadType val)

theorem tryFrom_toU16 (t : PayloadType) : tryFrom t.toU16 = .ok t := by
  cases t <;> rfl

theorem tryFrom_eq (val : UInt16) :
    (∃ t, tryFrom val = .ok t ∧ t.toU16 = val ∧ val ≤ 12) ∨
      (tryFrom val = .error (.unknownPayloadType val) ∧ ¬ val ≤ 12) := by
  unfold tryFrom
  split
  case h_14 =>
    refine .inr ⟨rfl, ?_⟩
    rw [UInt16.le_iff_toNat_le]
    intro small
    have code : val = UInt16.ofNat val.toNat := (UInt16.ofNat_toNat).symm
    have cases : val.toNat = 0 ∨ val.toNat = 1 ∨ val.toNat = 2 ∨ val.toNat = 3 ∨ val.toNat = 4 ∨
        val.toNat = 5 ∨ val.toNat = 6 ∨ val.toNat = 7 ∨ val.toNat = 8 ∨ val.toNat = 9 ∨
        val.toNat = 10 ∨ val.toNat = 11 ∨ val.toNat = 12 := by
      change val.toNat ≤ 12 at small
      omega
    rcases cases with h | h | h | h | h | h | h | h | h | h | h | h | h <;>
      rw [h] at code <;> contradiction
  all_goals exact .inl ⟨_, rfl, rfl, by decide⟩

end PayloadType

structure PacketHeader where
  magic : UInt32
  version : UInt16
  payloadType : PayloadType
  sequenceNumber : UInt64
  timestampMs : UInt64
  payloadSize : UInt32
deriving DecidableEq, Repr

structure Packet where
  header : PacketHeader
  payload : List UInt8
deriving DecidableEq, Repr

def encode (payloadType : PayloadType) (sequenceNumber timestampMs : UInt64)
    (payload : List UInt8) : List UInt8 :=
  toBytes 4 magicHeader.toNat ++ toBytes 2 protocolVersion.toNat ++
    toBytes 2 payloadType.toU16.toNat ++ toBytes 8 sequenceNumber.toNat ++
    toBytes 8 timestampMs.toNat ++ toBytes 4 (UInt32.ofNat payload.length).toNat ++ payload

/-- `data[start..stop]`. -/
def slice (data : List UInt8) (start stop : Nat) : ExceptT ProtocolError Option (List UInt8) :=
  if start ≤ stop ∧ stop ≤ data.length then pure ((data.drop start).take (stop - start))
  else (none : Option (Except ProtocolError (List UInt8)))

/-- `try_into` an array of `width` bytes, a wrong length mapped to `IncompleteHeader`. -/
def tryIntoArray (width : Nat) (bytes : List UInt8) :
    ExceptT ProtocolError Option (List UInt8) :=
  if bytes.length = width then pure bytes else throw .incompleteHeader

/-- `a + b` in `usize`. -/
def usizeAdd (a b : Nat) : ExceptT ProtocolError Option Nat :=
  if a + b < 2 ^ 64 then pure (a + b) else (none : Option (Except ProtocolError Nat))

def decode (data : List UInt8) : ExceptT ProtocolError Option Packet :=
  if data.length < headerSize then throw .incompleteHeader else do
  let magicBytes ← tryIntoArray 4 (← slice data 0 4)
  let magic := UInt32.ofNat (toNat magicBytes)
  if magic ≠ magicHeader then throw .invalidMagicHeader else do
  let verBytes ← tryIntoArray 2 (← slice data 4 6)
  let version := UInt16.ofNat (toNat verBytes)
  if version ≠ protocolVersion then throw (.unsupportedVersion version) else do
  let typeBytes ← tryIntoArray 2 (← slice data 6 8)
  let typeVal := UInt16.ofNat (toNat typeBytes)
  let payloadType ← ExceptT.mk (some (PayloadType.tryFrom typeVal))
  let seqBytes ← tryIntoArray 8 (← slice data 8 16)
  let sequenceNumber := UInt64.ofNat (toNat seqBytes)
  let tsBytes ← tryIntoArray 8 (← slice data 16 24)
  let timestampMs := UInt64.ofNat (toNat tsBytes)
  let sizeBytes ← tryIntoArray 4 (← slice data 24 28)
  let payloadSize := UInt32.ofNat (toNat sizeBytes)
  let total ← usizeAdd headerSize payloadSize.toNat
  if data.length < total then throw .incompletePayload else do
  let payload ← slice data headerSize total
  return { header := { magic, version, payloadType, sequenceNumber, timestampMs, payloadSize }
           payload }

def packetOf (data : List UInt8) (payloadType : PayloadType) : Packet where
  header :=
    { magic := magicOf data
      version := versionOf data
      payloadType := payloadType
      sequenceNumber := sequenceNumberOf data
      timestampMs := timestampOf data
      payloadSize := payloadSizeOf data }
  payload := (data.drop headerSize).take (payloadSizeOf data).toNat

theorem slice_inside {data : List UInt8} {start stop : Nat} (order : start ≤ stop)
    (inside : stop ≤ data.length) :
    slice data start stop = pure ((data.drop start).take (stop - start)) := by
  rw [slice, if_pos ⟨order, inside⟩]

theorem tryIntoArray_slice {β : Type} {data : List UInt8} (start stop width : Nat)
    (inside : stop ≤ data.length) (size : start + width = stop)
    (next : List UInt8 → ExceptT ProtocolError Option β) :
    (slice data start stop >>= fun bytes => tryIntoArray width bytes >>= next) =
      next ((data.drop start).take width) := by
  have length : ((data.drop start).take width).length = width := by
    rw [List.length_take, List.length_drop]
    omega
  rw [slice_inside (by omega) inside, ← size, Nat.add_sub_cancel_left, pure_bind, tryIntoArray,
    if_pos length, pure_bind]

theorem decode_eq (data : List UInt8) :
    decode data = ExceptT.mk (some (
      if data.length < headerSize then .error .incompleteHeader
      else if magicOf data ≠ magicHeader then .error .invalidMagicHeader
      else if versionOf data ≠ protocolVersion then .error (.unsupportedVersion (versionOf data))
      else match PayloadType.tryFrom (UInt16.ofNat (word 6 2 data)) with
        | .error e => .error e
        | .ok payloadType =>
          if data.length < headerSize + (payloadSizeOf data).toNat then .error .incompletePayload
          else .ok (packetOf data payloadType))) := by
  by_cases short : data.length < headerSize
  · rw [decode, if_pos short, if_pos short]
    rfl
  have whole : 28 ≤ data.length := by
    simp only [headerSize] at short
    omega
  have room : headerSize + (payloadSizeOf data).toNat < 2 ^ 64 := by
    have := (payloadSizeOf data).toNat_lt
    simp only [headerSize]
    omega
  rw [decode, if_neg short, if_neg short, tryIntoArray_slice 0 4 4 (by omega) rfl]
  change (if magicOf data ≠ magicHeader then _ else _) = _
  by_cases magic : magicOf data ≠ magicHeader
  · rw [if_pos magic, if_pos magic]
    rfl
  rw [if_neg magic, if_neg magic, tryIntoArray_slice 4 6 2 (by omega) rfl]
  change (if versionOf data ≠ protocolVersion then _ else _) = _
  by_cases version : versionOf data ≠ protocolVersion
  · rw [if_pos version, if_pos version]
    rfl
  rw [if_neg version, if_neg version, tryIntoArray_slice 6 8 2 (by omega) rfl]
  change (ExceptT.mk (some (PayloadType.tryFrom (UInt16.ofNat (word 6 2 data)))) >>= _) = _
  cases PayloadType.tryFrom (UInt16.ofNat (word 6 2 data)) with
  | error e => rfl
  | ok payloadType =>
    change ((pure payloadType : ExceptT ProtocolError Option PayloadType) >>= _) = _
    rw [pure_bind, tryIntoArray_slice 8 16 8 (by omega) rfl]
    rw [tryIntoArray_slice 16 24 8 (by omega) rfl]
    rw [tryIntoArray_slice 24 28 4 (by omega) rfl]
    change (usizeAdd headerSize (payloadSizeOf data).toNat >>= _) = _
    rw [usizeAdd, if_pos room, pure_bind]
    by_cases size : data.length < headerSize + (payloadSizeOf data).toNat
    · rw [if_pos size]
      simp only [size, if_true]
      rfl
    · rw [if_neg size, slice_inside (by omega) (by omega), Nat.add_sub_cancel_left]
      simp only [size, if_false]
      rfl

theorem decode_run (data : List UInt8) :
    (decode data).run = some (
      if data.length < headerSize then .error .incompleteHeader
      else if magicOf data ≠ magicHeader then .error .invalidMagicHeader
      else if versionOf data ≠ protocolVersion then .error (.unsupportedVersion (versionOf data))
      else match PayloadType.tryFrom (UInt16.ofNat (word 6 2 data)) with
        | .error e => .error e
        | .ok payloadType =>
          if data.length < headerSize + (payloadSizeOf data).toNat then .error .incompletePayload
          else .ok (packetOf data payloadType)) := by
  rw [decode_eq]
  rfl

theorem decode_run_ok_iff (data : List UInt8) (p : Packet) :
    (decode data).run = some (.ok p) ↔ HeaderOk data ∧
      headerSize + (payloadSizeOf data).toNat ≤ data.length ∧
      UInt16.ofNat (word 6 2 data) = p.header.payloadType.toU16 ∧
      p = packetOf data p.header.payloadType := by
  rw [decode_run, Option.some_inj]
  constructor
  · intro accepted
    obtain ⟨t, known, code, -⟩ | ⟨unknown, -⟩ :=
      PayloadType.tryFrom_eq (UInt16.ofNat (word 6 2 data))
    · simp only [known] at accepted
      split_ifs at accepted with short magic version size
      obtain rfl := Except.ok.inj accepted
      exact ⟨⟨by omega, not_not.mp magic, not_not.mp version⟩, by omega, code.symm, rfl⟩
    · simp only [unknown] at accepted
      split_ifs at accepted
  · rintro ⟨⟨whole, magic, version⟩, size, code, known⟩
    rw [if_neg (by omega), if_neg (not_not.mpr magic), if_neg (not_not.mpr version), code,
      PayloadType.tryFrom_toU16]
    simp only
    rw [if_neg (by omega), ← known]

theorem encode_eq {payload : List UInt8} (short : payload.length < 2 ^ 32)
    (payloadType : PayloadType) (sequenceNumber timestampMs : UInt64) :
    encode payloadType sequenceNumber timestampMs payload =
      ProtocolCodec.encode ⟨payloadType.toU16⟩ sequenceNumber timestampMs payload := by
  rw [ProtocolCodec.encode_eq short]
  rfl

theorem encode_of_decode_run {d : List UInt8} {p : Packet}
    (accepted : (decode d).run = some (.ok p)) :
    p.header.magic = magicHeader ∧ p.header.version = protocolVersion ∧
      p.payload.length = p.header.payloadSize.toNat ∧
      d = encode p.header.payloadType p.header.sequenceNumber p.header.timestampMs p.payload ++
        d.drop (headerSize + p.header.payloadSize.toNat) := by
  obtain ⟨ok, size, code, known⟩ := (decode_run_ok_iff d p).mp accepted
  have length : p.payload.length = p.header.payloadSize.toNat := by
    rw [known]
    simp only [packetOf, List.length_take, List.length_drop]
    omega
  have short : p.payload.length < 2 ^ 32 := by
    rw [length]
    exact p.header.payloadSize.toNat_lt
  have header : encodeHeader ⟨p.header.payloadType.toU16⟩ p.header.sequenceNumber
      p.header.timestampMs p.header.payloadSize = encodeHeader (ProtocolCodec.typeOf d)
        (sequenceNumberOf d) (timestampOf d) (payloadSizeOf d) := by
    rw [known]
    simp only [packetOf, ProtocolCodec.typeOf, code]
  refine ⟨by rw [known]; exact ok.magic, by rw [known]; exact ok.version, length, ?_⟩
  rw [encode_eq short, ProtocolCodec.encode_eq short, length, UInt32.ofNat_toNat, header]
  conv_lhs => rw [ok.split, ← List.take_append_drop (payloadSizeOf d).toNat
    (d.drop headerSize), List.drop_drop]
  rw [known]
  simp only [packetOf, List.append_assoc]

theorem decode_run_encode_append {p : Packet} (magic : p.header.magic = magicHeader)
    (version : p.header.version = protocolVersion)
    (length : p.payload.length = p.header.payloadSize.toNat) (rest : List UInt8) :
    (decode (encode p.header.payloadType p.header.sequenceNumber p.header.timestampMs p.payload ++
      rest)).run = some (.ok p) := by
  have short : p.payload.length < 2 ^ 32 := by
    rw [length]
    exact p.header.payloadSize.toNat_lt
  have total : headerSize + p.header.payloadSize.toNat ≤ (encodeHeader
      ⟨p.header.payloadType.toU16⟩ p.header.sequenceNumber p.header.timestampMs
        p.header.payloadSize ++ (p.payload ++ rest)).length := by
    rw [List.length_append, List.length_append, ProtocolCodec.length_encodeHeader]
    omega
  rw [encode_eq short, ProtocolCodec.encode_eq short, List.append_assoc, decode_run_ok_iff,
    length, UInt32.ofNat_toNat]
  refine ⟨ProtocolCodec.headerOk_header .., ?_, ?_, ?_⟩
  · rwa [ProtocolCodec.payloadSizeOf_header]
  · have type := ProtocolCodec.typeOf_header ⟨p.header.payloadType.toU16⟩
      p.header.sequenceNumber p.header.timestampMs p.header.payloadSize (p.payload ++ rest)
    exact congrArg ProtocolCodec.PayloadType.code type
  · rw [packetOf, ProtocolCodec.magicOf_header, ProtocolCodec.versionOf_header,
      ProtocolCodec.sequenceNumberOf_header, ProtocolCodec.timestampOf_header,
      ProtocolCodec.payloadSizeOf_header, ← magic, ← version,
      List.drop_append_of_le_length (by rw [ProtocolCodec.length_encodeHeader]),
      List.drop_of_length_le (by rw [ProtocolCodec.length_encodeHeader]), List.nil_append,
      ← length, List.take_left]

/-- The Rust decoder accepts exactly the encodings, whatever follows them, never
panics, and reads back the variant that was written. -/
theorem shared_decode_exact :
    (∀ (d : List UInt8) (p : Packet), (decode d).run = some (.ok p) ↔
      (p.header.magic = magicHeader ∧ p.header.version = protocolVersion) ∧
      p.payload.length = p.header.payloadSize.toNat ∧ p.header.payloadSize.toNat < 2 ^ 32 ∧
      ∃ rest, d = encode p.header.payloadType p.header.sequenceNumber p.header.timestampMs
        p.payload ++ rest) ∧
    (∀ d : List UInt8, (∀ p, (decode d).run ≠ some (.ok p)) →
      ∃ e, (decode d).run = some (.error e)) ∧
    (∀ d : List UInt8, (decode d).run ≠ none) ∧
    (∀ t : PayloadType, PayloadType.tryFrom t.toU16 = .ok t) ∧
    (∀ (code : UInt16) (t : PayloadType), PayloadType.tryFrom code = .ok t → t.toU16 = code) := by
  refine ⟨fun d p => ⟨fun accepted => ?_, ?_⟩, fun d refused => ?_, fun d => ?_,
    PayloadType.tryFrom_toU16, fun code t known => ?_⟩
  · obtain ⟨magic, version, length, bytes⟩ := encode_of_decode_run accepted
    exact ⟨⟨magic, version⟩, length, p.header.payloadSize.toNat_lt, _, bytes⟩
  · rintro ⟨⟨magic, version⟩, length, -, rest, rfl⟩
    exact decode_run_encode_append magic version length rest
  · cases result : (decode d).run with
    | none => simp [decode_run] at result
    | some outcome =>
      cases outcome with
      | error e => exact ⟨e, rfl⟩
      | ok p => exact absurd result (refused p)
  · simp [decode_run]
  · obtain ⟨t', known', code', -⟩ | ⟨unknown, -⟩ := PayloadType.tryFrom_eq code
    · rw [known'] at known
      rwa [← Except.ok.inj known]
    · simp [unknown] at known

end RemoteAccess.SharedProtocol
