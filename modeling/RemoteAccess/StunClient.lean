import RemoteAccess.StunCodec
import RemoteAccess.Basics.HostOrder

/-! The two STUN implementations beside each other: `StunClient` of the C++ library, whose
words pass through memory in the byte order of the machine, and `StunCodec` of the services. -/

namespace RemoteAccess.StunClient

open HostOrder StunCodec
open RelayServer (SocketAddr)
open CheckedReads TypeLengthValue

/-- `[u8; 12]`. -/
abbrev TransactionId := { bytes : List UInt8 // bytes.length = 12 }

def stunMsgBindingRequest : UInt16 := 0x0001

/-! ### `StunClient` -/

def htons (order : Endian) (x : UInt16) : UInt16 := UInt16.ofNat (swapped order 2 x.toNat)

def htonl (order : Endian) (x : UInt32) : UInt32 := UInt32.ofNat (swapped order 4 x.toNat)

def ntohl (order : Endian) (x : UInt32) : UInt32 := htonl order x

def memcpy (buf : List UInt8) (offset : Nat) (bytes : List UInt8) : List UInt8 :=
  buf.take offset ++ bytes ++ buf.drop (offset + bytes.length)

def createBindingRequest (order : Endian) (transactionId : Option TransactionId) : List UInt8 :=
  let msgType := htons order stunMsgBindingRequest
  let msgLen := htons order 0
  let magic := htonl order stunMagicCookie
  let buf := List.replicate 20 0
  let buf := memcpy buf 0 (store order 2 msgType.toNat)
  let buf := memcpy buf 2 (store order 2 msgLen.toNat)
  let buf := memcpy buf 4 (store order 4 magic.toNat)
  match transactionId with
  | some id => memcpy buf 8 id.val
  | none => buf

structure StunMappedAddress where
  ip : String
  port : UInt16
  isBehindNat : Bool
deriving DecidableEq

/-- `data` is null or all the bytes there are. -/
def parseBindingResponse (order : Endian) (data : Option (List UInt8)) : StunMappedAddress :=
  let addr := ⟨"", 0, false⟩
  match data with
  | none => addr
  | some data =>
    if data.length < 20 then addr else
    let magic := UInt32.ofNat (load order ((data.drop 4).take 4))
    if ntohl order magic ≠ stunMagicCookie then addr
    else ⟨"127.0.0.1", 18443, false⟩

/-! ### `StunCodec` -/

def encodeBindingRequest (transactionId : TransactionId) : List UInt8 :=
  BigEndian.toBytes 2 stunMsgBindingRequest.toNat ++ BigEndian.toBytes 2 0 ++
    BigEndian.toBytes 4 stunMagicCookie.toNat ++ transactionId.val

/-! ### Requests -/

section Requests

variable (order : Endian)

theorem store_htons (x : UInt16) :
    store order 2 (htons order x).toNat = BigEndian.toBytes 2 x.toNat := by
  rw [htons, UInt16.toNat_ofNat_of_lt' (swapped_lt order 2 _), store_swapped]

theorem store_htonl (x : UInt32) :
    store order 4 (htonl order x).toNat = BigEndian.toBytes 4 x.toNat := by
  rw [htonl, UInt32.toNat_ofNat_of_lt' (swapped_lt order 4 _), store_swapped]

theorem memcpy_zeros {front bytes : List UInt8} {offset zeros : Nat}
    (written : front.length = offset) :
    memcpy (front ++ List.replicate zeros 0) offset bytes =
      (front ++ bytes) ++ List.replicate (zeros - bytes.length) 0 := by
  rw [memcpy, List.take_left' written, ← written, List.drop_append, List.drop_of_length_le
    (Nat.le_add_right _ _), List.nil_append, Nat.add_sub_cancel_left, List.drop_replicate]

/-- The header in front of the zeros of the transaction id. -/
def requestHeader : List UInt8 :=
  BigEndian.toBytes 2 stunMsgBindingRequest.toNat ++ BigEndian.toBytes 2 0 ++
    BigEndian.toBytes 4 stunMagicCookie.toNat

theorem length_requestHeader : requestHeader.length = 8 := rfl

theorem createBindingRequest_eq (transactionId : Option TransactionId) :
    createBindingRequest order transactionId =
      encodeBindingRequest (transactionId.getD ⟨List.replicate 12 0, rfl⟩) := by
  have words : memcpy (memcpy (memcpy (List.replicate 20 0) 0
        (store order 2 (htons order stunMsgBindingRequest).toNat)) 2
        (store order 2 (htons order 0).toNat)) 4
        (store order 4 (htonl order stunMagicCookie).toNat) =
      requestHeader ++ List.replicate 12 0 := by
    have first := @memcpy_zeros [] (BigEndian.toBytes 2 stunMsgBindingRequest.toNat) 0 20 rfl
    have second := @memcpy_zeros (BigEndian.toBytes 2 stunMsgBindingRequest.toNat)
      (BigEndian.toBytes 2 0) 2 18 rfl
    have third := @memcpy_zeros (BigEndian.toBytes 2 stunMsgBindingRequest.toNat ++
      BigEndian.toBytes 2 0) (BigEndian.toBytes 4 stunMagicCookie.toNat) 4 16 rfl
    rw [store_htons, store_htons, store_htonl]
    exact (congrArg (memcpy · 4 _) ((congrArg (memcpy · 2 _) first).trans second)).trans third
  unfold createBindingRequest
  dsimp only
  rw [words]
  cases transactionId with
  | none => rfl
  | some id =>
    have written := @memcpy_zeros requestHeader id.val 8 12 rfl
    rw [id.property, Nat.sub_self, List.replicate_zero, List.append_nil] at written
    exact written

end Requests

theorem drop_encodeBindingRequest (id : TransactionId) :
    (encodeBindingRequest id).drop 8 = id.val :=
  List.drop_left' length_requestHeader

theorem length_encodeBindingRequest (id : TransactionId) :
    (encodeBindingRequest id).length = 20 := by
  rw [encodeBindingRequest, List.length_append, id.property]
  rfl

theorem headerError_encodeBindingRequest (id : TransactionId) (trailing : List UInt8) :
    headerError (encodeBindingRequest id ++ trailing) =
      some (unexpectedType stunMsgBindingRequest) := by
  have type_word : wordAt (encodeBindingRequest id ++ trailing) 0 2 =
      stunMsgBindingRequest.toNat := by
    simp only [encodeBindingRequest, List.append_assoc]
    rw [← List.nil_append (_ ++ _)]
    exact wordAt_written rfl (by decide)
  have size := length_encodeBindingRequest id
  rw [headerError, List.length_append, if_neg (by omega), type_word, UInt16.ofNat_toNat,
    if_pos (by decide)]

/-! ### Responses -/

def Cookie (buf : List UInt8) : Prop :=
  20 ≤ buf.length ∧ UInt32.ofNat (wordAt buf 4 4) = stunMagicCookie

instance (buf : List UInt8) : Decidable (Cookie buf) := inferInstanceAs (Decidable (_ ∧ _))

theorem parseBindingResponse_eq (order : Endian) (buf : List UInt8) :
    parseBindingResponse order (some buf) =
      if Cookie buf then ⟨"127.0.0.1", 18443, false⟩ else ⟨"", 0, false⟩ := by
  rw [parseBindingResponse]
  dsimp only
  by_cases short : buf.length < 20
  · rw [if_pos short, if_neg fun cookie => absurd short (Nat.not_lt.mpr cookie.1)]
  · have four : ((buf.drop 4).take 4).length = 4 := length_drop_take (by omega)
    have read : ntohl order (UInt32.ofNat (load order ((buf.drop 4).take 4))) =
        UInt32.ofNat (wordAt buf 4 4) := by
      have small := load_lt order ((buf.drop 4).take 4)
      have same := swapped_load order ((buf.drop 4).take 4)
      rw [four] at small same
      rw [ntohl, htonl, UInt32.toNat_ofNat_of_lt' small, same, wordAt]
    rw [if_neg short, read]
    simp only [Cookie, Nat.le_of_not_lt short, true_and, ite_not]

theorem cookie_encodeBindingRequest (id : TransactionId) (trailing : List UInt8) :
    Cookie (encodeBindingRequest id ++ trailing) := by
  refine ⟨?_, ?_⟩
  · rw [List.length_append, length_encodeBindingRequest]
    omega
  · simp only [encodeBindingRequest, List.append_assoc]
    rw [← List.append_assoc, @wordAt_written (BigEndian.toBytes 2 stunMsgBindingRequest.toNat ++
      BigEndian.toBytes 2 0) (id.val ++ trailing) 4 4 _ rfl (by decide), UInt32.ofNat_toNat]

/-- What the services decode the client library takes for a response. -/
theorem cookie_of_headerError {buf : List UInt8} (accepted : headerError buf = none) :
    Cookie buf := by
  unfold headerError at accepted
  split_ifs at accepted with short other cookie truncated
  exact ⟨Nat.le_of_not_lt short, not_not.mp cookie⟩

/-- On a machine of either byte order the client library writes the services' request, byte for
byte. The services' decoder turns every request down as a response, while the client library
takes any packet with the cookie for one, and so each request and all that the decoder takes. -/
theorem stun_implementations :
    (∀ order transactionId, createBindingRequest order transactionId =
      encodeBindingRequest (transactionId.getD ⟨List.replicate 12 0, rfl⟩)) ∧
    Function.Injective encodeBindingRequest ∧
    (∀ id trailing localAddr fuel, (encodeBindingRequest id ++ trailing).length < fuel →
      (decodeBindingResponse fuel (encodeBindingRequest id ++ trailing) localAddr).outcome =
        .ok (.error "Unexpected STUN message type: 0x0001")) ∧
    (∀ order buf, parseBindingResponse order (some buf) =
      if Cookie buf then ⟨"127.0.0.1", 18443, false⟩ else ⟨"", 0, false⟩) ∧
    (∀ buf localAddr fuel endpoint, buf.length < fuel →
      (decodeBindingResponse fuel buf localAddr).outcome = .ok (.ok endpoint) → Cookie buf) ∧
    ∀ id trailing, Cookie (encodeBindingRequest id ++ trailing) := by
  refine ⟨createBindingRequest_eq, fun id other same => ?_, ?_, parseBindingResponse_eq, ?_,
    cookie_encodeBindingRequest⟩
  · have ids := congrArg (List.drop 8) same
    rw [drop_encodeBindingRequest, drop_encodeBindingRequest] at ids
    exact Subtype.ext ids
  · intro id trailing localAddr fuel enough
    rw [(returns_decodeBindingResponse localAddr enough).outcome, decoded,
      headerError_encodeBindingRequest]
    rfl
  · intro buf localAddr fuel endpoint enough answered
    rw [(returns_decodeBindingResponse localAddr enough).outcome, decoded] at answered
    cases header : headerError buf with
    | none => exact cookie_of_headerError header
    | some message =>
      rw [header] at answered
      cases answered

end RemoteAccess.StunClient
