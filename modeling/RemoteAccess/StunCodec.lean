import RemoteAccess.RelayServer
import RemoteAccess.Basics.CheckedReads
import RemoteAccess.Basics.TypeLengthValue

/-! The decoder of STUN Binding Responses. A Rust computation is a `CheckedReads.Run`, so an
index out of range and an overflowing `usize` are outcomes of their own; the attribute loop is
bounded by fuel. `decoded` is what the run comes to: the header's checks, then the first
readable item among those of the declared attribute section. -/

namespace RemoteAccess.StunCodec

open RelayServer (SocketAddr)
open CheckedReads TypeLengthValue

def stunMagicCookie : UInt32 := 0x2112A442
def stunBindingResponse : UInt16 := 0x0101
def attrXorMappedAddress : UInt16 := 0x0020

structure StunEndpoint where
  publicAddr : SocketAddr
  isBehindNat : Bool
deriving DecidableEq

/-- `u16::from_be_bytes` of the two bytes at `offset`. -/
def readU16 (buf : List UInt8) (offset : Nat) : Run UInt16 := do
  let high ← Run.index buf offset
  let low ← Run.index buf (← Run.add offset 1)
  return UInt16.ofNat (BigEndian.toNat [high, low])

def readU32 (buf : List UInt8) (offset : Nat) : Run UInt32 := do
  let b0 ← Run.index buf offset
  let b1 ← Run.index buf (← Run.add offset 1)
  let b2 ← Run.index buf (← Run.add offset 2)
  let b3 ← Run.index buf (← Run.add offset 3)
  return UInt32.ofNat (BigEndian.toNat [b0, b1, b2, b3])

def endpointAt (localAddr publicAddr : SocketAddr) : StunEndpoint where
  publicAddr := publicAddr
  isBehindNat := publicAddr ≠ localAddr

/-- The body of an XOR-MAPPED-ADDRESS; a family other than IPv4 is passed over. -/
def readXorMapped (buf : List UInt8) (localAddr : SocketAddr) (offset : Nat) :
    Run (Option StunEndpoint) := do
  let family ← Run.index buf (← Run.add offset 1)
  let portRaw ← readU16 buf (← Run.add offset 2)
  let xorPort := portRaw ^^^ (stunMagicCookie >>> 16).toUInt16
  if family = 0x01 then
    let ipRaw ← readU32 buf (← Run.add offset 4)
    return some (endpointAt localAddr (.v4 (ipRaw ^^^ stunMagicCookie) xorPort))
  else
    return none

/-- The endpoint of an attribute of the type sought; any other is passed over. -/
def readAttribute (buf : List UInt8) (localAddr : SocketAddr) (attrType : UInt16)
    (attrLen offset : Nat) : Run (Option StunEndpoint) :=
  if attrType = attrXorMappedAddress ∧ 8 ≤ attrLen then readXorMapped buf localAddr offset
  else return none

inductive Pass
  | next (offset : Nat)
  | leave
  | found (endpoint : StunEndpoint)

/-- One pass of the attribute loop; `stop` is the source's `end`. -/
def pass (buf : List UInt8) (localAddr : SocketAddr) (stop offset : Nat) : Run Pass := do
  let header ← Run.add offset 4
  if stop < header then
    return .leave
  else
    let attrType ← readU16 buf offset
    let attrLen ← readU16 buf (← Run.add offset 2)
    let attrLen := attrLen.toNat
    let offset ← Run.add offset 4
    let past ← Run.add offset attrLen
    if stop < past then
      return .leave
    else
      match ← readAttribute buf localAddr attrType attrLen offset with
      | some endpoint => return .found endpoint
      | none =>
        let missing ← Run.sub 4 (attrLen % 4)
        let step ← Run.add attrLen (missing % 4)
        return .next (← Run.add offset step)

def attributeLoop (buf : List UInt8) (localAddr : SocketAddr) (stop : Nat) :
    (fuel offset : Nat) → Run StunEndpoint
  | 0, _ => Run.fail .outOfFuel
  | fuel + 1, offset => do
    match ← pass buf localAddr stop offset with
    | .next offset => attributeLoop buf localAddr stop fuel offset
    | .found endpoint => return endpoint
    | .leave => return { publicAddr := localAddr, isBehindNat := false }

/-- `{:#06x}` of a 16-bit word. -/
def formatHex (word : UInt16) : String :=
  let digits := Nat.toDigits 16 word.toNat
  "0x" ++ String.ofList (List.replicate (4 - digits.length) '0' ++ digits)

def unexpectedType (msgType : UInt16) : String :=
  "Unexpected STUN message type: " ++ formatHex msgType

def decodeBindingResponse (fuel : Nat) (buf : List UInt8) (localAddr : SocketAddr) :
    Run (Except String StunEndpoint) := do
  if buf.length < 20 then
    return .error "STUN packet too short (< 20 bytes)"
  else
    let msgType ← readU16 buf 0
    if msgType ≠ stunBindingResponse then
      return .error (unexpectedType msgType)
    else
      let magicCookie ← readU32 buf 4
      if magicCookie ≠ stunMagicCookie then
        return .error "Invalid STUN Magic Cookie"
      else
        let _txId ← Run.copyFromSlice 12 (← Run.slice buf 8 20)
        let payloadLen ← readU16 buf 2
        let payloadLen := payloadLen.toNat
        let stop ← Run.add 20 payloadLen
        if buf.length < stop then
          return .error "Truncated STUN payload attributes"
        else
          return .ok (← attributeLoop buf localAddr stop fuel 20)

/-! ### Words of the buffer -/

def wordAt (buf : List UInt8) (offset width : Nat) : Nat :=
  BigEndian.toNat ((buf.drop offset).take width)

theorem wordAt_lt (buf : List UInt8) (offset width : Nat) :
    wordAt buf offset width < 256 ^ width := by
  calc wordAt buf offset width
      < 256 ^ ((buf.drop offset).take width).length := BigEndian.toNat_lt _
    _ ≤ 256 ^ width := Nat.pow_le_pow_right (by norm_num) (List.length_take_le _ _)

theorem drop_take_succ {buf : List UInt8} {offset : Nat} (width : Nat)
    (inside : offset < buf.length) :
    (buf.drop offset).take (width + 1) = buf[offset] :: (buf.drop (offset + 1)).take width := by
  rw [List.drop_eq_getElem_cons inside, List.take_succ_cons]

theorem length_drop_take {buf : List UInt8} {offset width : Nat}
    (inside : offset + width ≤ buf.length) : ((buf.drop offset).take width).length = width := by
  rw [List.length_take, List.length_drop]
  omega

theorem returns_readU16 {buf : List UInt8} {offset limit : Nat} (inside : offset + 2 ≤ buf.length)
    (below : offset + 2 ≤ limit) (small : offset < 2 ^ 32) :
    Returns (readU16 buf offset) limit (UInt16.ofNat (wordAt buf offset 2)) := by
  have bytes : (buf.drop offset).take 2 = [buf[offset], buf[offset + 1]] := by
    rw [drop_take_succ 1 (by omega), drop_take_succ 0 (by omega), List.take_zero]
  rw [wordAt, bytes]
  refine (returns_index (List.getElem?_eq_getElem (by omega)) (by omega)).bind ?_
  refine Returns.index_add (by omega) (by omega) (by omega) ?_
  exact returns_pure limit _

theorem returns_readU32 {buf : List UInt8} {offset limit : Nat} (inside : offset + 4 ≤ buf.length)
    (below : offset + 4 ≤ limit) (small : offset < 2 ^ 32) :
    Returns (readU32 buf offset) limit (UInt32.ofNat (wordAt buf offset 4)) := by
  have bytes : (buf.drop offset).take 4 =
      [buf[offset], buf[offset + 1], buf[offset + 2], buf[offset + 3]] := by
    rw [drop_take_succ 3 (by omega), drop_take_succ 2 (by omega), drop_take_succ 1 (by omega),
      drop_take_succ 0 (by omega), List.take_zero]
  rw [wordAt, bytes]
  refine (returns_index (List.getElem?_eq_getElem (by omega)) (by omega)).bind ?_
  refine Returns.index_add (by omega) (by omega) (by omega) ?_
  refine Returns.index_add (by omega) (by omega) (by omega) ?_
  refine Returns.index_add (by omega) (by omega) (by omega) ?_
  exact returns_pure limit _

/-! ### One pass -/

/-- Two-byte kinds and lengths, values padded to four bytes. -/
def attributeLayout : Layout := ⟨2, 2, 4, by decide⟩

/-- The address that an attribute's value carries, where the decoder can read it. -/
def mappedAddress (item : Item) : Option SocketAddr :=
  if item.kind = attrXorMappedAddress.toNat ∧ 8 ≤ item.value.length ∧
      item.value[1]? = some 0x01 then
    some (.v4 (UInt32.ofNat (wordAt item.value 4 4) ^^^ stunMagicCookie)
      (UInt16.ofNat (wordAt item.value 2 2) ^^^ (stunMagicCookie >>> 16).toUInt16))
  else none

def remaining (buf : List UInt8) (stop offset : Nat) : List UInt8 := (buf.take stop).drop offset

theorem length_remaining {buf : List UInt8} {stop : Nat} (within : stop ≤ buf.length)
    (offset : Nat) : (remaining buf stop offset).length = stop - offset := by
  rw [remaining, List.length_drop, List.length_take, Nat.min_eq_left within]

theorem remaining_take {buf : List UInt8} {stop offset width : Nat}
    (inside : offset + width ≤ stop) :
    (remaining buf stop offset).take width = (buf.drop offset).take width := by
  rw [remaining, List.drop_take, List.take_take, Nat.min_eq_left (by omega)]

theorem remaining_drop (buf : List UInt8) (stop offset skipped : Nat) :
    (remaining buf stop offset).drop skipped = remaining buf stop (offset + skipped) := by
  rw [remaining, List.drop_drop, remaining]

theorem takeItem_short {buf : List UInt8} {stop offset : Nat} (within : stop ≤ buf.length)
    (short : stop < offset + 4) :
    takeItem attributeLayout (remaining buf stop offset) = none := by
  have size := length_remaining within offset
  have cut : (remaining buf stop offset).length < attributeLayout.header := by
    change _ < 4
    omega
  rw [takeItem, if_pos (.inl cut)]

theorem takeItem_remaining {buf : List UInt8} {stop offset length : Nat}
    (within : stop ≤ buf.length) (inside : offset + 4 ≤ stop)
    (field : wordAt buf (offset + 2) 2 = length) :
    takeItem attributeLayout (remaining buf stop offset) =
      if stop < offset + 4 + length then none
      else some (⟨wordAt buf offset 2, (buf.drop (offset + 4)).take length⟩,
        remaining buf stop (offset + 4 + (length + padding 4 length))) := by
  have size := length_remaining within offset
  have kind : attributeLayout.kind (remaining buf stop offset) = wordAt buf offset 2 := by
    change BigEndian.toNat ((remaining buf stop offset).take 2) = _
    rw [remaining_take (by omega), wordAt]
  have length_field : attributeLayout.length (remaining buf stop offset) = length := by
    change BigEndian.toNat (((remaining buf stop offset).drop 2).take 2) = _
    rw [remaining_drop, remaining_take (by omega), ← field, wordAt]
  have header : attributeLayout.header = 4 := rfl
  have align : attributeLayout.align = 4 := rfl
  rw [takeItem, kind, length_field, header, align, size, remaining_drop, remaining_drop]
  by_cases cut : stop < offset + 4 + length
  · rw [if_pos (by omega), if_pos cut]
  · rw [if_neg (by omega), if_neg cut, remaining_take (by omega), ← Nat.add_assoc,
      ← Nat.add_assoc, ← Nat.add_assoc]

def passOf (localAddr : SocketAddr) (offset : Nat) : Option (Item × List UInt8) → Pass
  | none => .leave
  | some (item, _) =>
    match mappedAddress item with
    | some publicAddr => .found (endpointAt localAddr publicAddr)
    | none => .next (offset + 4 + (item.value.length + padding 4 item.value.length))

theorem returns_readXorMapped {buf : List UInt8} {offset limit length : Nat}
    (localAddr : SocketAddr) (long : 8 ≤ length) (inside : offset + length ≤ buf.length)
    (below : offset + length ≤ limit) (small : limit < 2 ^ 32) :
    Returns (readXorMapped buf localAddr offset) limit
      ((mappedAddress ⟨attrXorMappedAddress.toNat, (buf.drop offset).take length⟩).map
        (endpointAt localAddr)) := by
  have value_length : ((buf.drop offset).take length).length = length := length_drop_take inside
  have family : ((buf.drop offset).take length)[1]? = some buf[offset + 1] := by
    rw [List.getElem?_take_of_lt (by omega), List.getElem?_drop, List.getElem?_eq_getElem]
  have word (at_ width : Nat) (inner : at_ + width ≤ length) :
      wordAt ((buf.drop offset).take length) at_ width = wordAt buf (offset + at_) width := by
    rw [wordAt, wordAt, List.drop_take, List.take_take, Nat.min_eq_left (by omega), List.drop_drop]
  unfold mappedAddress
  simp only [value_length, family, word 4 4 (by omega), word 2 2 (by omega), long, true_and,
    Option.some.injEq]
  refine Returns.index_add (by omega) (by omega) (by omega) ?_
  refine (returns_add limit (by omega)).bind ?_
  refine (returns_readU16 (by omega) (by omega) (by omega)).bind ?_
  split_ifs with ipv4
  · refine (returns_add limit (by omega)).bind ?_
    refine (returns_readU32 (by omega) (by omega) (by omega)).bind ?_
    exact returns_pure limit _
  · exact returns_pure limit _

theorem returns_readAttribute {buf : List UInt8} {kind length offset limit : Nat}
    (localAddr : SocketAddr) (kind_lt : kind < 2 ^ 16) (inside : offset + length ≤ buf.length)
    (below : offset + length ≤ limit) (small : limit < 2 ^ 32) :
    Returns (readAttribute buf localAddr (UInt16.ofNat kind) length offset) limit
      ((mappedAddress ⟨kind, (buf.drop offset).take length⟩).map (endpointAt localAddr)) := by
  have value_length : ((buf.drop offset).take length).length = length := length_drop_take inside
  have sought : UInt16.ofNat kind = attrXorMappedAddress ↔ kind = attrXorMappedAddress.toNat := by
    rw [← UInt16.toNat_inj, UInt16.toNat_ofNat', Nat.mod_eq_of_lt kind_lt]
  unfold readAttribute
  split_ifs with readable
  · obtain rfl := sought.mp readable.1
    exact returns_readXorMapped localAddr readable.2 inside below small
  · have unread : mappedAddress ⟨kind, (buf.drop offset).take length⟩ = none := by
      rw [mappedAddress, if_neg]
      rintro ⟨mapped, long, -⟩
      exact readable ⟨sought.mpr mapped, by rwa [value_length] at long⟩
    rw [unread]
    exact returns_pure limit none

theorem returns_pass {buf : List UInt8} {stop offset : Nat} (localAddr : SocketAddr)
    (within : stop ≤ buf.length) (small : stop < 2 ^ 31) (ahead : offset ≤ stop + 4) :
    Returns (pass buf localAddr stop offset) stop
      (passOf localAddr offset (takeItem attributeLayout (remaining buf stop offset))) := by
  unfold pass
  refine (returns_add stop (by omega)).bind ?_
  split_ifs with short
  · rw [takeItem_short within short]
    exact returns_pure stop _
  have kind_lt := wordAt_lt buf offset 2
  have length_lt := wordAt_lt buf (offset + 2) 2
  rw [takeItem_remaining within (by omega) rfl]
  refine (returns_readU16 (by omega) (by omega) (by omega)).bind ?_
  refine (returns_add stop (by omega)).bind ?_
  refine (returns_readU16 (by omega) (by omega) (by omega)).bind ?_
  rw [UInt16.toNat_ofNat', Nat.mod_eq_of_lt (by omega)]
  generalize wordAt buf (offset + 2) 2 = attrLen at *
  refine (returns_add stop (by omega)).bind ?_
  refine (returns_add stop (by omega)).bind ?_
  split_ifs with cut
  · exact returns_pure stop _
  refine (returns_readAttribute localAddr kind_lt (by omega) (by omega) (by omega)).bind ?_
  have value_length : ((buf.drop (offset + 4)).take attrLen).length = attrLen :=
    length_drop_take (by omega)
  unfold passOf
  cases mapped : mappedAddress ⟨wordAt buf offset 2, (buf.drop (offset + 4)).take attrLen⟩ with
  | some publicAddr =>
    simp only [mapped, Option.map_some]
    exact returns_pure stop _
  | none =>
    simp only [mapped, value_length]
    refine (returns_sub stop (by omega)).bind ?_
    refine (returns_add stop (by omega)).bind ?_
    refine (returns_add stop (by omega)).bind ?_
    exact returns_pure stop _

/-! ### The loop and the header -/

def firstMapped (localAddr : SocketAddr) (found : List Item) : StunEndpoint :=
  match found.findSome? mappedAddress with
  | some publicAddr => endpointAt localAddr publicAddr
  | none => { publicAddr := localAddr, isBehindNat := false }

theorem returns_attributeLoop {buf : List UInt8} {stop offset fuel : Nat} (localAddr : SocketAddr)
    (within : stop ≤ buf.length) (small : stop < 2 ^ 31) (ahead : offset ≤ stop + 4)
    (enough : stop - offset < fuel) :
    Returns (attributeLoop buf localAddr stop fuel offset) stop
      (firstMapped localAddr (items attributeLayout (remaining buf stop offset))) := by
  induction fuel generalizing offset with
  | zero => omega
  | succ fuel ih =>
    have step := returns_pass localAddr within small ahead
    refine step.bind ?_
    cases taken : takeItem attributeLayout (remaining buf stop offset) with
    | none =>
      rw [items_none taken]
      exact returns_pure stop _
    | some parts =>
      obtain ⟨item, rest⟩ := parts
      rw [items_some taken]
      unfold passOf firstMapped
      rw [List.findSome?_cons]
      cases mapped : mappedAddress item with
      | some publicAddr =>
        simp only [mapped]
        exact returns_pure stop _
      | none =>
        have inside : offset + 4 ≤ stop := by
          by_contra short
          rw [takeItem_short within (by omega)] at taken
          cases taken
        rw [takeItem_remaining within inside rfl] at taken
        split_ifs at taken with cut
        obtain ⟨rfl, rfl⟩ := Prod.mk.inj (Option.some.inj taken)
        have value_length : ((buf.drop (offset + 4)).take (wordAt buf (offset + 2) 2)).length =
            wordAt buf (offset + 2) 2 := by
          rw [List.length_take, List.length_drop]; omega
        have pad_lt : padding 4 (wordAt buf (offset + 2) 2) < 4 := Nat.mod_lt _ (by decide)
        simp only [mapped, value_length]
        exact ih (by omega) (by omega)

def payloadLen (buf : List UInt8) : Nat := wordAt buf 2 2

theorem payloadLen_lt (buf : List UInt8) : payloadLen buf < 2 ^ 16 := wordAt_lt buf 2 2

def declaredSection (buf : List UInt8) : List UInt8 := remaining buf (20 + payloadLen buf) 20

/-- Why a packet is turned down before its attributes are looked at. -/
def headerError (buf : List UInt8) : Option String :=
  if buf.length < 20 then some "STUN packet too short (< 20 bytes)"
  else if UInt16.ofNat (wordAt buf 0 2) ≠ stunBindingResponse then
    some (unexpectedType (UInt16.ofNat (wordAt buf 0 2)))
  else if UInt32.ofNat (wordAt buf 4 4) ≠ stunMagicCookie then some "Invalid STUN Magic Cookie"
  else if buf.length < 20 + payloadLen buf then some "Truncated STUN payload attributes"
  else none

def decoded (buf : List UInt8) (localAddr : SocketAddr) : Except String StunEndpoint :=
  match headerError buf with
  | some message => .error message
  | none => .ok (firstMapped localAddr (items attributeLayout (declaredSection buf)))

theorem returns_decodeBindingResponse {buf : List UInt8} {fuel : Nat} (localAddr : SocketAddr)
    (enough : buf.length < fuel) :
    Returns (decodeBindingResponse fuel buf localAddr) (min buf.length (20 + payloadLen buf))
      (decoded buf localAddr) := by
  have payload_lt := payloadLen_lt buf
  unfold decodeBindingResponse decoded headerError
  split_ifs with short other cookie truncated
  · exact returns_pure _ _
  · refine (returns_readU16 (by omega) (by omega) (by omega)).bind ?_
    rw [if_pos other]
    exact returns_pure _ _
  · refine (returns_readU16 (by omega) (by omega) (by omega)).bind ?_
    rw [if_neg other]
    refine (returns_readU32 (by omega) (by omega) (by omega)).bind ?_
    rw [if_pos cookie]
    exact returns_pure _ _
  all_goals
    refine (returns_readU16 (by omega) (by omega) (by omega)).bind ?_
    rw [if_neg other]
    refine (returns_readU32 (by omega) (by omega) (by omega)).bind ?_
    rw [if_neg cookie]
    refine (returns_slice (by omega) (by omega) (by omega)).bind ?_
    refine (returns_copyFromSlice _ (by simp; omega)).bind ?_
    refine (returns_readU16 (by omega) (by omega) (by omega)).bind ?_
    have payload : (UInt16.ofNat (wordAt buf 2 2)).toNat = payloadLen buf := by
      rw [UInt16.toNat_ofNat']
      exact Nat.mod_eq_of_lt payload_lt
    rw [payload]
    refine (returns_add _ (by omega)).bind ?_
  · rw [if_pos truncated]
    exact returns_pure _ _
  · rw [if_neg truncated]
    have loop := returns_attributeLoop localAddr (Nat.le_of_not_lt truncated)
      (by omega) (by omega : 20 ≤ 20 + payloadLen buf + 4) (by omega : _ < fuel)
    exact (loop.mono (by omega)).bind (returns_pure _ _)

/-- A pass that goes round again has moved past an attribute's header, whatever the buffer. -/
theorem pass_advances {buf : List UInt8} {localAddr : SocketAddr} {stop offset next : Nat}
    (again : (pass buf localAddr stop offset).outcome = .ok (.next next)) : offset + 4 ≤ next := by
  obtain ⟨header, -, again⟩ := bind_outcome again
  split_ifs at again with short
  · cases pure_outcome again
  obtain ⟨attrType, -, again⟩ := bind_outcome again
  obtain ⟨lengthAt, -, again⟩ := bind_outcome again
  obtain ⟨attrLen, -, again⟩ := bind_outcome again
  obtain ⟨value, value_eq, again⟩ := bind_outcome again
  obtain ⟨past, -, again⟩ := bind_outcome again
  split_ifs at again with cut
  · cases pure_outcome again
  obtain ⟨endpoint, -, again⟩ := bind_outcome again
  cases endpoint with
  | some endpoint => cases pure_outcome again
  | none =>
    obtain ⟨missing, -, again⟩ := bind_outcome again
    obtain ⟨step, -, again⟩ := bind_outcome again
    obtain ⟨last, last_eq, again⟩ := bind_outcome again
    obtain rfl := Pass.next.inj (pure_outcome again)
    have value_at := add_outcome value_eq
    have last_at := add_outcome last_eq
    omega

/-- Every packet is decoded to its end: nothing fails, nothing is read past the section that
the header declares or past the buffer, and each pass of the loop moves on. -/
theorem decodeBindingResponse_safe (buf : List UInt8) (localAddr : SocketAddr) (fuel : Nat)
    (enough : buf.length < fuel) :
    (∃ result, (decodeBindingResponse fuel buf localAddr).outcome = .ok result) ∧
    (∀ i ∈ (decodeBindingResponse fuel buf localAddr).reads,
      i < buf.length ∧ i < 20 + payloadLen buf) ∧
    (buf.length < 20 + payloadLen buf → ∃ message,
      (decodeBindingResponse fuel buf localAddr).outcome = .ok (.error message)) ∧
    ∀ stop offset next, (pass buf localAddr stop offset).outcome = .ok (.next next) →
      offset + 4 ≤ next := by
  have ran := returns_decodeBindingResponse localAddr enough
  refine ⟨⟨_, ran.outcome⟩, fun i read => ?_, fun cut => ?_, fun stop offset next => pass_advances⟩
  · have inside := ran.inside i read
    omega
  · have rejected : ∃ message, headerError buf = some message := by
      unfold headerError
      split_ifs <;> exact ⟨_, rfl⟩
    obtain ⟨message, rejected⟩ := rejected
    exact ⟨message, by rw [ran.outcome, decoded, rejected]⟩

/-- A SOFTWARE attribute of odd length, an XOR-MAPPED-ADDRESS, and a byte behind the response. -/
def softwareResponse : List UInt8 :=
  [0x01, 0x01, 0x00, 0x18, 0x21, 0x12, 0xA4, 0x42] ++ List.replicate 12 7 ++
    [0x80, 0x22, 0x00, 0x05, 0x73, 0x74, 0x75, 0x6E, 0x64, 0x00, 0x00, 0x00] ++
    [0x00, 0x20, 0x00, 0x08, 0x00, 0x01, 0x31, 0x80, 0xE7, 0x21, 0xC0, 0x40] ++ [0xFF]

/-- The last byte of the address is read, the byte behind it is not. -/
theorem decodeBindingResponse_safe_software :
    43 ∈ (decodeBindingResponse 46 softwareResponse (.v4 0 0)).reads ∧
    (∃ result, (decodeBindingResponse 46 softwareResponse (.v4 0 0)).outcome = .ok result) ∧
    ∀ i ∈ (decodeBindingResponse 46 softwareResponse (.v4 0 0)).reads, i < 44 := by
  obtain ⟨returns, inside, -, -⟩ :=
    decodeBindingResponse_safe softwareResponse (.v4 0 0) 46 (by decide)
  have declared : 20 + payloadLen softwareResponse = 44 := by decide
  exact ⟨by decide, returns, fun i read => declared ▸ (inside i read).2⟩

/-! ### Well-formed responses -/

/-- A Binding Response whose attributes fit the header's 16-bit length. -/
structure BindingResponse where
  txId : List UInt8
  attributes : List (Padded attributeLayout)
  txId_length : txId.length = 12
  fits : (attributes.map Padded.bytes).flatten.length < 2 ^ 16

def BindingResponse.section_ (r : BindingResponse) : List UInt8 :=
  (r.attributes.map Padded.bytes).flatten

def BindingResponse.encode (r : BindingResponse) : List UInt8 :=
  BigEndian.toBytes 2 stunBindingResponse.toNat ++ (BigEndian.toBytes 2 r.section_.length ++
    (BigEndian.toBytes 4 stunMagicCookie.toNat ++ (r.txId ++ r.section_)))

def xorMapped (ip : UInt32) (port : UInt16) : Padded attributeLayout where
  kind := attrXorMappedAddress.toNat
  value := ([0x00, 0x01] : List UInt8) ++
    (BigEndian.toBytes 2 (port ^^^ (stunMagicCookie >>> 16).toUInt16).toNat ++
      BigEndian.toBytes 4 (ip ^^^ stunMagicCookie).toNat)
  filler := []
  kind_lt := by decide
  length_lt := by simp [attributeLayout]
  filler_length := by simp [padding, attributeLayout]

theorem wordAt_written {front rest : List UInt8} {offset width n : Nat}
    (past : front.length = offset) (fits : n < 256 ^ width) :
    wordAt (front ++ (BigEndian.toBytes width n ++ rest)) offset width = n := by
  rw [wordAt, ← past, List.drop_left' rfl, List.take_left' (BigEndian.length_toBytes _ _),
    BigEndian.toNat_toBytes, Nat.mod_eq_of_lt fits]

theorem mappedAddress_xorMapped (ip : UInt32) (port : UInt16) :
    mappedAddress (xorMapped ip port).item = some (.v4 ip port) := by
  have readable : (xorMapped ip port).item.kind = attrXorMappedAddress.toNat ∧
      8 ≤ (xorMapped ip port).item.value.length ∧
      (xorMapped ip port).item.value[1]? = some 0x01 :=
    ⟨rfl, by simp [xorMapped, Padded.item], rfl⟩
  have port_word : wordAt (xorMapped ip port).item.value 2 2 =
      (port ^^^ (stunMagicCookie >>> 16).toUInt16).toNat :=
    wordAt_written rfl (UInt16.toNat_lt _)
  have ip_word : wordAt (xorMapped ip port).item.value 4 4 = (ip ^^^ stunMagicCookie).toNat := by
    change wordAt ([0x00, 0x01] ++ (BigEndian.toBytes 2 _ ++ BigEndian.toBytes 4 _)) 4 4 = _
    rw [← List.append_assoc, ← List.append_nil (BigEndian.toBytes 4 _)]
    exact wordAt_written (by simp) (UInt32.toNat_lt _)
  rw [mappedAddress, if_pos readable, ip_word, port_word, UInt32.ofNat_toNat, UInt16.ofNat_toNat,
    UInt32.xor_assoc, UInt32.xor_self, UInt32.xor_zero, UInt16.xor_assoc, UInt16.xor_self,
    UInt16.xor_zero]

theorem length_encode (r : BindingResponse) : r.encode.length = 20 + r.section_.length := by
  simp only [BindingResponse.encode, List.length_append, BigEndian.length_toBytes, r.txId_length]
  omega

theorem encode_append (r : BindingResponse) (trailing : List UInt8) :
    r.encode ++ trailing = BigEndian.toBytes 2 stunBindingResponse.toNat ++
      (BigEndian.toBytes 2 r.section_.length ++ (BigEndian.toBytes 4 stunMagicCookie.toNat ++
        (r.txId ++ (r.section_ ++ trailing)))) := by
  simp only [BindingResponse.encode, List.append_assoc]

theorem payloadLen_encode (r : BindingResponse) (trailing : List UInt8) :
    payloadLen (r.encode ++ trailing) = r.section_.length := by
  rw [payloadLen, encode_append]
  exact wordAt_written (by simp) r.fits

theorem headerError_encode (r : BindingResponse) (trailing : List UInt8) :
    headerError (r.encode ++ trailing) = none := by
  have size : (r.encode ++ trailing).length = 20 + r.section_.length + trailing.length := by
    rw [List.length_append, length_encode]
  have type_word : wordAt (r.encode ++ trailing) 0 2 = stunBindingResponse.toNat := by
    rw [encode_append, ← List.nil_append (_ ++ _)]
    exact wordAt_written rfl (by decide)
  have cookie_word : wordAt (r.encode ++ trailing) 4 4 = stunMagicCookie.toNat := by
    rw [encode_append, ← List.append_assoc]
    exact wordAt_written (by simp) (by decide)
  rw [headerError, payloadLen_encode, size, type_word, cookie_word, UInt16.ofNat_toNat,
    UInt32.ofNat_toNat, if_neg (by omega), if_neg (by simp), if_neg (by simp), if_neg (by omega)]

theorem declaredSection_encode (r : BindingResponse) (trailing : List UInt8) :
    declaredSection (r.encode ++ trailing) = r.section_ := by
  rw [declaredSection, payloadLen_encode, remaining, ← length_encode, List.take_left' rfl,
    BindingResponse.encode, ← List.append_assoc, ← List.append_assoc, ← List.append_assoc,
    List.drop_left' (by simp [r.txId_length])]

/-- A response is decoded to the address of its first IPv4 XOR-MAPPED-ADDRESS, whatever the
attributes around it and the bytes after it. -/
theorem decodeBindingResponse_encode (r : BindingResponse) (ip : UInt32) (port : UInt16)
    (before after : List (Padded attributeLayout))
    (carries : r.attributes = before ++ xorMapped ip port :: after)
    (others : ∀ a ∈ before, ¬ (a.kind = attrXorMappedAddress.toNat ∧ 8 ≤ a.value.length ∧
      a.value[1]? = some 0x01))
    (trailing : List UInt8) (localAddr : SocketAddr) (fuel : Nat)
    (enough : (r.encode ++ trailing).length < fuel) :
    (decodeBindingResponse fuel (r.encode ++ trailing) localAddr).outcome =
      .ok (.ok { publicAddr := .v4 ip port, isBehindNat := .v4 ip port ≠ localAddr }) := by
  have passed_over : (before.map Padded.item).findSome? mappedAddress = none := by
    rw [List.findSome?_eq_none_iff]
    intro item found
    obtain ⟨a, among, rfl⟩ := List.mem_map.mp found
    exact if_neg (others a among)
  have found : items attributeLayout r.section_ =
      before.map Padded.item ++ (xorMapped ip port).item :: after.map Padded.item := by
    rw [BindingResponse.section_, items_bytes, carries, List.map_append, List.map_cons]
  have first : firstMapped localAddr (items attributeLayout r.section_) =
      endpointAt localAddr (.v4 ip port) := by
    rw [firstMapped, found, List.findSome?_append, passed_over, List.findSome?_cons,
      mappedAddress_xorMapped]
    rfl
  rw [(returns_decodeBindingResponse localAddr enough).outcome, decoded, headerError_encode,
    declaredSection_encode]
  exact congrArg (fun e => Except.ok (Except.ok e)) first

theorem decodeBindingResponse_encode_behind_nat :
    ∃ software : Padded attributeLayout, ∃ r : BindingResponse,
      software.value.length = 5 ∧ r.attributes = [software, xorMapped 0xC6336402 4242] ∧
      (decodeBindingResponse 100 (r.encode ++ [0xFF]) (.v4 0xC0A80132 18443)).outcome =
        .ok (.ok { publicAddr := .v4 0xC6336402 4242, isBehindNat := true }) :=
  ⟨⟨0x8022, [0x73, 0x74, 0x75, 0x6E, 0x64], [0, 0, 0], by decide, by decide, by decide⟩,
    ⟨List.replicate 12 7, [_, xorMapped 0xC6336402 4242], rfl, by decide⟩, rfl, rfl,
    decodeBindingResponse_encode _ 0xC6336402 4242 [_] [] rfl (by decide) [0xFF]
      (.v4 0xC0A80132 18443) 100 (by decide)⟩

/-! ### What an answer stands for -/

/-- An endpoint comes from a complete, readable attribute of the declared section, or else
no attribute before the first incomplete one is readable and the local address is answered. -/
theorem decodeBindingResponse_ok (buf : List UInt8) (localAddr : SocketAddr) (fuel : Nat)
    (endpoint : StunEndpoint) (enough : buf.length < fuel)
    (answered : (decodeBindingResponse fuel buf localAddr).outcome = .ok (.ok endpoint)) :
    (∃ item ∈ items attributeLayout (declaredSection buf),
      item.bytes attributeLayout <:+: declaredSection buf ∧
      mappedAddress item = some endpoint.publicAddr ∧
      endpoint.isBehindNat = decide (endpoint.publicAddr ≠ localAddr)) ∨
    ((∀ item ∈ items attributeLayout (declaredSection buf), mappedAddress item = none) ∧
      endpoint = { publicAddr := localAddr, isBehindNat := false }) := by
  rw [(returns_decodeBindingResponse localAddr enough).outcome, decoded] at answered
  cases header : headerError buf with
  | some message => rw [header] at answered; cases answered
  | none =>
    rw [header] at answered
    obtain rfl := Except.ok.inj (Except.ok.inj answered)
    unfold firstMapped
    cases found : (items attributeLayout (declaredSection buf)).findSome? mappedAddress with
    | none => exact .inr ⟨List.findSome?_eq_none_iff.mp found, rfl⟩
    | some publicAddr =>
      obtain ⟨item, among, mapped⟩ := List.exists_of_findSome?_eq_some found
      exact .inl ⟨item, among, bytes_infix among, mapped, rfl⟩

/-- The section has an IPv4 XOR-MAPPED-ADDRESS before its end and its first incomplete
attribute. -/
def HasMapping (buf : List UInt8) : Prop :=
  ∃ item ∈ items attributeLayout (declaredSection buf),
    item.kind = attrXorMappedAddress.toNat ∧ 8 ≤ item.value.length ∧ item.value[1]? = some 0x01

theorem mappedAddress_ne_none_iff (item : Item) : mappedAddress item ≠ none ↔
    item.kind = attrXorMappedAddress.toNat ∧ 8 ≤ item.value.length ∧
      item.value[1]? = some 0x01 := by
  unfold mappedAddress
  split_ifs with readable
  · exact iff_of_true (by simp) readable
  · exact iff_of_false (by simp) readable

/-- Every endpoint stands for an attribute of the section exactly if the header is turned down
or there is one to stand for; everything else is answered with the local address. -/
theorem decodeBindingResponse_mapping_iff (buf : List UInt8) (localAddr : SocketAddr) (fuel : Nat)
    (enough : buf.length < fuel) :
    (∀ endpoint, (decodeBindingResponse fuel buf localAddr).outcome = .ok (.ok endpoint) →
      ∃ item ∈ items attributeLayout (declaredSection buf),
        item.bytes attributeLayout <:+: declaredSection buf ∧
        mappedAddress item = some endpoint.publicAddr ∧
        endpoint.isBehindNat = decide (endpoint.publicAddr ≠ localAddr)) ↔
    headerError buf ≠ none ∨ HasMapping buf := by
  constructor
  · intro truthful
    by_contra neither
    obtain ⟨accepted, nothing⟩ := not_or.mp neither
    rw [not_not] at accepted
    have answered : (decodeBindingResponse fuel buf localAddr).outcome =
        .ok (.ok (firstMapped localAddr (items attributeLayout (declaredSection buf)))) := by
      rw [(returns_decodeBindingResponse localAddr enough).outcome, decoded, accepted]
    obtain ⟨item, among, -, mapped, -⟩ := truthful _ answered
    refine nothing ⟨item, among, (mappedAddress_ne_none_iff item).mp ?_⟩
    rw [mapped]
    exact Option.some_ne_none _
  · intro condition endpoint answered
    obtain known | ⟨unread, -⟩ :=
      decodeBindingResponse_ok buf localAddr fuel endpoint enough answered
    · exact known
    · obtain refused | ⟨item, among, readable⟩ := condition
      · rw [(returns_decodeBindingResponse localAddr enough).outcome, decoded] at answered
        obtain ⟨message, refused⟩ := Option.ne_none_iff_exists'.mp refused
        rw [refused] at answered
        cases answered
      · exact absurd (unread item among) ((mappedAddress_ne_none_iff item).mpr readable)

theorem items_encode (r : BindingResponse) :
    items attributeLayout (declaredSection r.encode) = r.attributes.map Padded.item := by
  rw [← List.append_nil r.encode, declaredSection_encode, BindingResponse.section_, items_bytes]

/-- The mapping of a host at the address of its gateway, behind a FINGERPRINT attribute. -/
theorem decodeBindingResponse_mapping_iff_gateway :
    ∃ fingerprint : Padded attributeLayout, ∃ r : BindingResponse,
      r.attributes = [fingerprint, xorMapped 0xC0A80132 18443] ∧
      ∀ endpoint,
        (decodeBindingResponse 100 r.encode (.v4 0xC0A80132 18443)).outcome = .ok (.ok endpoint) →
        ∃ item ∈ r.attributes.map Padded.item, mappedAddress item = some endpoint.publicAddr ∧
          endpoint.isBehindNat = decide (endpoint.publicAddr ≠ .v4 0xC0A80132 18443) := by
  let fingerprint : Padded attributeLayout :=
    ⟨0x8028, [0x5A, 0x3B, 0x11, 0x0C], [], by decide, by decide, by decide⟩
  let r : BindingResponse :=
    ⟨List.replicate 12 7, [fingerprint, xorMapped 0xC0A80132 18443], rfl, by decide⟩
  have mapping : HasMapping r.encode := by
    refine ⟨(xorMapped 0xC0A80132 18443).item, ?_, by decide⟩
    rw [items_encode]
    exact List.mem_cons_of_mem _ (List.mem_singleton_self _)
  have truthful := (decodeBindingResponse_mapping_iff r.encode (.v4 0xC0A80132 18443) 100
    (by decide)).mpr (.inr mapping)
  refine ⟨fingerprint, r, rfl, fun endpoint answered => ?_⟩
  obtain ⟨item, among, -, mapped, behind⟩ := truthful endpoint answered
  rw [items_encode] at among
  exact ⟨item, among, mapped, behind⟩

def xorMappedV6 : Padded attributeLayout where
  kind := attrXorMappedAddress.toNat
  value := [0x00, 0x02, 0x31, 0x80, 0x01, 0x13, 0xA9, 0xFA] ++ List.replicate 11 7 ++ [6]
  filler := []
  kind_lt := by decide
  length_lt := by decide
  filler_length := by decide

/-- A mapping of the other family is answered with the local address and no NAT. -/
theorem ipv6_mapping_is_passed_over :
    ∃ r : BindingResponse, r.attributes = [xorMappedV6] ∧
      (decodeBindingResponse 100 r.encode (.v4 0xC0A80132 18443)).outcome =
        .ok (.ok { publicAddr := .v4 0xC0A80132 18443, isBehindNat := false }) ∧
      ¬ ∃ item ∈ items attributeLayout (declaredSection r.encode),
        mappedAddress item = some (.v4 0xC0A80132 18443) := by
  refine ⟨⟨List.replicate 12 7, [xorMappedV6], rfl, by decide⟩, rfl, by decide, ?_⟩
  rintro ⟨item, among, mapped⟩
  rw [items_encode] at among
  obtain rfl := List.mem_singleton.mp among
  exact absurd mapped (by decide)

end RemoteAccess.StunCodec
