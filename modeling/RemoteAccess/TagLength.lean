import RemoteAccess.CryptoTampering

/-! What the tag sees of a body's length. A block's length enters the accumulator
as a marker in the upper limb, `2^(8 * (length - 8))` from 9 to 15 bytes and 1
for every other length: a block of up to 8 bytes and a full one share theirs.
Zero bytes add nothing else, so whether a change of length by zero bytes reaches
the tag is a matter of the markers and of how often the key was multiplied in. -/

namespace RemoteAccess.TagLength

open LittleEndian Blocks Horner CryptoEngine CryptoTampering

/-- `1ULL << count` on a target that takes the count modulo 64. -/
def shiftWrapped (count : Nat) : UInt64 := 1 <<< UInt64.ofNat (count % 64)

/-! ### One block -/

def marker (blockLen : Nat) : ℤ :=
  if 9 ≤ blockLen ∧ blockLen ≤ 15 then 2 ^ (8 * (blockLen - 8)) else 1

theorem shiftOne_markerShift {blockLen : Nat} (fits : blockLen ≤ 16) :
    (shiftOne shiftWrapped (markerShift blockLen)).toBitVec = (marker blockLen : BitVec 64) := by
  have table : ∀ b : Fin 17, (shiftOne shiftWrapped (markerShift b.val)).toBitVec =
      (marker b.val : BitVec 64) := by decide
  exact table ⟨blockLen, by omega⟩

def bytesElement (block : List UInt8) : Crossed (BitVec 64) :=
  ⟨((LittleEndian.toNat (block.take 8) : ℤ) : BitVec 64),
    ((LittleEndian.toNat (block.drop 8) : ℤ) : BitVec 64)⟩

def markerElement (blockLen : Nat) : Crossed (BitVec 64) := ⟨0, (marker blockLen : BitVec 64)⟩

theorem blockElement_eq {block : List UInt8} (fits : block.length ≤ 16) :
    blockElement shiftWrapped block = bytesElement block + markerElement block.length := by
  rw [blockElement, bytesElement, markerElement, mk_add, add_zero, UInt64.toBitVec_add,
    shiftOne_markerShift fits, toBitVec_orBytes (block.take 8) (List.length_take_le 8 block),
    toBitVec_orBytes (block.drop 8) (by rw [List.length_drop]; omega)]

theorem toNat_append_zeros (bytes : List UInt8) (zeros : Nat) :
    LittleEndian.toNat (bytes ++ List.replicate zeros 0) = LittleEndian.toNat bytes := by
  have nothing : LittleEndian.toNat (List.replicate zeros 0) = 0 := by
    induction zeros with
    | zero => rfl
    | succ zeros ih => rw [List.replicate_succ, toNat_cons, ih]; rfl
  rw [toNat_append, nothing, mul_zero, add_zero]

theorem bytesElement_append_zeros (block : List UInt8) (zeros : Nat) :
    bytesElement (block ++ List.replicate zeros 0) = bytesElement block := by
  rw [bytesElement, List.take_append, List.drop_append, List.take_replicate, List.drop_replicate,
    toNat_append_zeros, toNat_append_zeros, bytesElement]

/-! ### A whole body -/

def keyLimbs (key : List UInt8) : Crossed (BitVec 64) := limbs (multiplier0 key, multiplier1 key)

def blockCount (len : Nat) : Nat := (len + 15) / 16

/-- `m₁ * r^n + … + m_n * r` for the bytes of the `n` blocks. -/
def bytesValue (key body : List UInt8) : Crossed (BitVec 64) :=
  horner (keyLimbs key) 0 ((blocks 16 body).map bytesElement)

/-- The same sum of the markers of a body of `len` bytes. -/
def markersValue (key : List UInt8) (len : Nat) : Crossed (BitVec 64) :=
  horner (keyLimbs key) 0
    ((List.range (blockCount len)).map fun i => markerElement (min 16 (len - 16 * i)))

theorem limbs_macAccumulate_eq (key body : List UInt8) :
    limbs (macAccumulate shiftWrapped body key) =
      bytesValue key body + markersValue key body.length := by
  have elements : (blocks 16 body).map (blockElement shiftWrapped) =
      (blocks 16 body).map fun block => bytesElement block + markerElement block.length :=
    List.map_congr_left fun block member =>
      blockElement_eq (length_le_of_mem_blocks (by norm_num) member)
  have lengths : (blocks 16 body).map (fun block => markerElement block.length) =
      (List.range (blockCount body.length)).map
        fun i => markerElement (min 16 (body.length - 16 * i)) := by
    have sizes := congrArg (List.map markerElement)
      (map_length_blocks (show 0 < 16 by norm_num) body)
    rw [List.map_map, List.map_map] at sizes
    exact sizes
  have start : limbs (0, 0) = 0 + 0 := rfl
  rw [limbs_macAccumulate, elements, start, horner_map_add, lengths]
  rfl

theorem bytesValue_append_zeros (key short : List UInt8) (zeros : Nat) :
    bytesValue key (short ++ List.replicate zeros 0) =
      bytesValue key short *
        keyLimbs key ^ (blockCount (short.length + zeros) - blockCount short.length) := by
  obtain ⟨more, added⟩ := map_blocks_append_replicate (show 0 < 16 by norm_num)
    bytesElement_append_zeros short zeros
  have count := congrArg List.length added
  rw [List.length_map, List.length_append, List.length_map, List.length_replicate,
    length_blocks (by norm_num), length_blocks (by norm_num), List.length_append,
    List.length_replicate] at count
  have nothing : bytesElement [] = 0 := rfl
  have extra : blockCount (short.length + zeros) - blockCount short.length = more := by
    rw [blockCount, blockCount]
    omega
  rw [bytesValue, added, nothing, horner_append, horner_replicate_zero, extra, bytesValue]

/-- The markers of two lengths with as many blocks differ in the last one only. -/
theorem markersValue_sub (key : List UInt8) {len len' : Nat} (pos : 0 < len)
    (count : blockCount len' = blockCount len) :
    markersValue key len' - markersValue key len =
      (markerElement ((len' - 1) % 16 + 1) - markerElement ((len - 1) % 16 + 1)) *
        keyLimbs key := by
  obtain ⟨n, last⟩ : ∃ n, blockCount len = n + 1 :=
    Nat.exists_eq_add_of_le' (by rw [blockCount]; omega)
  have before : ∀ i ∈ List.range n, markerElement (min 16 (len' - 16 * i)) =
      markerElement (min 16 (len - 16 * i)) := by
    intro i member
    have early := List.mem_range.mp member
    rw [blockCount] at last count
    rw [blockCount] at count
    rw [Nat.min_eq_left (by omega), Nat.min_eq_left (by omega)]
  have final : min 16 (len - 16 * n) = (len - 1) % 16 + 1 := by
    rw [blockCount] at last
    omega
  have final' : min 16 (len' - 16 * n) = (len' - 1) % 16 + 1 := by
    rw [last, blockCount] at count
    omega
  have moved := horner_replace (keyLimbs key) 0 (markerElement ((len - 1) % 16 + 1))
    (markerElement ((len' - 1) % 16 + 1) - markerElement ((len - 1) % 16 + 1))
    ((List.range n).map fun i => markerElement (min 16 (len - 16 * i))) []
  rw [add_sub_cancel, List.length_nil, zero_add, pow_one] at moved
  rw [markersValue, markersValue, count, last, List.range_succ, List.map_append, List.map_append,
    List.map_congr_left before, List.map_singleton, List.map_singleton, final, final', moved,
    add_sub_cancel_left]

theorem markerElement_sub_mul_eq_zero_iff (key : List UInt8) (blockLen blockLen' : Nat) :
    (markerElement blockLen' - markerElement blockLen) * keyLimbs key = 0 ↔
      (2 ^ 64 : ℤ) ∣ (marker blockLen' - marker blockLen) * (multiplier0 key).toNat ∧
        (2 ^ 64 : ℤ) ∣ (marker blockLen' - marker blockLen) * (multiplier1 key).toNat := by
  have difference : markerElement blockLen' - markerElement blockLen =
      ⟨0, ((marker blockLen' - marker blockLen : ℤ) : BitVec 64)⟩ := by
    rw [markerElement, markerElement, Int.cast_sub]
    ext <;> simp
  rw [difference, keyLimbs, limbs_eq, mk_mul, zero_mul, zero_mul, zero_add, zero_add,
    ← Int.cast_mul, ← Int.cast_mul, QuadraticAlgebra.ext_iff]
  simp only [QuadraticAlgebra.re_zero, QuadraticAlgebra.im_zero, intCast_eq_zero_iff]
  rw [and_comm]

/-! ### Changes of length -/

/-- Trailing zero bytes dropped, or zero bytes appended within the last block. -/
inductive Resized (short : List UInt8) (zeros : Nat) : (body body' : List UInt8) → Prop
  | dropped (pos : 0 < zeros) : Resized short zeros (short ++ List.replicate zeros 0) short
  | appended (pos : 0 < zeros) (within : short.length + zeros ≤ 16 * blockCount short.length) :
      Resized short zeros short (short ++ List.replicate zeros 0)

/-- `zeros` more zero bytes behind `short` leave the accumulator as it was. With
no block added the key must multiply the change of the last marker away; with
`d` more blocks what `short` loses by `d` factors must be what the markers gain. -/
def Unseen (key short : List UInt8) (zeros : Nat) : Prop :=
  let len := short.length + zeros
  let change := marker ((len - 1) % 16 + 1) - marker ((short.length - 1) % 16 + 1)
  if blockCount len = blockCount short.length then
    (2 ^ 64 : ℤ) ∣ change * (multiplier0 key).toNat ∧
      (2 ^ 64 : ℤ) ∣ change * (multiplier1 key).toNat
  else
    bytesValue key short *
        (1 - keyLimbs key ^ (blockCount len - blockCount short.length)) =
      markersValue key len - markersValue key short.length

theorem unseen_of_marker_eq (key : List UInt8) {short : List UInt8} {zeros : Nat}
    (count : blockCount (short.length + zeros) = blockCount short.length)
    (same : marker ((short.length + zeros - 1) % 16 + 1) =
      marker ((short.length - 1) % 16 + 1)) : Unseen key short zeros := by
  rw [Unseen, if_pos count, same, sub_self, zero_mul, zero_mul]
  exact ⟨dvd_zero _, dvd_zero _⟩

theorem macAccumulate_append_zeros_eq_iff (key short : List UInt8) {zeros : Nat}
    (pos : 0 < zeros) :
    macAccumulate shiftWrapped (short ++ List.replicate zeros 0) key =
        macAccumulate shiftWrapped short key ↔
      Unseen key short zeros := by
  have values : macAccumulate shiftWrapped (short ++ List.replicate zeros 0) key =
      macAccumulate shiftWrapped short key ↔
      bytesValue key short *
          (1 - keyLimbs key ^ (blockCount (short.length + zeros) - blockCount short.length)) =
        markersValue key (short.length + zeros) - markersValue key short.length := by
    constructor
    · intro same
      have sides := congrArg limbs same
      rw [limbs_macAccumulate_eq, limbs_macAccumulate_eq, bytesValue_append_zeros,
        List.length_append, List.length_replicate] at sides
      linear_combination -sides
    · intro balance
      apply limbs_injective
      rw [limbs_macAccumulate_eq, limbs_macAccumulate_eq, bytesValue_append_zeros,
        List.length_append, List.length_replicate]
      linear_combination -balance
  rw [values, Unseen]
  split_ifs with count
  · have nonempty : 0 < short.length := by
      rw [blockCount, blockCount] at count
      omega
    rw [count, Nat.sub_self, pow_zero, sub_self, mul_zero, markersValue_sub key nonempty count,
      eq_comm, markerElement_sub_mul_eq_zero_iff]
  · rfl

/-- A change of length by zero bytes is rejected exactly when it is not unseen. -/
theorem resized_rejected_iff (key nonce plaintext body tag body' short : List UInt8)
    (zeros : Nat) (keyOk : key.length = 32) (nonceOk : nonce.length = 12)
    (tagLen : tag.length = 16)
    (sealed : encryptPayload shiftWrapped plaintext key nonce = .ok (body ++ tag))
    (resized : Resized short zeros body body') :
    decryptPayload shiftWrapped (body' ++ tag) key nonce = none ↔ ¬ Unseen key short zeros := by
  rw [decryptPayload_other_body shiftWrapped keyOk nonceOk tagLen sealed]
  cases resized with
  | dropped pos =>
    exact not_congr (eq_comm.trans (macAccumulate_append_zeros_eq_iff key _ pos))
  | appended pos _ =>
    exact not_congr (macAccumulate_append_zeros_eq_iff key _ pos)

/-- Eight bytes made nine: the marker moves from 1 to 256. -/
theorem resized_rejected_iff_nine :
    ∃ body tag, encryptPayload shiftWrapped (List.replicate 8 0) (List.replicate 32 4)
          (List.replicate 12 0) = .ok (body ++ tag) ∧
      Resized body 1 body (body ++ [0]) ∧
      decryptPayload shiftWrapped (body ++ [0] ++ tag) (List.replicate 32 4)
          (List.replicate 12 0) = none := by
  let body := chacha20Xor (List.replicate 8 0) (List.replicate 32 4) (List.replicate 12 0) 1
  have len : body.length = 8 := by rw [length_chacha20Xor, List.length_replicate]
  have ok := @encryptPayload_eq shiftWrapped (List.replicate 32 4) (List.replicate 12 0) rfl rfl
    (List.replicate 8 0)
  have resized : Resized body 1 body (body ++ [0]) :=
    .appended (by decide) (by rw [len]; decide)
  refine ⟨body, _, ok, resized, (resized_rejected_iff _ _ _ body _ _ body 1 rfl rfl
    (length_computePoly1305Mac ..) ok resized).mpr ?_⟩
  rw [Unseen, len]
  decide

/-- A one-byte payload opens with a zero byte put behind it, both lengths having marker 1. -/
theorem appended_zero_accepted :
    ∃ body tag, encryptPayload shiftWrapped [0] (List.replicate 32 4)
          (List.replicate 12 0) = .ok (body ++ tag) ∧ tag.length = 16 ∧
      Resized body 1 body (body ++ [0]) ∧
      decryptPayload shiftWrapped (body ++ [0] ++ tag) (List.replicate 32 4)
          (List.replicate 12 0) ≠ none := by
  let body := chacha20Xor [0] (List.replicate 32 4) (List.replicate 12 0) 1
  have len : body.length = 1 := length_chacha20Xor ..
  have ok := @encryptPayload_eq shiftWrapped (List.replicate 32 4) (List.replicate 12 0) rfl rfl
    [0]
  have resized : Resized body 1 body (body ++ [0]) :=
    .appended (by decide) (by rw [len]; decide)
  have unseen : Unseen (List.replicate 32 4) body 1 :=
    unseen_of_marker_eq _ (by rw [len]; decide) (by rw [len]; decide)
  refine ⟨body, _, ok, length_computePoly1305Mac .., resized, ?_⟩
  rw [Ne, decryptPayload_other_body shiftWrapped rfl rfl (length_computePoly1305Mac ..) ok,
    not_not]
  exact (macAccumulate_append_zeros_eq_iff _ body (by decide)).mpr unseen

end RemoteAccess.TagLength
