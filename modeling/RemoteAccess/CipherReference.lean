import RemoteAccess.Basics.ChaChaPoly
import RemoteAccess.CryptoTampering
import Mathlib.Data.Int.ModEq

/-! The payload cipher against the construction it is named after. The rounds,
the block and the counter mode of `CryptoEngine.cpp` are those of ChaCha20; two
of the four constant words are not. The tag is keyed by the session key itself
instead of by block 0, without padding or lengths, and not modulo `2^130 - 5`: it is
two polynomials in sums and differences of words, modulo `2^64`. -/

namespace RemoteAccess.CipherReference

open LittleEndian Blocks ChaChaPoly Horner CryptoEngine CryptoTampering

/-- The constant words of `chacha20Block`; the second and third are mistyped. -/
def sourceConstants : Vector UInt32 4 := #v[0x61707865, 0x33303232, 0x7962326d, 0x6b206574]

/-! ### The stream -/

theorem quarterRoundAt_toList (out : Vector UInt32 16) (i j k l : Fin 16) :
    (quarterRoundAt out i j k l).toList = ChaChaPoly.quarterRound out.toList i j k l := by
  have entry : ∀ i : Fin 16, out.toList.getD i 0 = out[i] := by
    intro i
    simp [List.getD_eq_getElem?_getD]
  simp only [quarterRoundAt, ChaChaPoly.quarterRound, entry, Vector.toList_set]
  rfl

theorem doubleRound_toList (out : Vector UInt32 16) :
    (doubleRound out).toList = innerBlock out.toList := by
  simp only [doubleRound, innerBlock, quarterRoundAt_toList]
  rfl

theorem iterate_doubleRound_toList (count : Nat) (out : Vector UInt32 16) :
    (doubleRound^[count] out).toList = innerBlock^[count] out.toList := by
  induction count generalizing out with
  | zero => rfl
  | succ count ih =>
    rw [Function.iterate_succ_apply, Function.iterate_succ_apply, ih, doubleRound_toList]

section Stream

variable (key : List UInt8) (counter : UInt32) (nonce : List UInt8)

theorem initialState_toList :
    (CryptoEngine.initialState key counter nonce).toList =
      ChaChaPoly.initialState sourceConstants key counter nonce := rfl

theorem blockBytes_eq :
    blockBytes (chacha20Block key counter nonce) = block sourceConstants key counter nonce := by
  rw [blockBytes, chacha20Block, Vector.toList_zipWith, iterate_doubleRound_toList,
    initialState_toList, block]

theorem chacha20Xor_eq (data : List UInt8) :
    chacha20Xor data key nonce counter = chacha20 sourceConstants key counter nonce data := by
  induction data using blocks_induction (show 0 < 64 by norm_num) generalizing counter with
  | nil => rfl
  | cons data nonempty ih =>
    rw [chacha20Xor_cons key nonce counter nonempty, ih, blockBytes_eq,
      chacha20_cons sourceConstants key counter nonce nonempty]

end Stream

/-! ### The tag as two polynomials -/

def maskedWord (key : List UInt8) (i : Nat) : ℤ := (word (4 * i) 4 key &&& 0x0ffffffc : ℕ)

def lowerWord (block : List UInt8) : ℤ := toNat (block.take 8)

/-- The bytes from the ninth on, and the length marker: behind the last byte, at the bottom
where there is no ninth byte, and up to the target where the block is full. -/
def upperWord (oversized : Nat → UInt64) (block : List UInt8) : ℤ :=
  toNat (block.drop 8) +
    (if block.length < 16 then 2 ^ (8 * (block.length - 8)) else (oversized 64).toNat : ℕ)

section Tag

variable (oversized : Nat → UInt64) (key message : List UInt8)

/-- The sums of the words of a block, against the powers of the sum of two key words. -/
def sumValue : ℤ :=
  value (maskedWord key 0 + maskedWord key 1)
    ((blocks 16 message).map fun block => lowerWord block + upperWord oversized block)

def differenceValue : ℤ :=
  value (maskedWord key 0 - maskedWord key 1)
    ((blocks 16 message).map fun block => lowerWord block - upperWord oversized block)

/-- Twice the words of the tag are these values' sum and difference, and twice two more
words of the key. -/
structure Tagged (tag : List UInt8) : Prop where
  low : 2 * (word 0 8 tag : ℤ) ≡ sumValue oversized key message +
    differenceValue oversized key message + 2 * word 8 4 key [ZMOD 2 ^ 65]
  high : 2 * (word 8 8 tag : ℤ) ≡ sumValue oversized key message -
    differenceValue oversized key message + 2 * word 12 4 key [ZMOD 2 ^ 65]

theorem word32_toNat (i : Nat) : (word32 key i).toNat = word (4 * i) 4 key := by
  rw [word32, UInt32.toNat_ofNat_of_lt']
  exact Nat.lt_of_lt_of_eq (word_lt (4 * i) 4 key) (by norm_num [UInt32.size])

theorem maskedWord_eq (i : Nat) :
    ((word32 key i &&& 0x0ffffffc).toUInt64.toNat : ℤ) = maskedWord key i := by
  rw [UInt32.toNat_toUInt64, UInt32.toNat_and, word32_toNat, maskedWord]
  rfl

theorem shiftOne_markerShift {len : Nat} (full : len ≤ 16) :
    (shiftOne oversized (markerShift len)).toNat =
      if len < 16 then 2 ^ (8 * (len - 8)) else (oversized 64).toNat := by
  have place : markerShift len = 8 * (len - 8) := by
    rw [markerShift]
    split <;> omega
  rw [place]
  split
  · have power : 2 ^ (8 * (len - 8)) < 2 ^ 64 := Nat.pow_lt_pow_right (by norm_num) (by omega)
    rw [shiftOne, if_pos (by omega), UInt64.toNat_shiftLeft,
      UInt64.toNat_ofNat_of_lt' (by simp [UInt64.size]; omega),
      Nat.mod_eq_of_lt (show 8 * (len - 8) < 64 by omega), UInt64.toNat_one, Nat.shiftLeft_eq,
      one_mul, Nat.mod_eq_of_lt power]
  · obtain rfl : len = 16 := by omega
    rw [shiftOne, if_neg (by norm_num)]

theorem blockElement_eq {block : List UInt8} (full : block.length ≤ 16) :
    blockElement oversized block =
      ⟨(lowerWord block : BitVec 64), (upperWord oversized block : BitVec 64)⟩ := by
  have marker : (shiftOne oversized (markerShift block.length)).toBitVec =
      (((shiftOne oversized (markerShift block.length)).toNat : ℤ) : BitVec 64) := by
    simp
  rw [blockElement, UInt64.toBitVec_add, toBitVec_orBytes _ (by rw [List.length_take]; omega),
    toBitVec_orBytes _ (by rw [List.length_drop]; omega), marker, shiftOne_markerShift _ full,
    lowerWord, upperWord, Int.cast_add]

def accumulated : Crossed ℤ :=
  value ⟨maskedWord key 0, maskedWord key 1⟩
    ((blocks 16 message).map fun block => ⟨lowerWord block, upperWord oversized block⟩)

theorem limbs_macAccumulate_eq :
    limbs (macAccumulate oversized message key) =
      ⟨((accumulated oversized key message).re : BitVec 64),
        ((accumulated oversized key message).im : BitVec 64)⟩ := by
  have start : limbs (0, 0) = 0 := rfl
  have words : ∀ block ∈ blocks 16 message, blockElement oversized block =
      ⟨(lowerWord block : BitVec 64), (upperWord oversized block : BitVec 64)⟩ :=
    fun block member => blockElement_eq oversized (length_le_of_mem_blocks (by norm_num) member)
  have multipliers : limbs (multiplier0 key, multiplier1 key) =
      ⟨(maskedWord key 0 : BitVec 64), (maskedWord key 1 : BitVec 64)⟩ := by
    rw [limbs_eq, multiplier0, multiplier1, maskedWord_eq, maskedWord_eq]
  rw [limbs_macAccumulate, horner_eq_value, start, zero_mul, zero_add, multipliers,
    List.map_congr_left words, accumulated, ← intCast_value, List.map_map]
  rfl

theorem four_dvd_maskedWord (i : Nat) : 4 ∣ maskedWord key i := by
  have low : (word (4 * i) 4 key &&& 0x0ffffffc) % 2 ^ 2 = 0 := by
    rw [Nat.and_mod_two_pow]
    exact Nat.and_zero _
  exact Int.natCast_dvd_natCast.mpr (Nat.dvd_of_mod_eq_zero low)

theorem four_dvd_accumulated : 4 ∣ (accumulated oversized key message).re ∧
    4 ∣ (accumulated oversized key message).im := by
  obtain ⟨first, left⟩ := four_dvd_maskedWord key 0
  obtain ⟨second, right⟩ := four_dvd_maskedWord key 1
  have multiplier : (⟨maskedWord key 0, maskedWord key 1⟩ : Crossed ℤ) =
      ⟨4, 0⟩ * ⟨first, second⟩ := by
    rw [mk_mul, left, right, zero_mul, zero_mul, add_zero, add_zero]
  obtain ⟨rest, product⟩ := dvd_value (Dvd.intro _ multiplier.symm)
    ((blocks 16 message).map fun block => ⟨lowerWord block, upperWord oversized block⟩)
  have whole : accumulated oversized key message = ⟨4, 0⟩ * rest := product
  rw [whole, QuadraticAlgebra.re_mul, QuadraticAlgebra.im_mul]
  exact ⟨⟨rest.re, by ring⟩, ⟨rest.im, by ring⟩⟩

theorem two_mul_accumulated :
    2 * (accumulated oversized key message).re =
        sumValue oversized key message + differenceValue oversized key message ∧
      2 * (accumulated oversized key message).im =
        sumValue oversized key message - differenceValue oversized key message := by
  obtain ⟨sum, difference⟩ := value_values (maskedWord key 0) (maskedWord key 1)
    ((blocks 16 message).map fun block => ⟨lowerWord block, upperWord oversized block⟩)
  rw [List.map_map] at sum difference
  change (accumulated oversized key message).re + (accumulated oversized key message).im =
    sumValue oversized key message at sum
  change (accumulated oversized key message).re - (accumulated oversized key message).im =
    differenceValue oversized key message at difference
  constructor
  · linear_combination sum + difference
  · linear_combination sum - difference

theorem tagWord_eq_iff {limb : UInt64} {z : ℤ} (accumulated : limb.toBitVec = (z : BitVec 64))
    (i n : Nat) (small : n < 2 ^ 64) :
    (limb + (word32 key i).toUInt64).toNat = n ↔
      2 * (n : ℤ) ≡ 2 * z + 2 * word (4 * i) 4 key [ZMOD 2 ^ 65] := by
  have pad : (word32 key i).toUInt64.toBitVec = ((word (4 * i) 4 key : ℤ) : BitVec 64) := by
    rw [← word32_toNat, ← UInt32.toNat_toUInt64]
    exact BitVec.eq_of_toNat_eq (by simp)
  have number : BitVec.ofNat 64 n = ((n : ℤ) : BitVec 64) := by
    simp
  have doubled : 2 * z + 2 * (word (4 * i) 4 key : ℤ) - 2 * n =
      2 * (z + word (4 * i) 4 key - n) := by ring
  have power : (2 ^ 65 : ℤ) = 2 * 2 ^ 64 := by norm_num
  calc (limb + (word32 key i).toUInt64).toNat = n
      ↔ (z : BitVec 64) + ((word (4 * i) 4 key : ℤ) : BitVec 64) = ((n : ℤ) : BitVec 64) := by
        rw [← number, ← accumulated, ← pad, ← UInt64.toBitVec_add, ← BitVec.toNat_inj,
          BitVec.toNat_ofNat, Nat.mod_eq_of_lt small]
        rfl
    _ ↔ (2 ^ 64 : ℤ) ∣ z + word (4 * i) 4 key - n := by
        rw [← sub_eq_zero, ← Int.cast_add, ← Int.cast_sub, intCast_eq_zero_iff]
    _ ↔ 2 * (n : ℤ) ≡ 2 * z + 2 * word (4 * i) 4 key [ZMOD 2 ^ 65] := by
        rw [Int.modEq_iff_dvd, doubled, power, mul_dvd_mul_iff_left (by norm_num)]

/-- The multipliers are multiples of 4, so each word of the tag ends in the two bits of a
word of the key. -/
theorem Tagged.residues {tag : List UInt8} (tagged : Tagged oversized key message tag) :
    word 0 8 tag % 4 = word 8 4 key % 4 ∧ word 8 8 tag % 4 = word 12 4 key % 4 := by
  obtain ⟨⟨x, left⟩, ⟨y, right⟩⟩ := four_dvd_accumulated oversized key message
  obtain ⟨sum, difference⟩ := two_mul_accumulated oversized key message
  obtain ⟨low, high⟩ := tagged
  rw [← sum, left, Int.modEq_iff_dvd] at low
  rw [← difference, right, Int.modEq_iff_dvd] at high
  omega

theorem computePoly1305Mac_eq_iff {tag : List UInt8} (len : tag.length = 16) :
    computePoly1305Mac oversized message key = tag ↔ Tagged oversized key message tag := by
  obtain ⟨sum, difference⟩ := two_mul_accumulated oversized key message
  have limbs := limbs_macAccumulate_eq oversized key message
  have low := tagWord_eq_iff key (congrArg QuadraticAlgebra.re limbs) 2 (word 0 8 tag)
    (word_lt 0 8 tag)
  have high := tagWord_eq_iff key (congrArg QuadraticAlgebra.im limbs) 3 (word 8 8 tag)
    (word_lt 8 8 tag)
  rw [sum] at low
  rw [difference] at high
  have halves : tag = toBytes 8 (word 0 8 tag) ++ toBytes 8 (word 8 8 tag) := by
    have rest : ((tag.drop 8).take 8) = tag.drop 8 :=
      List.take_of_length_le (by rw [List.length_drop]; omega)
    rw [toBytes_word (by omega), toBytes_word (by omega), List.drop_zero, rest,
      List.take_append_drop]
  constructor
  · intro same
    rw [halves, computePoly1305Mac] at same
    obtain ⟨first, second⟩ := List.append_inj same (by rw [length_toBytes, length_toBytes])
    exact ⟨low.mp (toBytes_injective (UInt64.toNat_lt _) (word_lt 0 8 tag) first),
      high.mp (toBytes_injective (UInt64.toNat_lt _) (word_lt 8 8 tag) second)⟩
  · rintro ⟨first, second⟩
    rw [halves, computePoly1305Mac, low.mpr first, high.mpr second]

end Tag

/-! ### The two constructions -/

/-- The reference's tag is the one that the two polynomials give for its ciphertext. -/
def TagCoincides (oversized : Nat → UInt64) (plaintext key nonce : List UInt8) : Prop :=
  let ciphertext := chacha20 ChaChaPoly.constants key 1 nonce plaintext
  Tagged oversized key ciphertext (ChaChaPoly.tag key nonce [] ciphertext)

/-- The key and nonce give one stream under both sets of constants, as far as the
plaintext goes. -/
structure Coincides (oversized : Nat → UInt64) (plaintext key nonce : List UInt8) : Prop where
  stream : keystream sourceConstants key 1 nonce plaintext.length =
    keystream ChaChaPoly.constants key 1 nonce plaintext.length
  tag : TagCoincides oversized plaintext key nonce

theorem length_tag (key nonce aad ciphertext : List UInt8) :
    (ChaChaPoly.tag key nonce aad ciphertext).length = 16 := length_toBytes ..

theorem chacha20_sourceConstants_iff (key nonce plaintext : List UInt8) :
    chacha20 sourceConstants key 1 nonce plaintext =
        chacha20 ChaChaPoly.constants key 1 nonce plaintext ↔
      keystream sourceConstants key 1 nonce plaintext.length =
        keystream ChaChaPoly.constants key 1 nonce plaintext.length :=
  zipWith_xor_inj (length_keystream ..) (length_keystream ..)

/-- A payload is encrypted as the reference encrypts it exactly when the constants make
no difference to its stream and the reference's tag solves two congruences. -/
theorem encryptPayload_eq_aead_iff (oversized : Nat → UInt64) (plaintext key nonce : List UInt8)
    (keyOk : key.length = 32) (nonceOk : nonce.length = 12) :
    encryptPayload oversized plaintext key nonce = .ok (aeadEncrypt key nonce plaintext []) ↔
      Coincides oversized plaintext key nonce := by
  have tags := computePoly1305Mac_eq_iff oversized key
    (chacha20 ChaChaPoly.constants key 1 nonce plaintext)
    (length_tag key nonce [] (chacha20 ChaChaPoly.constants key 1 nonce plaintext))
  rw [encryptPayload_eq oversized keyOk nonceOk, chacha20Xor_eq, aeadEncrypt, Except.ok.injEq]
  constructor
  · intro same
    obtain ⟨body, tag⟩ := List.append_inj same (by rw [length_chacha20, length_chacha20])
    rw [body] at tag
    exact ⟨(chacha20_sourceConstants_iff key nonce plaintext).mp body, tags.mp tag⟩
  · rintro ⟨stream, tag⟩
    rw [(chacha20_sourceConstants_iff key nonce plaintext).mpr stream, tags.mpr tag]

/-- A key and nonce whose first two bytes of stream are the reference's: two bytes are
masked alike, and their tag is another one. -/
theorem encryptPayload_eq_aead_iff_masked_alike :
    keystream sourceConstants (List.replicate 32 209) 1 (List.replicate 12 185) 2 =
        keystream ChaChaPoly.constants (List.replicate 32 209) 1 (List.replicate 12 185) 2 ∧
      encryptPayload (fun _ => 1) [0x68, 0x69] (List.replicate 32 209) (List.replicate 12 185) ≠
        .ok (aeadEncrypt (List.replicate 32 209) (List.replicate 12 185) [0x68, 0x69] []) := by
  refine ⟨by decide +kernel, ?_⟩
  rw [Ne, encryptPayload_eq_aead_iff (fun _ => 1) [0x68, 0x69] _ _ rfl rfl]
  intro coincides
  exact absurd coincides.tag.residues.1 (by decide +kernel)

/-- One zero byte under a key and nonce of zeros: `0x50` instead of `0x9f`. -/
theorem zero_byte_other_ciphertext :
    encryptPayload (fun _ => 1) [0] (List.replicate 32 0) (List.replicate 12 0) ≠
      .ok (aeadEncrypt (List.replicate 32 0) (List.replicate 12 0) [0] []) := by
  rw [encryptPayload_eq (fun _ => 1) rfl rfl, Ne, Except.ok.injEq]
  intro same
  exact absurd (congrArg List.head? same) (by decide +kernel)

end RemoteAccess.CipherReference
