import RemoteAccess.Basics.Horner
import RemoteAccess.CryptoEngine
import Mathlib.Data.List.GetD

/-! What the tag sees of a flipped bit. The accumulator is `Horner.horner` in
pairs of 64-bit words: flipping bit `b` of a limb adds `±2^b` times a power of
the key pair, one factor for each block from there to the end. Both multipliers
are masked to multiples of 4, so the upper bits of a limb, and every bit far
enough from the end, are multiplied away. -/

namespace RemoteAccess.CryptoTampering

open LittleEndian Blocks Horner CryptoEngine

def flipBit (bytes : List UInt8) (i : Nat) : List UInt8 :=
  bytes.set (i / 8) (bytes.getD (i / 8) 0 ^^^ UInt8.ofNat (2 ^ (i % 8)))

@[simp] theorem length_flipBit (bytes : List UInt8) (i : Nat) :
    (flipBit bytes i).length = bytes.length := by
  rw [flipBit, List.length_set]

/-! ### Bytes as numbers -/

theorem xor_bit (b : UInt8) {k : Nat} (small : k < 8) :
    ∃ sign : ℤ, (sign = 1 ∨ sign = -1) ∧
      ((b ^^^ UInt8.ofNat (2 ^ k)).toNat : ℤ) = b.toNat + sign * 2 ^ k := by
  have table : ∀ (b : Fin 256) (k : Fin 8),
      (b.val ^^^ 2 ^ k.val) = b.val + 2 ^ k.val ∨ (b.val ^^^ 2 ^ k.val) + 2 ^ k.val = b.val := by
    decide +kernel
  have bit : (UInt8.ofNat (2 ^ k)).toNat = 2 ^ k := by
    rw [UInt8.toNat_ofNat']
    exact Nat.mod_eq_of_lt (Nat.pow_lt_pow_right (by norm_num) small)
  rw [UInt8.toNat_xor, bit]
  obtain up | down := table ⟨b.toNat, b.toNat_lt⟩ ⟨k, small⟩
  · refine ⟨1, .inl rfl, ?_⟩
    simp only at up
    rw [up]
    push_cast
    ring
  · refine ⟨-1, .inr rfl, ?_⟩
    simp only at down
    have cast : ((b.toNat ^^^ 2 ^ k : ℕ) : ℤ) + 2 ^ k = b.toNat := by exact_mod_cast down
    linarith

theorem toNat_set (bytes : List UInt8) {i : Nat} (inside : i < bytes.length) (v : UInt8) :
    (toNat (bytes.set i v) : ℤ) =
      toNat bytes + 256 ^ i * ((v.toNat : ℤ) - (bytes.getD i 0).toNat) := by
  induction bytes generalizing i with
  | nil => simp at inside
  | cons b bytes ih =>
    cases i with
    | zero =>
      rw [List.set_cons_zero, toNat_cons, toNat_cons, List.getD_cons_zero]
      push_cast
      ring
    | succ i =>
      rw [List.set_cons_succ, toNat_cons, toNat_cons, List.getD_cons_succ]
      push_cast
      rw [ih (by simpa using inside), pow_succ]
      ring

theorem toNat_flipBit (bytes : List UInt8) {i : Nat} (inside : i < 8 * bytes.length) :
    ∃ sign : ℤ, (sign = 1 ∨ sign = -1) ∧
      (toNat (flipBit bytes i) : ℤ) = toNat bytes + sign * 2 ^ i := by
  obtain ⟨sign, unit, moved⟩ := xor_bit (bytes.getD (i / 8) 0) (show i % 8 < 8 by omega)
  refine ⟨sign, unit, ?_⟩
  have place : (256 : ℤ) ^ (i / 8) * 2 ^ (i % 8) = 2 ^ i := by
    have base : (256 : ℤ) = 2 ^ 8 := by norm_num
    rw [base, ← pow_mul, ← pow_add, Nat.div_add_mod]
  rw [flipBit, toNat_set bytes (by omega), moved, ← place]
  ring

theorem orBytes_append (bytes : List UInt8) (b : UInt8) :
    orBytes (bytes ++ [b]) =
      orBytes bytes ||| (b.toUInt64 <<< UInt64.ofNat (bytes.length * 8)) := by
  rw [orBytes, List.zipIdx_append, List.foldl_append, orBytes]
  simp only [List.zipIdx_singleton, List.foldl_cons, List.foldl_nil, Nat.zero_add]

theorem toNat_orBytes (bytes : List UInt8) (fits : bytes.length ≤ 8) :
    (orBytes bytes).toNat = toNat bytes := by
  induction bytes using List.reverseRecOn with
  | nil => rfl
  | append_singleton bytes b ih =>
    rw [List.length_append, List.length_singleton] at fits
    have low : toNat bytes < 2 ^ (bytes.length * 8) := by
      have bound := toNat_lt bytes
      rwa [show (256 : ℕ) = 2 ^ 8 by norm_num, ← pow_mul, mul_comm 8] at bound
    have high : b.toNat < 2 ^ 8 := b.toNat_lt
    have count : (UInt64.ofNat (bytes.length * 8)).toNat % 64 = bytes.length * 8 := by
      rw [UInt64.toNat_ofNat_of_lt' (by simp [UInt64.size]; omega), Nat.mod_eq_of_lt (by omega)]
    have room : b.toNat * 2 ^ (bytes.length * 8) < 2 ^ 64 := by
      calc b.toNat * 2 ^ (bytes.length * 8)
          < 2 ^ 8 * 2 ^ (bytes.length * 8) := Nat.mul_lt_mul_of_pos_right high (by positivity)
        _ = 2 ^ (8 + bytes.length * 8) := (pow_add 2 8 _).symm
        _ ≤ 2 ^ 64 := Nat.pow_le_pow_right (by norm_num) (by omega)
    rw [orBytes_append, UInt64.toNat_or, ih (by omega), UInt64.toNat_shiftLeft, count,
      UInt8.toNat_toUInt64, Nat.shiftLeft_eq, Nat.mod_eq_of_lt room, Nat.or_comm,
      mul_comm b.toNat, ← Nat.two_pow_add_eq_or_of_lt low, toNat_append, toNat_cons, toNat_nil,
      show (256 : ℕ) = 2 ^ 8 by norm_num, ← pow_mul, mul_comm 8]
    ring

/-! ### The accumulator as a ring element -/

def limbs (h : UInt64 × UInt64) : Crossed (BitVec 64) := ⟨h.1.toBitVec, h.2.toBitVec⟩

theorem limbs_injective {h h' : UInt64 × UInt64} (same : limbs h = limbs h') : h = h' := by
  have re := congrArg QuadraticAlgebra.re same
  have im := congrArg QuadraticAlgebra.im same
  exact Prod.ext (UInt64.toBitVec_inj.mp re) (UInt64.toBitVec_inj.mp im)

/-- What one block adds to the limbs. -/
def blockElement (oversized : Nat → UInt64) (block : List UInt8) : Crossed (BitVec 64) :=
  ⟨(orBytes (block.take 8)).toBitVec,
    (orBytes (block.drop 8) + shiftOne oversized (markerShift block.length)).toBitVec⟩

theorem limbs_macStep (oversized : Nat → UInt64) (r h : UInt64 × UInt64) (block : List UInt8) :
    limbs (macStep oversized r.1 r.2 h block) =
      (limbs h + blockElement oversized block) * limbs r := by
  rw [limbs, limbs, limbs, blockElement, mk_add, mk_mul]
  rfl

theorem limbs_foldl (oversized : Nat → UInt64) (r h : UInt64 × UInt64)
    (bs : List (List UInt8)) :
    limbs (bs.foldl (macStep oversized r.1 r.2) h) =
      horner (limbs r) (limbs h) (bs.map (blockElement oversized)) := by
  induction bs generalizing h with
  | nil => rfl
  | cons b bs ih =>
    rw [List.foldl_cons, ih, limbs_macStep, List.map_cons, horner, horner, List.foldl_cons]

theorem toBitVec_orBytes (bytes : List UInt8) (fits : bytes.length ≤ 8) :
    (orBytes bytes).toBitVec = ((toNat bytes : ℤ) : BitVec 64) := by
  have cast : ((toNat bytes : ℤ) : BitVec 64) = BitVec.ofNat 64 (toNat bytes) := by
    simp
  rw [cast, ← toNat_orBytes bytes fits]
  exact BitVec.eq_of_toNat_eq (by simp)

def limbChange (i : Nat) (z : ℤ) : Crossed (BitVec 64) :=
  if i < 64 then ⟨(z : BitVec 64), 0⟩ else ⟨0, (z : BitVec 64)⟩

theorem flipBit_take {block : List UInt8} {i : Nat} (low : i < 64) :
    (flipBit block i).take 8 = flipBit (block.take 8) i := by
  have byte : (block.take 8).getD (i / 8) 0 = block.getD (i / 8) 0 := by
    rw [List.getD_eq_getElem?_getD, List.getD_eq_getElem?_getD,
      List.getElem?_take_of_lt (by omega)]
  rw [flipBit, flipBit, List.take_set, byte]

theorem flipBit_drop {block : List UInt8} {i : Nat} (high : ¬ i < 64) :
    (flipBit block i).drop 8 = flipBit (block.drop 8) (i - 64) := by
  have place : (i - 64) / 8 = i / 8 - 8 := by omega
  have bit : (i - 64) % 8 = i % 8 := by omega
  have byte : (block.drop 8).getD (i / 8 - 8) 0 = block.getD (i / 8) 0 := by
    rw [List.getD_eq_getElem?_getD, List.getD_eq_getElem?_getD, List.getElem?_drop,
      Nat.add_sub_cancel' (by omega)]
  rw [flipBit, flipBit, List.drop_set, if_neg (by omega), place, bit, byte]

theorem flipBit_drop_low {block : List UInt8} {i : Nat} (low : i < 64) :
    (flipBit block i).drop 8 = block.drop 8 := by
  rw [flipBit, List.drop_set_of_lt (by omega)]

theorem flipBit_take_high {block : List UInt8} {i : Nat} (high : ¬ i < 64) :
    (flipBit block i).take 8 = block.take 8 := by
  rw [flipBit, List.take_set, List.set_eq_of_length_le (by rw [List.length_take]; omega)]

theorem blockElement_flipBit (oversized : Nat → UInt64) {block : List UInt8} {i : Nat}
    (full : block.length ≤ 16) (inside : i < 8 * block.length) :
    ∃ sign : ℤ, (sign = 1 ∨ sign = -1) ∧
      blockElement oversized (flipBit block i) =
        blockElement oversized block + limbChange i (sign * 2 ^ (i % 64)) := by
  by_cases low : i < 64
  · obtain ⟨sign, unit, moved⟩ := toNat_flipBit (block.take 8) (i := i)
      (by rw [List.length_take]; omega)
    refine ⟨sign, unit, ?_⟩
    rw [blockElement, blockElement, limbChange, if_pos low, flipBit_take low,
      flipBit_drop_low low, length_flipBit, mk_add, add_zero,
      toBitVec_orBytes (flipBit (block.take 8) i) (by rw [length_flipBit, List.length_take]; omega),
      toBitVec_orBytes (block.take 8) (by rw [List.length_take]; omega), moved,
      Nat.mod_eq_of_lt low]
    push_cast
    rfl
  · obtain ⟨sign, unit, moved⟩ := toNat_flipBit (block.drop 8) (i := i - 64)
      (by rw [List.length_drop]; omega)
    refine ⟨sign, unit, ?_⟩
    have place : i % 64 = i - 64 := by omega
    rw [blockElement, blockElement, limbChange, if_neg low, flipBit_take_high low,
      flipBit_drop low, length_flipBit, mk_add, add_zero, UInt64.toBitVec_add,
      UInt64.toBitVec_add,
      toBitVec_orBytes (flipBit (block.drop 8) (i - 64))
        (by rw [length_flipBit, List.length_drop]; omega),
      toBitVec_orBytes (block.drop 8) (by rw [List.length_drop]; omega), moved, place]
    push_cast
    rw [add_right_comm]

/-! ### Which flips survive -/

theorem limbChange_mul_pow_eq_zero_iff {sign : ℤ} (unit : sign = 1 ∨ sign = -1)
    (i n : Nat) (a b : ℤ) :
    limbChange i (sign * 2 ^ (i % 64)) * (⟨(a : BitVec 64), (b : BitVec 64)⟩ : Crossed _) ^ n = 0 ↔
      (2 ^ (65 - i % 64) : ℤ) ∣ (a + b) ^ n + (a - b) ^ n ∧
        (2 ^ (65 - i % 64) : ℤ) ∣ (a + b) ^ n - (a - b) ^ n := by
  have bit : i % 64 ≤ 64 := (Nat.mod_lt i (by norm_num)).le
  have exponent : 65 - i % 64 = 64 - i % 64 + 1 := by omega
  have signed : ∀ z : ℤ, ((sign * 2 ^ (i % 64) : ℤ) : BitVec 64) * (z : BitVec 64) = 0 ↔
      (2 ^ (64 - i % 64) : ℤ) ∣ z := by
    intro z
    rw [← Int.cast_mul, mul_comm sign, mul_assoc, shifted_eq_zero_iff bit]
    obtain rfl | rfl := unit
    · rw [one_mul]
    · rw [neg_one_mul, dvd_neg]
  rw [exponent, ← dvd_pow_iff, intCast_pow, limbChange]
  split
  · rw [mk_mul, QuadraticAlgebra.ext_iff]
    simp only [zero_mul, add_zero, signed, QuadraticAlgebra.re_zero, QuadraticAlgebra.im_zero]
  · rw [mk_mul, QuadraticAlgebra.ext_iff]
    simp only [zero_mul, zero_add, signed, QuadraticAlgebra.re_zero, QuadraticAlgebra.im_zero]
    rw [and_comm]

/-- Flipping bit `i` of a message of `len` bytes leaves the accumulator as it
was: what remains of the bit after the blocks from its own to the last. -/
def BitVanishes (key : List UInt8) (len i : Nat) : Prop :=
  let sum : ℤ := (multiplier0 key).toNat + (multiplier1 key).toNat
  let difference : ℤ := (multiplier0 key).toNat - (multiplier1 key).toNat
  let n := (len + 15) / 16 - i / 128
  (2 ^ (65 - i % 64) : ℤ) ∣ sum ^ n + difference ^ n ∧
    (2 ^ (65 - i % 64) : ℤ) ∣ sum ^ n - difference ^ n

instance (key : List UInt8) (len i : Nat) : Decidable (BitVanishes key len i) := by
  unfold BitVanishes
  infer_instance

theorem limbs_eq (h : UInt64 × UInt64) :
    limbs h = ⟨((h.1.toNat : ℤ) : BitVec 64), ((h.2.toNat : ℤ) : BitVec 64)⟩ := by
  rw [limbs]
  ext <;> simp

theorem limbs_macAccumulate (oversized : Nat → UInt64) (msg key : List UInt8) :
    limbs (macAccumulate oversized msg key) =
      horner (limbs (multiplier0 key, multiplier1 key)) (limbs (0, 0))
        ((blocks 16 msg).map (blockElement oversized)) := by
  rw [macAccumulate, limbs_foldl oversized (multiplier0 key, multiplier1 key)]

theorem blocks_flipBit {msg : List UInt8} {i : Nat} (inside : i < 8 * msg.length) :
    ∃ before block after, blocks 16 msg = before ++ block :: after ∧
      blocks 16 (flipBit msg i) = before ++ flipBit block (i % 128) :: after ∧
      after.length + 1 = (msg.length + 15) / 16 - i / 128 ∧
      block.length ≤ 16 ∧ i % 128 < 8 * block.length := by
  obtain ⟨before, block, after, same, changed, count, here⟩ :=
    blocks_set (show 0 < 16 by norm_num) msg (i / 8)
      (msg.getD (i / 8) 0 ^^^ UInt8.ofNat (2 ^ (i % 8))) (by omega)
  have len : block.length = min 16 (msg.length - i / 8 / 16 * 16) := by
    rw [here, List.length_take, List.length_drop]
  have total := length_blocks (show 0 < 16 by norm_num) msg
  rw [same, List.length_append, List.length_cons, count] at total
  have place : i % 128 / 8 = i / 8 % 16 := by omega
  have bit : i % 128 % 8 = i % 8 := by omega
  have byte : block.getD (i / 8 % 16) 0 = msg.getD (i / 8) 0 := by
    rw [List.getD_eq_getElem?_getD, List.getD_eq_getElem?_getD, here,
      List.getElem?_take_of_lt (Nat.mod_lt _ (by norm_num)), List.getElem?_drop,
      Nat.mul_comm, Nat.div_add_mod]
  refine ⟨before, block, after, same, ?_, by omega, by omega, by omega⟩
  rw [flipBit, changed, flipBit, place, bit, byte]

/-- The accumulator misses a flipped bit exactly when the bit vanishes. -/
theorem macAccumulate_flipBit_eq_iff (oversized : Nat → UInt64) (key : List UInt8)
    {msg : List UInt8} {i : Nat} (inside : i < 8 * msg.length) :
    macAccumulate oversized (flipBit msg i) key = macAccumulate oversized msg key ↔
      BitVanishes key msg.length i := by
  obtain ⟨before, block, after, same, changed, count, full, within⟩ := blocks_flipBit inside
  obtain ⟨sign, unit, moved⟩ := blockElement_flipBit oversized full within
  have bit : i % 128 % 64 = i % 64 := by omega
  have difference : limbs (macAccumulate oversized (flipBit msg i) key) =
      limbs (macAccumulate oversized msg key) +
        limbChange (i % 128) (sign * 2 ^ (i % 128 % 64)) *
          limbs (multiplier0 key, multiplier1 key) ^ ((msg.length + 15) / 16 - i / 128) := by
    rw [limbs_macAccumulate, limbs_macAccumulate, same, changed, List.map_append,
      List.map_append, List.map_cons, List.map_cons, moved, horner_replace, List.length_map,
      count]
  have survives := limbChange_mul_pow_eq_zero_iff unit (i % 128)
    ((msg.length + 15) / 16 - i / 128) (multiplier0 key).toNat (multiplier1 key).toNat
  calc macAccumulate oversized (flipBit msg i) key = macAccumulate oversized msg key
      ↔ limbs (macAccumulate oversized (flipBit msg i) key) =
          limbs (macAccumulate oversized msg key) := ⟨congrArg limbs, limbs_injective⟩
    _ ↔ BitVanishes key msg.length i := by
        rw [difference, add_eq_left, limbs_eq, survives, bit, BitVanishes]

/-! ### The tag -/

theorem computePoly1305Mac_eq_iff (oversized : Nat → UInt64) (msg msg' key : List UInt8) :
    computePoly1305Mac oversized msg key = computePoly1305Mac oversized msg' key ↔
      macAccumulate oversized msg key = macAccumulate oversized msg' key := by
  constructor
  · intro same
    have half : ∀ a b pad : UInt64, toBytes 8 (a + pad).toNat = toBytes 8 (b + pad).toNat →
        a = b := by
      intro a b pad bytes
      have sum := toBytes_injective (UInt64.toNat_lt _) (UInt64.toNat_lt _) bytes
      exact (UInt64.add_left_inj pad).mp (UInt64.toNat_inj.mp sum)
    obtain ⟨low, high⟩ := List.append_inj same (by simp)
    exact Prod.ext (half _ _ _ low) (half _ _ _ high)
  · intro same
    rw [computePoly1305Mac, computePoly1305Mac, same]

theorem flipBit_append_left {body : List UInt8} (tag : List UInt8) {i : Nat}
    (inside : i < 8 * body.length) : flipBit (body ++ tag) i = flipBit body i ++ tag := by
  rw [flipBit, flipBit, List.set_append_left _ _ (by omega), List.getD_append _ _ _ _ (by omega)]

theorem flipBit_append_right {body : List UInt8} (tag : List UInt8) {i : Nat}
    (past : 8 * body.length ≤ i) :
    flipBit (body ++ tag) i = body ++ flipBit tag (i - 8 * body.length) := by
  have place : (i - 8 * body.length) / 8 = i / 8 - body.length := by omega
  have bit : (i - 8 * body.length) % 8 = i % 8 := by omega
  rw [flipBit, flipBit, List.set_append_right _ _ (by omega),
    List.getD_append_right _ _ _ _ (by omega), place, bit]

theorem flipBit_ne {bytes : List UInt8} {i : Nat} (inside : i < 8 * bytes.length) :
    flipBit bytes i ≠ bytes := by
  intro same
  obtain ⟨sign, unit, moved⟩ := toNat_flipBit bytes inside
  rw [same, left_eq_add] at moved
  have power : (2 ^ i : ℤ) ≠ 0 := by positivity
  obtain rfl | rfl := unit <;> simp [power] at moved

section Opening

variable (oversized : Nat → UInt64) {key nonce : List UInt8}
  (keyOk : key.length = keySize) (nonceOk : nonce.length = nonceSize)
include keyOk nonceOk

theorem decryptPayload_other_body {plaintext body tag body' : List UInt8}
    (tagLen : tag.length = tagSize)
    (sealed : encryptPayload oversized plaintext key nonce = .ok (body ++ tag)) :
    decryptPayload oversized (body' ++ tag) key nonce = none ↔
      macAccumulate oversized body' key ≠ macAccumulate oversized body key := by
  rw [encryptPayload_eq oversized keyOk nonceOk] at sealed
  obtain ⟨rfl, rfl⟩ := List.append_inj' (Except.ok.inj sealed)
    (by rw [length_computePoly1305Mac, tagLen])
  rw [decryptPayload_append oversized keyOk nonceOk _ _ tagLen, Ne, ← computePoly1305Mac_eq_iff]
  split_ifs with accepted
  · simp [accepted]
  · simp [Ne.symm accepted]

theorem decryptPayload_flip_body {plaintext ciphertext : List UInt8} {i : Nat}
    (sealed : encryptPayload oversized plaintext key nonce = .ok ciphertext)
    (inside : i < 8 * plaintext.length) :
    decryptPayload oversized (flipBit ciphertext i) key nonce = none ↔
      ¬ BitVanishes key plaintext.length i := by
  have body := length_chacha20Xor plaintext key nonce 1
  have parts := encryptPayload_eq oversized keyOk nonceOk plaintext
  obtain rfl := Except.ok.inj (sealed.symm.trans parts)
  rw [flipBit_append_left _ (by rw [body]; exact inside),
    decryptPayload_other_body oversized keyOk nonceOk (length_computePoly1305Mac ..) parts, Ne,
    macAccumulate_flipBit_eq_iff oversized key (by rw [body]; exact inside), body]

theorem decryptPayload_flip_tag {plaintext ciphertext : List UInt8} {i : Nat}
    (sealed : encryptPayload oversized plaintext key nonce = .ok ciphertext)
    (inside : i < 8 * ciphertext.length) (past : 8 * plaintext.length ≤ i) :
    decryptPayload oversized (flipBit ciphertext i) key nonce = none := by
  have body := length_chacha20Xor plaintext key nonce 1
  have tag := length_computePoly1305Mac oversized (chacha20Xor plaintext key nonce 1) key
  rw [encryptPayload_eq oversized keyOk nonceOk] at sealed
  rw [← Except.ok.inj sealed] at inside ⊢
  rw [List.length_append, body, tag] at inside
  rw [flipBit_append_right _ (by rw [body]; exact past),
    decryptPayload_append oversized keyOk nonceOk _ _ (by rw [length_flipBit, tag]),
    if_neg (flipBit_ne (by rw [body, tag]; omega))]

end Opening

/-- A single flipped bit is rejected exactly when it lies in the tag, or in the
body and does not vanish. -/
theorem single_flip_detected_iff (oversized : Nat → UInt64)
    (key nonce plaintext ciphertext : List UInt8) (i : Nat)
    (keyOk : key.length = 32) (nonceOk : nonce.length = 12)
    (sealed : encryptPayload oversized plaintext key nonce = .ok ciphertext)
    (inside : i < 8 * ciphertext.length) :
    decryptPayload oversized (flipBit ciphertext i) key nonce = none ↔
      8 * plaintext.length ≤ i ∨ ¬ BitVanishes key plaintext.length i := by
  by_cases body : i < 8 * plaintext.length
  · rw [decryptPayload_flip_body oversized keyOk nonceOk sealed body]
    simp [Nat.not_le.mpr body]
  · have past := Nat.le_of_not_lt body
    simp [decryptPayload_flip_tag oversized keyOk nonceOk sealed inside past, past]

theorem single_flip_detected_iff_first_bit :
    ∃ c, encryptPayload (fun _ => 1) (List.replicate 8 0) (List.replicate 32 4)
          (List.replicate 12 0) = .ok c ∧
      decryptPayload (fun _ => 1) (flipBit c 0) (List.replicate 32 4)
          (List.replicate 12 0) = none := by
  have ok := @encryptPayload_eq (fun _ => 1) (List.replicate 32 4) (List.replicate 12 0) rfl rfl
    (List.replicate 8 0)
  refine ⟨_, ok, (single_flip_detected_iff (fun _ => 1) _ _ _ _ 0 rfl rfl ok ?_).mpr
    (.inr (by decide +kernel))⟩
  rw [List.length_append, length_chacha20Xor, List.length_replicate]
  omega

/-- The top bit of an eight-byte message is multiplied away by the masked key. -/
theorem top_bit_flip_accepted :
    ∃ c, encryptPayload (fun _ => 1) (List.replicate 8 0) (List.replicate 32 4)
          (List.replicate 12 0) = .ok c ∧
      63 < 8 * c.length ∧
      decryptPayload (fun _ => 1) (flipBit c 63) (List.replicate 32 4)
          (List.replicate 12 0) ≠ none := by
  have ok := @encryptPayload_eq (fun _ => 1) (List.replicate 32 4) (List.replicate 12 0) rfl rfl
    (List.replicate 8 0)
  refine ⟨_, ok, ?_, ?_⟩
  · rw [List.length_append, length_chacha20Xor, List.length_replicate]
    omega
  · rw [Ne, decryptPayload_flip_body (fun _ => 1) rfl rfl ok (by decide), not_not]
    decide +kernel

end RemoteAccess.CryptoTampering
