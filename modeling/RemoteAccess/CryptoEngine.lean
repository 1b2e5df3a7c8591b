import RemoteAccess.Basics.Blocks
import RemoteAccess.Basics.LittleEndian
import Mathlib.Logic.Function.Iterate

/-! The payload cipher of `CryptoEngine.cpp`: a ChaCha20 keystream and a tag
from two 64-bit limbs. Byte strings are lists, `reinterpret_cast` to words reads
them little-endian, and both loops run over consecutive blocks. For a full
16-byte block the length marker shifts `1ULL` by 64 places, which C++ leaves
open; `oversized count` is what the target makes of a count from 64 on. -/

namespace RemoteAccess.CryptoEngine

open LittleEndian Blocks

def keySize : Nat := 32
def nonceSize : Nat := 12
def tagSize : Nat := 16

/-! ### ChaCha20 -/

def quarterRound (a b c d : UInt32) : UInt32 × UInt32 × UInt32 × UInt32 :=
  let a := a + b
  let d := d ^^^ a
  let d := (d <<< 16) ||| (d >>> 16)
  let c := c + d
  let b := b ^^^ c
  let b := (b <<< 12) ||| (b >>> 20)
  let a := a + b
  let d := d ^^^ a
  let d := (d <<< 8) ||| (d >>> 24)
  let c := c + d
  let b := b ^^^ c
  let b := (b <<< 7) ||| (b >>> 25)
  (a, b, c, d)

def quarterRoundAt (out : Vector UInt32 16) (i j k l : Fin 16) : Vector UInt32 16 :=
  let (a, b, c, d) := quarterRound out[i] out[j] out[k] out[l]
  (((out.set i a).set j b).set k c).set l d

def doubleRound (out : Vector UInt32 16) : Vector UInt32 16 :=
  -- column rounds
  let out := quarterRoundAt out 0 4 8 12
  let out := quarterRoundAt out 1 5 9 13
  let out := quarterRoundAt out 2 6 10 14
  let out := quarterRoundAt out 3 7 11 15
  -- diagonal rounds
  let out := quarterRoundAt out 0 5 10 15
  let out := quarterRoundAt out 1 6 11 12
  let out := quarterRoundAt out 2 7 8 13
  quarterRoundAt out 3 4 9 14

/-- Word `i` of a buffer read as an array of `uint32_t`. -/
def word32 (bytes : List UInt8) (i : Nat) : UInt32 := UInt32.ofNat (word (4 * i) 4 bytes)

def initialState (key : List UInt8) (counter : UInt32) (nonce : List UInt8) : Vector UInt32 16 :=
  #v[0x61707865, 0x33303232, 0x7962326d, 0x6b206574,
    word32 key 0, word32 key 1, word32 key 2, word32 key 3,
    word32 key 4, word32 key 5, word32 key 6, word32 key 7,
    counter, word32 nonce 0, word32 nonce 1, word32 nonce 2]

def chacha20Block (key : List UInt8) (counter : UInt32) (nonce : List UInt8) :
    Vector UInt32 16 :=
  let state := initialState key counter nonce
  Vector.zipWith (· + ·) (doubleRound^[10] state) state

def blockBytes (block : Vector UInt32 16) : List UInt8 :=
  block.toList.flatMap fun w => toBytes 4 w.toNat

/-- The bytes done so far and the counter of the next block. -/
def chacha20Step (key nonce : List UInt8) (s : List UInt8 × UInt32) (block : List UInt8) :
    List UInt8 × UInt32 :=
  (s.1 ++ List.zipWith (· ^^^ ·) block (blockBytes (chacha20Block key s.2 nonce)), s.2 + 1)

def chacha20Xor (data key nonce : List UInt8) (counter : UInt32) : List UInt8 :=
  ((blocks 64 data).foldl (chacha20Step key nonce) ([], counter)).1

/-! ### The tag -/

/-- `m |= uint64_t(msg[i]) << (i * 8)` over at most eight bytes. -/
def orBytes (bytes : List UInt8) : UInt64 :=
  bytes.zipIdx.foldl (fun m b => m ||| (b.1.toUInt64 <<< UInt64.ofNat (b.2 * 8))) 0

/-- `1ULL << count`. -/
def shiftOne (oversized : Nat → UInt64) (count : Nat) : UInt64 :=
  if count < 64 then 1 <<< UInt64.ofNat count else oversized count

def markerShift (blockLen : Nat) : Nat := if blockLen * 8 > 64 then (blockLen - 8) * 8 else 0

def macStep (oversized : Nat → UInt64) (r0 r1 : UInt64) (h : UInt64 × UInt64)
    (block : List UInt8) : UInt64 × UInt64 :=
  let m0 := orBytes (block.take 8)
  let m1 := orBytes (block.drop 8)
  let h0 := h.1 + m0
  let h1 := h.2 + (m1 + shiftOne oversized (markerShift block.length))
  (h0 * r0 + h1 * r1, h0 * r1 + h1 * r0)

def multiplier0 (key : List UInt8) : UInt64 := (word32 key 0 &&& 0x0ffffffc).toUInt64
def multiplier1 (key : List UInt8) : UInt64 := (word32 key 1 &&& 0x0ffffffc).toUInt64

def macAccumulate (oversized : Nat → UInt64) (msg key : List UInt8) : UInt64 × UInt64 :=
  (blocks 16 msg).foldl (macStep oversized (multiplier0 key) (multiplier1 key)) (0, 0)

/-- Byte `i` of each half of the tag is the padded limb shifted by `8 * i`. -/
def computePoly1305Mac (oversized : Nat → UInt64) (msg key : List UInt8) : List UInt8 :=
  let h := macAccumulate oversized msg key
  toBytes 8 (h.1 + (word32 key 2).toUInt64).toNat ++
    toBytes 8 (h.2 + (word32 key 3).toUInt64).toNat

/-! ### Payloads -/

inductive CryptoError
  | invalidArgument (what : String)
deriving DecidableEq, Repr

def encryptPayload (oversized : Nat → UInt64) (plaintext key nonce : List UInt8) :
    Except CryptoError (List UInt8) :=
  if key.length ≠ keySize ∨ nonce.length ≠ nonceSize then
    .error (.invalidArgument "Key must be 32 bytes and Nonce must be 12 bytes")
  else
    let ciphertext := chacha20Xor plaintext key nonce 1
    .ok (ciphertext ++ computePoly1305Mac oversized ciphertext key)

/-- `diff |= tag[i] ^ expectedTag[i]` over all positions. -/
def tagDiff (tag expectedTag : List UInt8) : UInt8 :=
  (List.zipWith (· ^^^ ·) tag expectedTag).foldl (· ||| ·) 0

def decryptPayload (oversized : Nat → UInt64) (ciphertext key nonce : List UInt8) :
    Option (List UInt8) :=
  if key.length ≠ keySize ∨ nonce.length ≠ nonceSize ∨ ciphertext.length < tagSize then none
  else
    let payloadSize := ciphertext.length - tagSize
    let expectedTag := computePoly1305Mac oversized (ciphertext.take payloadSize) key
    if tagDiff (ciphertext.drop payloadSize) expectedTag ≠ 0 then none
    else some (chacha20Xor (ciphertext.take payloadSize) key nonce 1)

/-! ### The keystream is its own inverse -/

@[simp] theorem length_blockBytes (block : Vector UInt32 16) :
    (blockBytes block).length = 64 := by
  rw [blockBytes, List.length_flatMap]
  simp only [length_toBytes, List.map_const', Vector.length_toList]
  rfl

theorem chacha20_fold (key nonce : List UInt8) (bs : List (List UInt8)) (done : List UInt8)
    (counter : UInt32) :
    (bs.foldl (chacha20Step key nonce) (done, counter)).1 =
      done ++ (bs.foldl (chacha20Step key nonce) ([], counter)).1 := by
  induction bs generalizing done counter with
  | nil => rw [List.foldl_nil, List.foldl_nil, List.append_nil]
  | cons b bs ih =>
    rw [List.foldl_cons, List.foldl_cons, chacha20Step, ih]
    conv_rhs => rw [chacha20Step, ih]
    rw [List.nil_append, List.append_assoc]

theorem chacha20Xor_nil (key nonce : List UInt8) (counter : UInt32) :
    chacha20Xor [] key nonce counter = [] := rfl

theorem chacha20Xor_cons {data : List UInt8} (key nonce : List UInt8) (counter : UInt32)
    (nonempty : data ≠ []) :
    chacha20Xor data key nonce counter =
      List.zipWith (· ^^^ ·) (data.take 64) (blockBytes (chacha20Block key counter nonce)) ++
        chacha20Xor (data.drop 64) key nonce (counter + 1) := by
  rw [chacha20Xor, blocks_cons (by norm_num) nonempty, List.foldl_cons, chacha20Step,
    chacha20_fold, List.nil_append, chacha20Xor]

@[simp] theorem length_chacha20Xor (data key nonce : List UInt8) (counter : UInt32) :
    (chacha20Xor data key nonce counter).length = data.length := by
  induction data using blocks_induction (show 0 < 64 by norm_num) generalizing counter with
  | nil => rfl
  | cons data nonempty ih =>
    rw [chacha20Xor_cons key nonce counter nonempty, List.length_append, ih, List.length_zipWith,
      List.length_take, length_blockBytes, List.length_drop]
    omega

theorem zipWith_xor_xor (xs pad : List UInt8) (fits : xs.length ≤ pad.length) :
    List.zipWith (· ^^^ ·) (List.zipWith (· ^^^ ·) xs pad) pad = xs := by
  induction xs generalizing pad with
  | nil => rfl
  | cons x xs ih =>
    cases pad with
    | nil => simp at fits
    | cons p pad =>
      rw [List.zipWith_cons_cons, List.zipWith_cons_cons, ih pad (by simpa using fits),
        UInt8.xor_assoc, UInt8.xor_self, UInt8.xor_zero]

theorem chacha20Xor_split {data : List UInt8} (key nonce : List UInt8) (counter : UInt32)
    (nonempty : data ≠ []) :
    (chacha20Xor data key nonce counter).take 64 =
        List.zipWith (· ^^^ ·) (data.take 64) (blockBytes (chacha20Block key counter nonce)) ∧
      (chacha20Xor data key nonce counter).drop 64 =
        chacha20Xor (data.drop 64) key nonce (counter + 1) := by
  have len : (List.zipWith (· ^^^ ·) (data.take 64)
      (blockBytes (chacha20Block key counter nonce))).length = min 64 data.length := by
    rw [List.length_zipWith, List.length_take, length_blockBytes]
    omega
  rw [chacha20Xor_cons key nonce counter nonempty]
  by_cases full : 64 ≤ data.length
  · rw [min_eq_left full] at len
    exact ⟨List.take_left' len, List.drop_left' len⟩
  · rw [List.drop_of_length_le (show data.length ≤ 64 by omega), chacha20Xor_nil, List.append_nil]
    exact ⟨List.take_of_length_le (by omega), List.drop_of_length_le (by omega)⟩

theorem chacha20Xor_chacha20Xor (data key nonce : List UInt8) (counter : UInt32) :
    chacha20Xor (chacha20Xor data key nonce counter) key nonce counter = data := by
  induction data using blocks_induction (show 0 < 64 by norm_num) generalizing counter with
  | nil => rfl
  | cons data nonempty ih =>
    have ciphered : chacha20Xor data key nonce counter ≠ [] := by
      intro empty
      have len := length_chacha20Xor data key nonce counter
      rw [empty, List.length_nil] at len
      exact nonempty (List.length_eq_zero_iff.mp len.symm)
    obtain ⟨head, tail⟩ := chacha20Xor_split key nonce counter nonempty
    rw [chacha20Xor_cons key nonce counter ciphered, head, tail, ih,
      zipWith_xor_xor _ _ (by rw [length_blockBytes]; exact List.length_take_le _ _),
      List.take_append_drop]

/-! ### The tag comparison accepts only equality -/

theorem foldl_or_eq_zero_iff (bytes : List UInt8) (start : UInt8) :
    bytes.foldl (· ||| ·) start = 0 ↔ start = 0 ∧ ∀ b ∈ bytes, b = 0 := by
  induction bytes generalizing start with
  | nil => simp
  | cons b bytes ih =>
    rw [List.foldl_cons, ih, UInt8.or_eq_zero_iff, List.forall_mem_cons, and_assoc]

theorem tagDiff_eq_zero_iff {tag expectedTag : List UInt8}
    (len : tag.length = expectedTag.length) : tagDiff tag expectedTag = 0 ↔ tag = expectedTag := by
  rw [tagDiff, foldl_or_eq_zero_iff]
  induction tag generalizing expectedTag with
  | nil =>
    obtain rfl := List.length_eq_zero_iff.mp len.symm
    simp
  | cons t tag ih =>
    cases expectedTag with
    | nil => simp at len
    | cons e expectedTag =>
      have tails := ih (by simpa using len)
      simp only [true_and] at tails
      simp only [List.zipWith_cons_cons, List.forall_mem_cons, true_and, tails,
        UInt8.xor_eq_zero_iff, List.cons.injEq]

@[simp] theorem length_computePoly1305Mac (oversized : Nat → UInt64) (msg key : List UInt8) :
    (computePoly1305Mac oversized msg key).length = tagSize := by
  simp [computePoly1305Mac, tagSize]

/-! ### Sealing and opening -/

section Sizes

variable (oversized : Nat → UInt64) {key nonce : List UInt8}
  (keyOk : key.length = keySize) (nonceOk : nonce.length = nonceSize)
include keyOk nonceOk

theorem encryptPayload_eq (plaintext : List UInt8) :
    encryptPayload oversized plaintext key nonce =
      .ok (chacha20Xor plaintext key nonce 1 ++
        computePoly1305Mac oversized (chacha20Xor plaintext key nonce 1) key) := by
  rw [encryptPayload, if_neg (by simp [keyOk, nonceOk])]

theorem decryptPayload_append (body tag : List UInt8) (len : tag.length = tagSize) :
    decryptPayload oversized (body ++ tag) key nonce =
      if tag = computePoly1305Mac oversized body key then some (chacha20Xor body key nonce 1)
      else none := by
  have size : (body ++ tag).length - tagSize = body.length := by
    rw [List.length_append, len, Nat.add_sub_cancel]
  have fits : ¬ (key.length ≠ keySize ∨ nonce.length ≠ nonceSize ∨
      (body ++ tag).length < tagSize) := by
    rw [List.length_append, len]
    omega
  have same : tagDiff tag (computePoly1305Mac oversized body key) = 0 ↔
      tag = computePoly1305Mac oversized body key :=
    tagDiff_eq_zero_iff (by rw [len, length_computePoly1305Mac])
  simp only [decryptPayload, if_neg fits, size, List.take_left, List.drop_left]
  by_cases accepted : tag = computePoly1305Mac oversized body key
  · rw [if_neg (not_not.mpr (same.mpr accepted)), if_pos accepted]
  · rw [if_pos (fun h => accepted (same.mp h)), if_neg accepted]

theorem decryptPayload_encryptPayload {plaintext ciphertext : List UInt8}
    (sealed : encryptPayload oversized plaintext key nonce = .ok ciphertext) :
    decryptPayload oversized ciphertext key nonce = some plaintext := by
  rw [encryptPayload_eq oversized keyOk nonceOk] at sealed
  rw [← Except.ok.inj sealed, decryptPayload_append oversized keyOk nonceOk _ _
    (length_computePoly1305Mac ..), if_pos rfl, chacha20Xor_chacha20Xor]

theorem encryptPayload_decryptPayload {plaintext ciphertext : List UInt8}
    (opened : decryptPayload oversized ciphertext key nonce = some plaintext) :
    encryptPayload oversized plaintext key nonce = .ok ciphertext := by
  have long : tagSize ≤ ciphertext.length := by
    by_contra short
    rw [decryptPayload, if_pos (by omega)] at opened
    cases opened
  have split := List.take_append_drop (ciphertext.length - tagSize) ciphertext
  rw [← split, decryptPayload_append oversized keyOk nonceOk _ _
    (by rw [List.length_drop]; omega)] at opened
  split_ifs at opened with accepted
  rw [encryptPayload_eq oversized keyOk nonceOk, ← Option.some.inj opened,
    chacha20Xor_chacha20Xor, ← accepted, split]

end Sizes

/-- Opening gives `p` exactly on the sealing of `p`. -/
theorem decryptPayload_eq_some_iff (oversized : Nat → UInt64) (c p k n : List UInt8)
    (keyOk : k.length = 32) (nonceOk : n.length = 12) :
    decryptPayload oversized c k n = some p ↔ encryptPayload oversized p k n = .ok c :=
  ⟨encryptPayload_decryptPayload oversized keyOk nonceOk,
    decryptPayload_encryptPayload oversized keyOk nonceOk⟩

theorem decryptPayload_eq_some_iff_seven :
    ∃ c, encryptPayload (fun _ => 1) [7] (List.replicate 32 1) (List.replicate 12 2) = .ok c ∧
      decryptPayload (fun _ => 1) c (List.replicate 32 1) (List.replicate 12 2) = some [7] :=
  ⟨_, rfl, (decryptPayload_eq_some_iff (fun _ => 1) _ [7] _ _ rfl rfl).mpr rfl⟩

end RemoteAccess.CryptoEngine
