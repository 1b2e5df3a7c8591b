import RemoteAccess.Basics.Blocks
import RemoteAccess.Basics.LittleEndian
import Mathlib.Logic.Function.Iterate

/-! The authenticated encryption `AEAD_CHACHA20_POLY1305`: the ChaCha20 block
function, the keystream it gives in counter mode, the Poly1305 evaluation modulo
`2^130 - 5`, and the construction that keys the second from block 0 of the first.
The four constant words of the state are a parameter of the stream. -/

namespace RemoteAccess.ChaChaPoly

open LittleEndian Blocks

/-! ### ChaCha20 -/

abbrev State := List UInt32

/-- `"expa"`, `"nd 3"`, `"2-by"`, `"te k"`. -/
def constants : Vector UInt32 4 := #v[0x61707865, 0x3320646e, 0x79622d32, 0x6b206574]

def rotateLeft (w : UInt32) (count : Nat) : UInt32 := ⟨w.toBitVec.rotateLeft count⟩

def quarterRound (s : State) (i j k l : Nat) : State :=
  let a := s.getD i 0 + s.getD j 0
  let d := rotateLeft (s.getD l 0 ^^^ a) 16
  let c := s.getD k 0 + d
  let b := rotateLeft (s.getD j 0 ^^^ c) 12
  let a := a + b
  let d := rotateLeft (d ^^^ a) 8
  let c := c + d
  let b := rotateLeft (b ^^^ c) 7
  (((s.set i a).set j b).set k c).set l d

def innerBlock (s : State) : State :=
  let s := quarterRound s 0 4 8 12
  let s := quarterRound s 1 5 9 13
  let s := quarterRound s 2 6 10 14
  let s := quarterRound s 3 7 11 15
  let s := quarterRound s 0 5 10 15
  let s := quarterRound s 1 6 11 12
  let s := quarterRound s 2 7 8 13
  quarterRound s 3 4 9 14

def initialState (sigma : Vector UInt32 4) (key : List UInt8) (counter : UInt32)
    (nonce : List UInt8) : State :=
  sigma.toList ++ (List.range 8).map (fun i => UInt32.ofNat (word (4 * i) 4 key)) ++ [counter] ++
    (List.range 3).map fun i => UInt32.ofNat (word (4 * i) 4 nonce)

def block (sigma : Vector UInt32 4) (key : List UInt8) (counter : UInt32) (nonce : List UInt8) :
    List UInt8 :=
  let state := initialState sigma key counter nonce
  (List.zipWith (· + ·) (innerBlock^[10] state) state).flatMap fun w => toBytes 4 w.toNat

def keystream (sigma : Vector UInt32 4) (key : List UInt8) (counter : UInt32)
    (nonce : List UInt8) (len : Nat) : List UInt8 :=
  ((List.range ((len + 63) / 64)).flatMap fun i =>
    block sigma key (counter + UInt32.ofNat i) nonce).take len

def chacha20 (sigma : Vector UInt32 4) (key : List UInt8) (counter : UInt32)
    (nonce plaintext : List UInt8) : List UInt8 :=
  List.zipWith (· ^^^ ·) plaintext (keystream sigma key counter nonce plaintext.length)

/-- The first block under a key and nonce of zeros. -/
example : (block constants (List.replicate 32 0) 0 (List.replicate 12 0)).take 8 =
    [0x76, 0xb8, 0xe0, 0xad, 0xa0, 0xf1, 0x3d, 0x90] := by
  decide +kernel

/-! ### Poly1305 -/

def prime : Nat := 2 ^ 130 - 5

def clamp (r : Nat) : Nat := r &&& 0x0ffffffc0ffffffc0ffffffc0fffffff

/-- A block with a one behind its last byte. -/
def blockNumber (block : List UInt8) : Nat := toNat (block ++ [1])

def poly1305 (key message : List UInt8) : List UInt8 :=
  let r := clamp (word 0 16 key)
  let s := word 16 16 key
  let acc := (blocks 16 message).foldl (fun acc b => (acc + blockNumber b) * r % prime) 0
  toBytes 16 (acc + s)

/-! ### The construction -/

def pad16 (bytes : List UInt8) : List UInt8 := List.replicate ((16 - bytes.length % 16) % 16) 0

def oneTimeKey (key nonce : List UInt8) : List UInt8 := (block constants key 0 nonce).take 32

def macData (aad ciphertext : List UInt8) : List UInt8 :=
  aad ++ pad16 aad ++ ciphertext ++ pad16 ciphertext ++ toBytes 8 aad.length ++
    toBytes 8 ciphertext.length

def tag (key nonce aad ciphertext : List UInt8) : List UInt8 :=
  poly1305 (oneTimeKey key nonce) (macData aad ciphertext)

def aeadEncrypt (key nonce plaintext aad : List UInt8) : List UInt8 :=
  let ciphertext := chacha20 constants key 1 nonce plaintext
  ciphertext ++ tag key nonce aad ciphertext

/-! ### Lengths and the step from block to block -/

@[simp] theorem length_quarterRound (s : State) (i j k l : Nat) :
    (quarterRound s i j k l).length = s.length := by
  simp [quarterRound]

theorem length_innerBlock (count : Nat) (s : State) : (innerBlock^[count] s).length = s.length := by
  induction count generalizing s with
  | zero => rfl
  | succ count ih =>
    rw [Function.iterate_succ_apply, ih, innerBlock]
    simp only [length_quarterRound]

section Stream

variable (sigma : Vector UInt32 4) (key : List UInt8) (counter : UInt32) (nonce : List UInt8)

@[simp] theorem length_block : (block sigma key counter nonce).length = 64 := by
  rw [block, Blocks.length_flatMap (fun w _ => length_toBytes 4 w.toNat), List.length_zipWith,
    length_innerBlock]
  simp [initialState]

@[simp] theorem length_keystream (len : Nat) :
    (keystream sigma key counter nonce len).length = len := by
  rw [keystream, List.length_take,
    Blocks.length_flatMap fun i _ => length_block sigma key (counter + UInt32.ofNat i) nonce,
    List.length_range]
  omega

@[simp] theorem length_chacha20 (plaintext : List UInt8) :
    (chacha20 sigma key counter nonce plaintext).length = plaintext.length := by
  rw [chacha20, List.length_zipWith, length_keystream, Nat.min_self]

theorem keystream_pos {len : Nat} (pos : 0 < len) :
    keystream sigma key counter nonce len =
      (block sigma key counter nonce).take len ++
        keystream sigma key (counter + 1) nonce (len - 64) := by
  have count : (len + 63) / 64 = (len - 64 + 63) / 64 + 1 := by omega
  have start : counter + UInt32.ofNat 0 = counter := UInt32.add_zero counter
  have next : ∀ i, counter + UInt32.ofNat (i + 1) = counter + 1 + UInt32.ofNat i := by
    intro i
    rw [UInt32.ofNat_add, UInt32.add_comm (UInt32.ofNat i), ← UInt32.add_assoc]
    rfl
  rw [keystream, count, List.range_succ_eq_map, List.flatMap_cons, List.take_append, length_block,
    List.flatMap_map, keystream, start]
  simp only [Nat.succ_eq_add_one, next]

theorem chacha20_cons {plaintext : List UInt8} (nonempty : plaintext ≠ []) :
    chacha20 sigma key counter nonce plaintext =
      List.zipWith (· ^^^ ·) (plaintext.take 64) (block sigma key counter nonce) ++
        chacha20 sigma key (counter + 1) nonce (plaintext.drop 64) := by
  have pos := List.length_pos_of_ne_nil nonempty
  have pieces : (plaintext.take 64).length =
      ((block sigma key counter nonce).take plaintext.length).length := by
    rw [List.length_take, List.length_take, length_block, Nat.min_comm]
  have cut : List.zipWith (· ^^^ ·) (plaintext.take 64)
      ((block sigma key counter nonce).take plaintext.length) =
        List.zipWith (· ^^^ ·) (plaintext.take 64) (block sigma key counter nonce) := by
    have short : (plaintext.take 64).take plaintext.length = plaintext.take 64 :=
      List.take_of_length_le (List.length_take_le' _ _)
    conv_lhs => rw [← short]
    rw [← List.take_zipWith, List.take_of_length_le]
    rw [List.length_zipWith, List.length_take]
    omega
  have split := @List.zipWith_append _ _ _ (· ^^^ ·) (plaintext.take 64) (plaintext.drop 64) _
    (keystream sigma key (counter + 1) nonce (plaintext.length - 64)) pieces
  rw [List.take_append_drop, cut] at split
  rw [chacha20, keystream_pos sigma key counter nonce pos, split, chacha20, List.length_drop]

end Stream

theorem zipWith_xor_inj {xs pad pad' : List UInt8} (len : pad.length = xs.length)
    (len' : pad'.length = xs.length) :
    List.zipWith (· ^^^ ·) xs pad = List.zipWith (· ^^^ ·) xs pad' ↔ pad = pad' := by
  induction xs generalizing pad pad' with
  | nil =>
    obtain rfl := List.length_eq_zero_iff.mp len
    obtain rfl := List.length_eq_zero_iff.mp len'
    exact Iff.rfl
  | cons x xs ih =>
    obtain ⟨p, pad, rfl⟩ := List.exists_cons_of_length_eq_add_one len
    obtain ⟨p', pad', rfl⟩ := List.exists_cons_of_length_eq_add_one len'
    rw [List.zipWith_cons_cons, List.zipWith_cons_cons, List.cons.injEq, List.cons.injEq,
      UInt8.xor_right_inj, ih (by simpa using len) (by simpa using len')]

end RemoteAccess.ChaChaPoly
