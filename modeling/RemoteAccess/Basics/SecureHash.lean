import RemoteAccess.Basics.Blocks
import Mathlib.Data.List.Induction
import Mathlib.Data.Nat.NthRoot.Defs
import Mathlib.Tactic.Ring

/-! The hash function SHA-256 of FIPS 180-4, on messages of bits. -/

namespace RemoteAccess.SecureHash

abbrev Word := BitVec 32

def toBits (width n : Nat) : List Bool := (List.range width).map fun i => n.testBit (width - 1 - i)

def ofBits (bits : List Bool) : Nat := bits.foldl (fun n bit => 2 * n + bit.toNat) 0

/-! ### Functions and constants -/

def Ch (x y z : Word) : Word := (x &&& y) ^^^ (~~~x &&& z)

def Maj (x y z : Word) : Word := (x &&& y) ^^^ (x &&& z) ^^^ (y &&& z)

def Sigma0 (x : Word) : Word := x.rotateRight 2 ^^^ x.rotateRight 13 ^^^ x.rotateRight 22

def Sigma1 (x : Word) : Word := x.rotateRight 6 ^^^ x.rotateRight 11 ^^^ x.rotateRight 25

def sigma0 (x : Word) : Word := x.rotateRight 7 ^^^ x.rotateRight 18 ^^^ (x >>> 3)

def sigma1 (x : Word) : Word := x.rotateRight 17 ^^^ x.rotateRight 19 ^^^ (x >>> 10)

/-- The first sixty-four. -/
def primes : List Nat :=
  [2, 3, 5, 7, 11, 13, 17, 19, 23, 29, 31, 37, 41, 43, 47, 53, 59, 61, 67, 71, 73, 79, 83, 89, 97,
   101, 103, 107, 109, 113, 127, 131, 137, 139, 149, 151, 157, 163, 167, 173, 179, 181, 191, 193,
   197, 199, 211, 223, 227, 229, 233, 239, 241, 251, 257, 263, 269, 271, 277, 281, 283, 293, 307,
   311]

/-- The first thirty-two bits of the fractional part of a root. -/
def fraction (degree p : Nat) : Word := BitVec.ofNat 32 (Nat.nthRoot degree (p * 2 ^ (32 * degree)))

def K (t : Nat) : Word := fraction 3 (primes.getD t 0)

/-- The eight words of a hash value, and the working variables. -/
structure Hash where
  a : Word
  b : Word
  c : Word
  d : Word
  e : Word
  f : Word
  g : Word
  h : Word
deriving DecidableEq

def Hash.words (H : Hash) : List Word := [H.a, H.b, H.c, H.d, H.e, H.f, H.g, H.h]

def initial : Hash where
  a := fraction 2 2
  b := fraction 2 3
  c := fraction 2 5
  d := fraction 2 7
  e := fraction 2 11
  f := fraction 2 13
  g := fraction 2 17
  h := fraction 2 19

/-! ### Preprocessing -/

/-- How many zeros come after the one that ends a message of `l` bits. -/
def zeros (l : Nat) : Nat := (448 + 512 - (l + 1) % 512) % 512

theorem zeros_spec (l : Nat) : (l + 1 + zeros l) % 512 = 448 := by
  rw [zeros]
  omega

theorem zeros_least {l k : Nat} (fits : (l + 1 + k) % 512 = 448) : zeros l ≤ k := by
  rw [zeros]
  omega

def pad (message : List Bool) : List Bool :=
  message ++ true :: List.replicate (zeros message.length) false ++ toBits 64 message.length

def wordAt (block : List Bool) (t : Nat) : Word :=
  BitVec.ofNat 32 (ofBits ((block.drop (32 * t)).take 32))

/-! ### Hash computation -/

def W (M : Nat → Word) (t : Nat) : Word :=
  if t < 16 then M t
  else sigma1 (W M (t - 2)) + W M (t - 7) + sigma0 (W M (t - 15)) + W M (t - 16)
termination_by t

def step (W : Nat → Word) (v : Hash) (t : Nat) : Hash :=
  let T1 := v.h + Sigma1 v.e + Ch v.e v.f v.g + K t + W t
  let T2 := Sigma0 v.a + Maj v.a v.b v.c
  ⟨T1 + T2, v.a, v.b, v.c, v.d + T1, v.e, v.f, v.g⟩

def compress (H : Hash) (block : List Bool) : Hash :=
  let v := (List.range 64).foldl (step (W (wordAt block))) H
  ⟨H.a + v.a, H.b + v.b, H.c + v.c, H.d + v.d, H.e + v.e, H.f + v.f, H.g + v.g, H.h + v.h⟩

/-- The digest of a message of fewer than `2 ^ 64` bits. -/
def sha256 (message : List Bool) : List Bool :=
  ((Blocks.blocks 512 (pad message)).foldl compress initial).words.flatMap fun w =>
    toBits 32 w.toNat

/-! ### Bits, bytes and hexadecimal digits -/

def bits (bytes : List UInt8) : List Bool := bytes.flatMap fun byte => toBits 8 byte.toNat

def hexadecimal (bits : List Bool) : String :=
  String.ofList ((Blocks.blocks 4 bits).map fun digit => Nat.digitChar (ofBits digit))

def digest (data : List UInt8) : List UInt8 :=
  (Blocks.blocks 8 (sha256 (bits data))).map fun byte => UInt8.ofNat (ofBits byte)

@[simp] theorem length_toBits (width n : Nat) : (toBits width n).length = width := by
  rw [toBits, List.length_map, List.length_range]

theorem toBits_add (high low n : Nat) :
    toBits (high + low) n = toBits high (n / 2 ^ low) ++ toBits low n := by
  rw [toBits, List.range_add, List.map_append, List.map_map, toBits, toBits]
  congr 1
  · refine List.map_congr_left fun i member => ?_
    have inside := List.mem_range.mp member
    rw [Nat.testBit_div_two_pow]
    congr 1
    omega
  · refine List.map_congr_left fun i _ => ?_
    rw [Function.comp_apply]
    congr 1
    omega

theorem toBits_mod (width n : Nat) : toBits width (n % 2 ^ width) = toBits width n := by
  refine List.map_congr_left fun i member => ?_
  have inside := List.mem_range.mp member
  rw [Nat.testBit_mod_two_pow, decide_eq_true (by omega : width - 1 - i < width), Bool.true_and]

theorem toBits_digits (width count n : Nat) :
    toBits (width * count) n =
      (List.range count).flatMap fun i => toBits width (n / 2 ^ (width * (count - 1 - i))) := by
  induction count generalizing n with
  | zero => rfl
  | succ count ih =>
    rw [Nat.mul_succ, toBits_add, ih, List.range_succ, List.flatMap_append, List.flatMap_singleton,
      Nat.add_sub_cancel, Nat.sub_self, Nat.mul_zero, Nat.pow_zero, Nat.div_one]
    congr 1
    refine List.flatMap_congr fun i member => ?_
    have inside := List.mem_range.mp member
    have next : count - i = count - 1 - i + 1 := by omega
    rw [Nat.div_div_eq_div_mul, ← Nat.pow_add, next, Nat.mul_succ, Nat.add_comm width]

theorem ofBits_append (xs ys : List Bool) :
    ofBits (xs ++ ys) = ofBits xs * 2 ^ ys.length + ofBits ys := by
  induction ys using List.reverseRecOn with
  | nil => simp [ofBits]
  | append_singleton ys bit ih =>
    have last : ∀ zs : List Bool, ofBits (zs ++ [bit]) = 2 * ofBits zs + bit.toNat := by
      intro zs
      rw [ofBits, List.foldl_append]
      rfl
    rw [← List.append_assoc, last, last, ih, List.length_append, List.length_singleton, pow_succ]
    ring

theorem ofBits_toBits (width n : Nat) : ofBits (toBits width n) = n % 2 ^ width := by
  induction width generalizing n with
  | zero => simp [toBits, ofBits, Nat.mod_one]
  | succ width ih =>
    have last : ofBits (toBits 1 n) = n % 2 := by
      obtain even | odd := Nat.mod_two_eq_zero_or_one n <;> simp [toBits, ofBits, *]
    rw [toBits_add, ofBits_append, ih, last, length_toBits, pow_one, pow_succ',
      Nat.mod_mul]
    ring

theorem bits_append (xs ys : List UInt8) : bits (xs ++ ys) = bits xs ++ bits ys :=
  List.flatMap_append

theorem length_bits (bytes : List UInt8) : (bits bytes).length = 8 * bytes.length :=
  Blocks.length_flatMap fun _ _ => length_toBits 8 _

theorem take_bits (n : Nat) (bytes : List UInt8) :
    (bits bytes).take (8 * n) = bits (bytes.take n) := by
  by_cases inside : n ≤ bytes.length
  · have front : (bits (bytes.take n)).length = 8 * n := by
      rw [length_bits, List.length_take, Nat.min_eq_left inside]
    conv_lhs => rw [← List.take_append_drop n bytes, bits_append]
    exact List.take_left' front
  · rw [List.take_of_length_le (by rw [length_bits]; omega), List.take_of_length_le (by omega)]

theorem drop_bits (n : Nat) (bytes : List UInt8) :
    (bits bytes).drop (8 * n) = bits (bytes.drop n) := by
  have split : (bits bytes).take (8 * n) ++ (bits bytes).drop (8 * n) =
      bits (bytes.take n) ++ bits (bytes.drop n) := by
    rw [List.take_append_drop, ← bits_append, List.take_append_drop]
  rw [take_bits] at split
  exact List.append_cancel_left split

theorem blocks_bits {size : Nat} (pos : 0 < size) (bytes : List UInt8) :
    Blocks.blocks (8 * size) (bits bytes) = (Blocks.blocks size bytes).map bits := by
  induction bytes using Blocks.blocks_induction pos with
  | nil => rfl
  | cons bytes nonempty ih =>
    have some_bit : bits bytes ≠ [] := by
      have len := List.length_pos_of_ne_nil nonempty
      exact List.ne_nil_of_length_pos (by rw [length_bits]; omega)
    rw [Blocks.blocks_cons (by omega) some_bit, Blocks.blocks_cons pos nonempty, take_bits,
      drop_bits, ih, List.map_cons]

theorem wordAt_bits (bytes : List UInt8) (t : Nat) :
    wordAt (bits bytes) t = BitVec.ofNat 32 (ofBits (bits ((bytes.drop (4 * t)).take 4))) := by
  have start : 32 * t = 8 * (4 * t) := by omega
  rw [wordAt, start, drop_bits, ← take_bits]

theorem ofBits_bits_cons (byte : UInt8) (bytes : List UInt8) :
    ofBits (bits (byte :: bytes)) = byte.toNat * 2 ^ (8 * bytes.length) + ofBits (bits bytes) := by
  rw [bits, List.flatMap_cons, ofBits_append, ofBits_toBits, Nat.mod_eq_of_lt (UInt8.toNat_lt byte)]
  congr 3
  exact length_bits bytes

theorem digits_toBits (count n : Nat) :
    (Blocks.blocks 4 (toBits (4 * count) n)).map (fun digit => Nat.digitChar (ofBits digit)) =
      (List.range count).map fun i => Nat.digitChar (n / 2 ^ (4 * (count - 1 - i)) % 16) := by
  have single : ∀ i, Blocks.blocks 4 (toBits 4 (n / 2 ^ (4 * (count - 1 - i)))) =
      [toBits 4 (n / 2 ^ (4 * (count - 1 - i)))] :=
    fun _ => Blocks.blocks_singleton (by decide) (length_toBits 4 _)
  rw [toBits_digits, Blocks.blocks_flatMap (by decide) fun _ _ => by rw [length_toBits],
    List.map_flatMap, List.map_eq_flatMap]
  refine List.flatMap_congr fun i _ => ?_
  rw [single, List.map_singleton, ofBits_toBits]
  rfl

end RemoteAccess.SecureHash
