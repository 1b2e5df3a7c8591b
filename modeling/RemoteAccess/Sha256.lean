import RemoteAccess.Basics.Blocks

/-! The digest of the file transfer, as it is computed there: padding to whole blocks,
the message schedule of each block, and its sixty-four rounds. -/

namespace RemoteAccess.Sha256

/-- The working variables, and between the blocks the hash value. -/
structure Words where
  a : UInt32
  b : UInt32
  c : UInt32
  d : UInt32
  e : UInt32
  f : UInt32
  g : UInt32
  h : UInt32
deriving DecidableEq

def initial : Words where
  a := 0x6a09e667
  b := 0xbb67ae85
  c := 0x3c6ef372
  d := 0xa54ff53a
  e := 0x510e527f
  f := 0x9b05688c
  g := 0x1f83d9ab
  h := 0x5be0cd19

def k : List UInt32 :=
  [0x428a2f98, 0x71374491, 0xb5c0fbcf, 0xe9b5dba5, 0x3956c25b, 0x59f111f1, 0x923f82a4,
   0xab1c5ed5, 0xd807aa98, 0x12835b01, 0x243185be, 0x550c7dc3, 0x72be5d74, 0x80deb1fe,
   0x9bdc06a7, 0xc19bf174, 0xe49b69c1, 0xefbe4786, 0x0fc19dc6, 0x240ca1cc, 0x2de92c6f,
   0x4a7484aa, 0x5cb0a9dc, 0x76f988da, 0x983e5152, 0xa831c66d, 0xb00327c8, 0xbf597fc7,
   0xc6e00bf3, 0xd5a79147, 0x06ca6351, 0x14292967, 0x27b70a85, 0x2e1b2138, 0x4d2c6dfc,
   0x53380d13, 0x650a7354, 0x766a0abb, 0x81c2c92e, 0x92722c85, 0xa2bfe8a1, 0xa81a664b,
   0xc24b8b70, 0xc76c51a3, 0xd192e819, 0xd6990624, 0xf40e3585, 0x106aa070, 0x19a4c116,
   0x1e376c08, 0x2748774c, 0x34b0bcb5, 0x391c0cb3, 0x4ed8aa4a, 0x5b9cca4f, 0x682e6ff3,
   0x748f82ee, 0x78a5636f, 0x84c87814, 0x8cc70208, 0x90befffa, 0xa4506ceb, 0xbef9a3f7,
   0xc67178f2]

def rightRotate (x n : UInt32) : UInt32 := (x >>> n) ||| (x <<< (32 - n))

/-- The zeros pushed until the size is 56 modulo 64; at most 63 are needed. -/
def pushZeros : (fuel : Nat) → List UInt8 → List UInt8
  | 0, padded => padded
  | fuel + 1, padded =>
    if padded.length % 64 ≠ 56 then pushZeros fuel (padded ++ [0x00]) else padded

def pad (data : List UInt8) : List UInt8 :=
  let bitLength := UInt64.ofNat data.length * 8
  pushZeros 64 (data ++ [0x80]) ++
    (List.range 8).map fun i => (bitLength >>> UInt64.ofNat ((7 - i) * 8)).toUInt8

/-- The shifts are made on `int`, whose bits are those of the word. -/
def bigEndian (bytes : List UInt8) : UInt32 :=
  ((bytes.getD 0 0).toUInt32 <<< 24) ||| ((bytes.getD 1 0).toUInt32 <<< 16) |||
    ((bytes.getD 2 0).toUInt32 <<< 8) ||| (bytes.getD 3 0).toUInt32

def extend (w : List UInt32) (i : Nat) : List UInt32 :=
  let x := w.getD (i - 15) 0
  let y := w.getD (i - 2) 0
  let s0 := rightRotate x 7 ^^^ rightRotate x 18 ^^^ (x >>> 3)
  let s1 := rightRotate y 17 ^^^ rightRotate y 19 ^^^ (y >>> 10)
  w ++ [w.getD (i - 16) 0 + s0 + w.getD (i - 7) 0 + s1]

def schedule (chunk : List UInt8) : List UInt32 :=
  (List.range' 16 48).foldl extend
    ((List.range 16).map fun i => bigEndian ((chunk.drop (i * 4)).take 4))

def round (w : List UInt32) (v : Words) (i : Nat) : Words :=
  let s1 := rightRotate v.e 6 ^^^ rightRotate v.e 11 ^^^ rightRotate v.e 25
  let ch := (v.e &&& v.f) ^^^ (~~~v.e &&& v.g)
  let temp1 := v.h + s1 + ch + k.getD i 0 + w.getD i 0
  let s0 := rightRotate v.a 2 ^^^ rightRotate v.a 13 ^^^ rightRotate v.a 22
  let maj := (v.a &&& v.b) ^^^ (v.a &&& v.c) ^^^ (v.b &&& v.c)
  let temp2 := s0 + maj
  { a := temp1 + temp2, b := v.a, c := v.b, d := v.c, e := v.d + temp1, f := v.e, g := v.f,
    h := v.g }

def compress (h : Words) (chunk : List UInt8) : Words :=
  let v := (List.range 64).foldl (round (schedule chunk)) h
  { a := h.a + v.a, b := h.b + v.b, c := h.c + v.c, d := h.d + v.d, e := h.e + v.e,
    f := h.f + v.f, g := h.g + v.g, h := h.h + v.h }

/-- `std::hex` with width 8 and fill `0`. -/
def hex (x : UInt32) : List Char :=
  let digits := Nat.toDigits 16 x.toNat
  List.replicate (8 - digits.length) '0' ++ digits

def Words.toList (v : Words) : List UInt32 := [v.a, v.b, v.c, v.d, v.e, v.f, v.g, v.h]

def computeSha256 (data : List UInt8) : String :=
  String.ofList
    (((Blocks.blocks 64 (pad data)).foldl compress initial).toList.flatMap hex)

theorem length_pushZeros {fuel : Nat} {padded : List UInt8}
    (enough : (120 - padded.length % 64) % 64 ≤ fuel) :
    (pushZeros fuel padded).length % 64 = 56 := by
  induction fuel generalizing padded with
  | zero =>
    rw [pushZeros]
    omega
  | succ fuel ih =>
    rw [pushZeros]
    split
    · apply ih
      rw [List.length_append, List.length_singleton]
      omega
    · next reached => exact Decidable.not_not.mp reached

theorem length_pad (data : List UInt8) : 64 ∣ (pad data).length := by
  have zeros := @length_pushZeros 64 (data ++ [0x80]) (by omega)
  rw [pad, List.length_append, List.length_map, List.length_range]
  omega

/-- Of the text abc. -/
example : computeSha256 [0x61, 0x62, 0x63] =
    "ba7816bf8f01cfea414140de5dae2223b00361a396177a9cb410ff61f20015ad" := by
  decide +kernel

end RemoteAccess.Sha256
