import RemoteAccess.Basics.SecureHash
import RemoteAccess.FileTransfer

/-! The digest of the file transfer is SHA-256: padding, schedule, rounds and hexadecimal
form, each against the standard's own. -/

namespace RemoteAccess.Sha256Standard

open FileTransfer SecureHash Sha256

/-! ### Constants and functions -/

theorem k_eq : Sha256.k.map UInt32.toBitVec = primes.map (fraction 3) := by decide +kernel

theorem k_getD (t : Nat) (inside : t < 64) : (Sha256.k.getD t 0).toBitVec = K t := by
  have here := congrArg (·[t]?) k_eq
  simp only [List.getElem?_map] at here
  have left : t < Sha256.k.length := inside
  have right : t < primes.length := inside
  rw [List.getElem?_eq_getElem left, List.getElem?_eq_getElem right, Option.map_some,
    Option.map_some] at here
  rw [K, List.getD_eq_getElem?_getD, List.getD_eq_getElem?_getD, List.getElem?_eq_getElem left,
    List.getElem?_eq_getElem right]
  exact Option.some.inj here

def toHash (v : Words) : Hash :=
  ⟨v.a.toBitVec, v.b.toBitVec, v.c.toBitVec, v.d.toBitVec, v.e.toBitVec, v.f.toBitVec,
    v.g.toBitVec, v.h.toBitVec⟩

theorem initial_eq : toHash Sha256.initial = SecureHash.initial := by decide +kernel

theorem rightRotate_eq (x : UInt32) {n : Nat} (pos : 0 < n) (small : n < 32) :
    (rightRotate x (UInt32.ofNat n)).toBitVec = x.toBitVec.rotateRight n := by
  have count : (UInt32.ofNat n).toNat = n :=
    UInt32.toNat_ofNat_of_lt' (Nat.lt_trans small (by decide))
  have rest : (32 - UInt32.ofNat n).toNat = 32 - n := by
    have le : UInt32.ofNat n ≤ 32 := by
      rw [UInt32.le_iff_toNat_le, count]
      exact Nat.le_of_lt small
    rw [UInt32.toNat_sub_of_le _ _ le, count]
    rfl
  have left : (UInt32.ofNat n).toBitVec.toNat % (32 : BitVec 32).toNat = n := by
    rw [UInt32.toNat_toBitVec, count]
    exact Nat.mod_eq_of_lt small
  have right : (32 - UInt32.ofNat n).toBitVec.toNat % (32 : BitVec 32).toNat = 32 - n := by
    rw [UInt32.toNat_toBitVec, rest]
    exact Nat.mod_eq_of_lt (Nat.sub_lt (by decide) pos)
  rw [rightRotate, UInt32.toBitVec_or, UInt32.toBitVec_shiftRight, UInt32.toBitVec_shiftLeft,
    BitVec.ushiftRight_eq', BitVec.shiftLeft_eq', BitVec.toNat_umod, BitVec.toNat_umod, left,
    right, BitVec.rotateRight_def, Nat.mod_eq_of_lt small]

theorem rightRotate_literal (x : UInt32) {n : Nat} (pos : 0 < n) (small : n < 32) :
    (rightRotate x (no_index (OfNat.ofNat n))).toBitVec = x.toBitVec.rotateRight n :=
  rightRotate_eq x pos small

theorem Sigma0_eq (x : UInt32) :
    (rightRotate x 2 ^^^ rightRotate x 13 ^^^ rightRotate x 22).toBitVec = Sigma0 x.toBitVec := by
  simp [rightRotate_literal, Sigma0]

theorem Sigma1_eq (x : UInt32) :
    (rightRotate x 6 ^^^ rightRotate x 11 ^^^ rightRotate x 25).toBitVec = Sigma1 x.toBitVec := by
  simp [rightRotate_literal, Sigma1]

theorem sigma0_eq (x : UInt32) :
    (rightRotate x 7 ^^^ rightRotate x 18 ^^^ (x >>> 3)).toBitVec = sigma0 x.toBitVec := by
  simp [rightRotate_literal, sigma0]

theorem sigma1_eq (x : UInt32) :
    (rightRotate x 17 ^^^ rightRotate x 19 ^^^ (x >>> 10)).toBitVec = sigma1 x.toBitVec := by
  simp [rightRotate_literal, sigma1]

/-! ### Padding -/

theorem pushZeros_eq {fuel : Nat} {padded : List UInt8}
    (enough : (120 - padded.length % 64) % 64 ≤ fuel) :
    pushZeros fuel padded =
      padded ++ List.replicate ((120 - padded.length % 64) % 64) 0 := by
  induction fuel generalizing padded with
  | zero => rw [pushZeros, Nat.le_zero.mp enough, List.replicate_zero, List.append_nil]
  | succ fuel ih =>
    rw [pushZeros]
    split
    · next more =>
      have count : (120 - padded.length % 64) % 64 =
          (120 - (padded ++ [0x00]).length % 64) % 64 + 1 := by
        rw [List.length_append, List.length_singleton]
        omega
      rw [ih (by omega), count, List.replicate_succ, List.append_assoc, List.singleton_append]
    · next reached =>
      have none : (120 - padded.length % 64) % 64 = 0 := by omega
      rw [none, List.replicate_zero, List.append_nil]

theorem bits_zeros (n : Nat) : bits (List.replicate n 0) = List.replicate (8 * n) false := by
  induction n with
  | zero => rfl
  | succ n ih =>
    rw [List.replicate_succ, ← List.singleton_append, bits_append, ih, Nat.mul_succ, Nat.add_comm,
      List.replicate_add]
    rfl

theorem bits_length {data : List UInt8} (short : data.length < 2 ^ 61) :
    bits ((List.range 8).map fun i =>
        ((UInt64.ofNat data.length * 8) >>> UInt64.ofNat ((7 - i) * 8)).toUInt8) =
      toBits 64 (8 * data.length) := by
  have total : (UInt64.ofNat data.length * 8).toNat = 8 * data.length := by
    rw [UInt64.toNat_mul, UInt64.toNat_ofNat_of_lt' (Nat.lt_trans short (by decide)),
      Nat.mul_comm]
    exact Nat.mod_eq_of_lt (show 8 * data.length < 2 ^ 64 by omega)
  have digits := toBits_digits 8 8 (8 * data.length)
  rw [bits, List.flatMap_map]
  refine Eq.trans (List.flatMap_congr fun i member => ?_) digits.symm
  have inside := List.mem_range.mp member
  have count : (UInt64.ofNat ((7 - i) * 8)).toNat % 64 = 8 * (8 - 1 - i) := by
    rw [UInt64.toNat_ofNat_of_lt' (show (7 - i) * 8 < 2 ^ 64 by omega)]
    omega
  rw [UInt64.toNat_toUInt8, UInt64.toNat_shiftRight, count, total, Nat.shiftRight_eq_div_pow]
  exact toBits_mod 8 _

theorem bits_pad {data : List UInt8} (short : data.length < 2 ^ 61) :
    bits (Sha256.pad data) = SecureHash.pad (bits data) := by
  have zeros : zeros (8 * data.length) =
      7 + 8 * ((120 - (data ++ [0x80]).length % 64) % 64) := by
    rw [SecureHash.zeros, List.length_append, List.length_singleton]
    omega
  have marker : bits [0x80] = true :: List.replicate 7 false := by decide
  rw [Sha256.pad, pushZeros_eq (by omega), bits_append, bits_append, bits_append, marker,
    bits_zeros, bits_length short, SecureHash.pad, length_bits, zeros, List.replicate_add]
  simp only [List.append_assoc, List.cons_append]

/-! ### Schedule and rounds -/

theorem or_eq_add {count high low : Nat} (small : low < 2 ^ count) :
    high * 2 ^ count ||| low = high * 2 ^ count + low := by
  rw [← Nat.shiftLeft_eq, Nat.shiftLeft_add_eq_or_of_lt small]

theorem toNat_shifted (b : UInt8) {count : Nat} (small : count ≤ 24) :
    (b.toUInt32 <<< UInt32.ofNat count).toNat = b.toNat * 2 ^ count := by
  have shift : (UInt32.ofNat count).toNat = count :=
    UInt32.toNat_ofNat_of_lt' (Nat.lt_of_le_of_lt small (by decide))
  have bound : b.toNat * 2 ^ count < 2 ^ 8 * 2 ^ 24 :=
    Nat.mul_lt_mul_of_lt_of_le (UInt8.toNat_lt b) (Nat.pow_le_pow_right (by decide) small)
      (by decide)
  rw [UInt32.toNat_shiftLeft, shift, Nat.mod_eq_of_lt (show count < 32 by omega), Nat.shiftLeft_eq,
    UInt8.toNat_toUInt32]
  exact Nat.mod_eq_of_lt bound

theorem bigEndian_eq (b0 b1 b2 b3 : UInt8) :
    (bigEndian [b0, b1, b2, b3]).toBitVec =
      BitVec.ofNat 32 (ofBits (bits [b0, b1, b2, b3])) := by
  have h0 := UInt8.toNat_lt b0
  have h1 := UInt8.toNat_lt b1
  have h2 := UInt8.toNat_lt b2
  have h3 := UInt8.toNat_lt b3
  have second : b0.toNat * 2 ^ 24 ||| b1.toNat * 2 ^ 16 =
      (b0.toNat * 2 ^ 8 + b1.toNat) * 2 ^ 16 := by
    rw [or_eq_add (by omega)]
    omega
  have third : (b0.toNat * 2 ^ 8 + b1.toNat) * 2 ^ 16 ||| b2.toNat * 2 ^ 8 =
      (b0.toNat * 2 ^ 16 + b1.toNat * 2 ^ 8 + b2.toNat) * 2 ^ 8 := by
    rw [or_eq_add (by omega)]
    omega
  have value : (bigEndian [b0, b1, b2, b3]).toNat = ofBits (bits [b0, b1, b2, b3]) := by
    have first := toNat_shifted b0 (Nat.le_refl 24)
    have next := toNat_shifted b1 (show 16 ≤ 24 by decide)
    have last := toNat_shifted b2 (show 8 ≤ 24 by decide)
    show (b0.toUInt32 <<< 24 ||| b1.toUInt32 <<< 16 ||| b2.toUInt32 <<< 8 ||| b3.toUInt32).toNat = _
    rw [UInt32.toNat_or, UInt32.toNat_or, UInt32.toNat_or]
    rw [show (b0.toUInt32 <<< 24).toNat = _ from first,
      show (b1.toUInt32 <<< 16).toNat = _ from next, show (b2.toUInt32 <<< 8).toNat = _ from last,
      second, third, UInt8.toNat_toUInt32, or_eq_add h3]
    simp only [ofBits_bits_cons, List.length_cons, List.length_nil]
    have nothing : ofBits (bits []) = 0 := rfl
    rw [nothing]
    omega
  rw [← value, ← UInt32.toNat_toBitVec, BitVec.ofNat_toNat, BitVec.setWidth_eq]

theorem bigEndian_slice {chunk : List UInt8} {t : Nat} (inside : 4 * t + 4 ≤ chunk.length) :
    (bigEndian ((chunk.drop (t * 4)).take 4)).toBitVec = wordAt (bits chunk) t := by
  have length : ((chunk.drop (t * 4)).take 4).length = 4 := by
    rw [List.length_take, List.length_drop]
    omega
  rw [wordAt_bits, Nat.mul_comm 4 t]
  match (chunk.drop (t * 4)).take 4, length with
  | [b0, b1, b2, b3], _ => exact bigEndian_eq b0 b1 b2 b3

theorem extend_eq {M : Nat → Word} {w : List UInt32} (first : w.length = 16)
    (words : ∀ t < 16, (w.getD t 0).toBitVec = M t) (n : Nat) :
    ((List.range' 16 n).foldl extend w).length = 16 + n ∧
      ∀ t < 16 + n, (((List.range' 16 n).foldl extend w).getD t 0).toBitVec = W M t := by
  induction n with
  | zero =>
    refine ⟨first, fun t inside => ?_⟩
    rw [W, if_pos (by omega)]
    exact words t inside
  | succ n ih =>
    obtain ⟨length, old⟩ := ih
    rw [List.range'_concat, List.foldl_append, Nat.one_mul, List.foldl_cons, List.foldl_nil]
    refine ⟨by rw [extend, List.length_append, length, List.length_singleton, Nat.add_assoc], ?_⟩
    intro t inside
    rw [extend, List.getD_eq_getElem?_getD, List.getElem?_append, length]
    split
    · next before => exact List.getD_eq_getElem?_getD ▸ old t before
    · obtain rfl : t = 16 + n := by omega
      have x := old (16 + n - 15) (by omega)
      have y := old (16 + n - 2) (by omega)
      have back := old (16 + n - 16) (by omega)
      have seven := old (16 + n - 7) (by omega)
      rw [W, if_neg (by omega), Nat.sub_self, List.getElem?_cons_zero, Option.getD_some]
      rw [UInt32.toBitVec_add, UInt32.toBitVec_add, UInt32.toBitVec_add, sigma0_eq, sigma1_eq, x, y,
        back, seven]
      ac_rfl

theorem round_eq {w : List UInt32} {M : Nat → Word} {i : Nat} (inside : i < 64)
    (word : (w.getD i 0).toBitVec = W M i) (v : Words) :
    toHash (Sha256.round w v i) = step (W M) (toHash v) i := by
  simp only [toHash, Sha256.round, step, UInt32.toBitVec_add, Sigma0_eq, Sigma1_eq, word,
    k_getD i inside, Ch, Maj]
  rfl

theorem schedule_eq {chunk : List UInt8} (full : chunk.length = 64) (t : Nat) (inside : t < 64) :
    ((schedule chunk).getD t 0).toBitVec = W (wordAt (bits chunk)) t := by
  refine (extend_eq (by rw [List.length_map, List.length_range]) (fun i first => ?_) 48).2 t
    inside
  rw [List.getD_eq_getElem?_getD, List.getElem?_map, List.getElem?_range first, Option.map_some,
    Option.getD_some]
  exact bigEndian_slice (by omega)

theorem compress_eq (h : Words) {chunk : List UInt8} (full : chunk.length = 64) :
    toHash (Sha256.compress h chunk) = SecureHash.compress (toHash h) (bits chunk) := by
  have rounds : ∀ n ≤ 64, toHash ((List.range n).foldl (Sha256.round (schedule chunk)) h) =
      (List.range n).foldl (step (W (wordAt (bits chunk)))) (toHash h) := by
    intro n le
    induction n with
    | zero => rfl
    | succ n ih =>
      rw [List.range_succ, List.foldl_append, List.foldl_append, ← ih (Nat.le_of_succ_le le)]
      exact round_eq le (schedule_eq full n le) _
  rw [SecureHash.compress, ← rounds 64 (Nat.le_refl _)]
  rfl

/-! ### The digest -/

theorem blocks_eq {blocks : List (List UInt8)} (full : ∀ chunk ∈ blocks, chunk.length = 64)
    (h : Words) : toHash (blocks.foldl Sha256.compress h) =
      (blocks.map bits).foldl SecureHash.compress (toHash h) := by
  induction blocks generalizing h with
  | nil => rfl
  | cons chunk blocks ih =>
    obtain ⟨here, later⟩ := List.forall_mem_cons.mp full
    rw [List.foldl_cons, ih later, compress_eq h here]
    rfl

theorem padded_digits {width x : Nat} (pos : 0 < width) (small : x < 2 ^ (4 * width)) :
    List.replicate (width - (Nat.toDigits 16 x).length) '0' ++ Nat.toDigits 16 x =
      (List.range width).map fun i => Nat.digitChar (x / 2 ^ (4 * (width - 1 - i)) % 16) := by
  induction width generalizing x with
  | zero => exact absurd pos (Nat.lt_irrefl 0)
  | succ width ih =>
    have last : (List.range (width + 1)).map
          (fun i => Nat.digitChar (x / 2 ^ (4 * (width + 1 - 1 - i)) % 16)) =
        (List.range width).map
          (fun i => Nat.digitChar (x / 16 / 2 ^ (4 * (width - 1 - i)) % 16)) ++
          [Nat.digitChar (x % 16)] := by
      rw [List.range_succ, List.map_append, List.map_singleton, Nat.add_sub_cancel, Nat.sub_self,
        Nat.mul_zero, Nat.pow_zero, Nat.div_one]
      congr 1
      refine List.map_congr_left fun i member => ?_
      have inside := List.mem_range.mp member
      have next : 4 * (width - i) = 4 + 4 * (width - 1 - i) := by omega
      rw [next, Nat.pow_add, ← Nat.div_div_eq_div_mul]
    have high : x / 16 < 2 ^ (4 * width) := by
      rw [Nat.mul_succ, Nat.pow_add] at small
      exact Nat.div_lt_of_lt_mul (by rwa [Nat.mul_comm])
    rw [last]
    by_cases digit : x < 16
    · rw [Nat.toDigits_of_lt_base digit, Nat.mod_eq_of_lt digit, Nat.div_eq_of_lt digit,
        List.length_singleton, Nat.add_sub_cancel]
      congr 1
      refine (List.eq_replicate_iff.mpr ⟨by simp, ?_⟩).symm
      simp
    · have wide : 0 < width := by
        refine Nat.pos_of_ne_zero fun zero => ?_
        rw [zero] at small
        omega
      rw [Nat.toDigits_of_base_le (by decide) (Nat.not_lt.mp digit), List.length_append,
        List.length_singleton, Nat.add_sub_add_right, ← List.append_assoc, ih wide high]

theorem hex_eq (x : UInt32) : hex x =
    (Blocks.blocks 4 (toBits 32 x.toNat)).map fun digit => Nat.digitChar (ofBits digit) := by
  rw [hex, digits_toBits 8]
  exact padded_digits (by decide) (UInt32.toNat_lt x)

theorem words_eq (v : Words) : (toHash v).words = v.toList.map UInt32.toBitVec := rfl

theorem computeSha256_eq {data : List UInt8} (short : data.length < 2 ^ 61) :
    computeSha256 data = hexadecimal (sha256 (bits data)) := by
  have whole := Blocks.length_of_mem_blocks (show 0 < 64 by decide) (length_pad data)
  have value : toHash ((Blocks.blocks 64 (Sha256.pad data)).foldl Sha256.compress
        Sha256.initial) =
      (Blocks.blocks 512 (SecureHash.pad (bits data))).foldl SecureHash.compress
        SecureHash.initial := by
    have cut := blocks_bits (show 0 < 64 by decide) (Sha256.pad data)
    rw [blocks_eq whole, initial_eq, ← bits_pad short, ← cut]
  rw [computeSha256, hexadecimal, sha256, ← value, words_eq, List.flatMap_map,
    Blocks.blocks_flatMap (by decide) fun _ _ => by rw [length_toBits]; decide, List.map_flatMap]
  exact congrArg String.ofList (List.flatMap_congr fun x _ => hex_eq x)

/-- The code's digest is the standard's, in sixty-four digits. -/
theorem calculateSha256_standard (data : List UInt8) (short : data.length < 2 ^ 61) :
    calculateSha256 data = hexadecimal (sha256 (bits data)) ∧
      (calculateSha256 data).length = 64 := by
  have digits : ∀ x : UInt32, (hex x).length = 8 := by
    intro x
    rw [hex_eq, digits_toBits 8, List.length_map, List.length_range]
  refine ⟨computeSha256_eq short, ?_⟩
  rw [calculateSha256, computeSha256, String.length_ofList,
    Blocks.length_flatMap fun x _ => digits x]
  rfl

def twoBlocks : List UInt8 :=
  "abcdbcdecdefdefgefghfghighijhijkijkljklmklmnlmnomnopnopq".toUTF8.toList

theorem calculateSha256_standard_two_blocks :
    hexadecimal (sha256 (bits twoBlocks)) =
        "248d6a61d20638b8e5c026930c3e6039a33ce45964ff2167f6ecedd419db06c1" ∧
      (calculateSha256 twoBlocks).length = 64 := by
  obtain ⟨standard, length⟩ := calculateSha256_standard twoBlocks (by decide +kernel)
  have run : calculateSha256 twoBlocks =
      "248d6a61d20638b8e5c026930c3e6039a33ce45964ff2167f6ecedd419db06c1" := by decide +kernel
  exact ⟨standard.symm.trans run, length⟩

end RemoteAccess.Sha256Standard
