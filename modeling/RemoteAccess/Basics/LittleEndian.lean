import Mathlib.Data.Nat.Digits.Defs
import Mathlib.Tactic.Ring

/-! Fixed-width little-endian words as byte lists. `toBytes w n` is what a
`memcpy` of a `w`-byte integer leaves in memory on a little-endian host, and
`toNat` reads any number of such bytes back. Both directions are exact. -/

namespace RemoteAccess.LittleEndian

def toBytes : (width : Nat) → (n : Nat) → List UInt8
  | 0, _ => []
  | width + 1, n => UInt8.ofNat n :: toBytes width (n / 256)

def toNat (bytes : List UInt8) : Nat := Nat.ofDigits 256 (bytes.map UInt8.toNat)

@[simp] theorem length_toBytes (width n : Nat) : (toBytes width n).length = width := by
  induction width generalizing n with
  | zero => rfl
  | succ width ih => rw [toBytes, List.length_cons, ih]

@[simp] theorem toNat_nil : toNat [] = 0 := rfl

@[simp] theorem toNat_cons (b : UInt8) (bytes : List UInt8) :
    toNat (b :: bytes) = b.toNat + 256 * toNat bytes := by
  simp only [toNat, List.map_cons, Nat.ofDigits_cons]

theorem toNat_append (xs ys : List UInt8) :
    toNat (xs ++ ys) = toNat xs + 256 ^ xs.length * toNat ys := by
  simp only [toNat, List.map_append, Nat.ofDigits_append, List.length_map]

theorem toNat_lt (bytes : List UInt8) : toNat bytes < 256 ^ bytes.length := by
  have digits : ∀ d ∈ bytes.map UInt8.toNat, d < 256 := by
    intro d hd
    obtain ⟨b, -, rfl⟩ := List.mem_map.mp hd
    exact UInt8.toNat_lt b
  have bound := Nat.ofDigits_lt_base_pow_length (by norm_num) digits
  rwa [List.length_map] at bound

theorem toNat_toBytes (width n : Nat) : toNat (toBytes width n) = n % 256 ^ width := by
  induction width generalizing n with
  | zero => simp [toBytes, Nat.mod_one]
  | succ width ih =>
    rw [toBytes, toNat_cons, ih, pow_succ, mul_comm (256 ^ width), Nat.mod_mul]
    rfl

theorem toBytes_toNat (bytes : List UInt8) : toBytes bytes.length (toNat bytes) = bytes := by
  induction bytes with
  | nil => rfl
  | cons b bytes ih =>
    have hb := UInt8.toNat_lt b
    have tail : (b.toNat + 256 * toNat bytes) / 256 = toNat bytes := by omega
    have head : UInt8.ofNat (b.toNat + 256 * toNat bytes) = b := by
      apply UInt8.toNat_inj.mp
      rw [UInt8.toNat_ofNat']
      omega
    rw [List.length_cons, toBytes, toNat_cons, tail, head, ih]

theorem toBytes_injective {width m n : Nat} (hm : m < 256 ^ width) (hn : n < 256 ^ width)
    (bytes : toBytes width m = toBytes width n) : m = n := by
  have value := congrArg toNat bytes
  rwa [toNat_toBytes, toNat_toBytes, Nat.mod_eq_of_lt hm, Nat.mod_eq_of_lt hn] at value

/-- The `width`-byte word stored at `offset`; short if the bytes run out. -/
def word (offset width : Nat) (bytes : List UInt8) : Nat :=
  toNat ((bytes.drop offset).take width)

theorem word_lt (offset width : Nat) (bytes : List UInt8) :
    word offset width bytes < 256 ^ width := by
  calc word offset width bytes
      < 256 ^ ((bytes.drop offset).take width).length := toNat_lt _
    _ ≤ 256 ^ width := Nat.pow_le_pow_right (by norm_num) (List.length_take_le _ _)

theorem word_append_left {offset width : Nat} {xs : List UInt8} (ys : List UInt8)
    (inside : offset + width ≤ xs.length) :
    word offset width (xs ++ ys) = word offset width xs := by
  rw [word, List.drop_append_of_le_length (by omega),
    List.take_append_of_le_length (by rw [List.length_drop]; omega), word]

theorem word_append_right {offset width : Nat} {xs : List UInt8} (ys : List UInt8)
    (past : xs.length ≤ offset) :
    word offset width (xs ++ ys) = word (offset - xs.length) width ys := by
  rw [word, List.drop_append, List.drop_eq_nil_of_le past, List.nil_append, word]

theorem word_toBytes (width n : Nat) (ys : List UInt8) :
    word 0 width (toBytes width n ++ ys) = n % 256 ^ width := by
  rw [word, List.drop_zero, List.take_append_of_le_length (by simp),
    List.take_of_length_le (by simp), toNat_toBytes]

theorem word_toBytes_self (width n : Nat) : word 0 width (toBytes width n) = n % 256 ^ width := by
  have alone := word_toBytes width n []
  rwa [List.append_nil] at alone

theorem toBytes_word {offset width : Nat} {bytes : List UInt8}
    (inside : offset + width ≤ bytes.length) :
    toBytes width (word offset width bytes) = (bytes.drop offset).take width := by
  have len : ((bytes.drop offset).take width).length = width := by
    rw [List.length_take, List.length_drop]
    omega
  calc toBytes width (word offset width bytes)
      = toBytes ((bytes.drop offset).take width).length (word offset width bytes) := by rw [len]
    _ = (bytes.drop offset).take width := toBytes_toNat _

end RemoteAccess.LittleEndian
