import Mathlib.Data.Nat.ModEq
import Mathlib.Tactic.Common
import Mathlib.Tactic.Ring

/-! Flipping one bit of a number adds or subtracts a power of two, so a modulus with an odd
factor sees it. Two numbers that stay congruent under such flips have the same bits. -/

namespace RemoteAccess.BitFlips

theorem xor_two_pow_of_clear {x i : Nat} (clear : x.testBit i = false) :
    x ^^^ 2 ^ i = x + 2 ^ i := by
  induction i generalizing x with
  | zero =>
    have half : (x ^^^ 1) / 2 = x / 2 := by rw [Nat.xor_div_two]; simp
    have low : (x ^^^ 1) % 2 ^ 1 = x % 2 ^ 1 ^^^ 1 % 2 ^ 1 := Nat.xor_mod_two_pow
    have even : x % 2 = 0 := by simpa [Nat.testBit_zero] using clear
    rw [pow_one, even, Nat.zero_xor] at low
    rw [pow_zero]
    omega
  | succ i ih =>
    have double : 2 ^ (i + 1) = 2 ^ i * 2 := pow_succ 2 i
    have half : (x ^^^ 2 ^ (i + 1)) / 2 = x / 2 ^^^ 2 ^ i := by
      rw [Nat.xor_div_two, double, Nat.mul_div_cancel _ (by norm_num)]
    have low : (x ^^^ 2 ^ (i + 1)) % 2 ^ 1 = x % 2 ^ 1 := by
      rw [Nat.xor_mod_two_pow, pow_one, double, Nat.mul_mod_left, Nat.xor_zero]
    rw [ih (by rwa [← Nat.testBit_succ])] at half
    rw [pow_one] at low
    generalize x ^^^ 2 ^ (i + 1) = flipped at half low ⊢
    omega

theorem xor_two_pow_of_set {x i : Nat} (set : x.testBit i = true) :
    (x ^^^ 2 ^ i) + 2 ^ i = x := by
  have clear : (x ^^^ 2 ^ i).testBit i = false := by simp [set]
  rw [← xor_two_pow_of_clear clear, Nat.xor_assoc, Nat.xor_self, Nat.xor_zero]

variable {x y d : Nat}

theorem testBit_eq_of_flip {i : Nat} (coprime : Nat.Coprime d 2) (proper : 1 < d)
    (same : x ≡ y [MOD d]) (flipped : x ^^^ 2 ^ i ≡ y ^^^ 2 ^ i [MOD d]) :
    x.testBit i = y.testBit i := by
  have apart : ∀ {x y : Nat}, x ≡ y [MOD d] → x ^^^ 2 ^ i ≡ y ^^^ 2 ^ i [MOD d] →
      x.testBit i = true → y.testBit i = true := by
    intro x y same flipped set
    by_contra clear
    rw [Bool.not_eq_true] at clear
    have down := xor_two_pow_of_set set
    rw [xor_two_pow_of_clear clear] at flipped
    have twice : x + 2 ^ (i + 1) ≡ x + 0 [MOD d] := by
      calc x + 2 ^ (i + 1)
          ≡ y + 2 ^ (i + 1) [MOD d] := same.add_right _
        _ = (y + 2 ^ i) + 2 ^ i := by ring
        _ ≡ (x ^^^ 2 ^ i) + 2 ^ i [MOD d] := flipped.symm.add_right _
        _ = x + 0 := down
    have divides : d ∣ 2 ^ (i + 1) :=
      (Nat.modEq_zero_iff_dvd).mp (Nat.ModEq.add_left_cancel' x twice)
    have one : d = 1 := (coprime.pow_right (i + 1)).eq_one_of_dvd divides
    omega
  cases bit : y.testBit i with
  | true => exact apart same.symm flipped.symm bit
  | false =>
    by_contra set
    rw [Bool.not_eq_false] at set
    rw [apart same flipped set] at bit
    cases bit

/-- Numbers below `2 ^ w * d` that agree modulo `2 ^ low`, and modulo `d` under every flip
from bit `low` to bit `w`, are equal. -/
theorem eq_of_flips {low w : Nat} (coprime : Nat.Coprime d 2) (proper : 1 < d)
    (x_lt : x < 2 ^ w * d) (y_lt : y < 2 ^ w * d) (lowest : x ≡ y [MOD 2 ^ low])
    (same : x ≡ y [MOD d])
    (flips : ∀ i, low ≤ i → i < w → x ^^^ 2 ^ i ≡ y ^^^ 2 ^ i [MOD d]) : x = y := by
  have bits : x ≡ y [MOD 2 ^ w] := by
    refine Nat.eq_of_testBit_eq fun i => ?_
    rw [Nat.testBit_mod_two_pow, Nat.testBit_mod_two_pow]
    by_cases inside : i < w
    · by_cases below : i < low
      · have agree := congrArg (Nat.testBit · i) lowest
        simp only [Nat.testBit_mod_two_pow, below, decide_true, Bool.true_and] at agree
        rw [agree]
      · rw [testBit_eq_of_flip coprime proper same (flips i (Nat.not_lt.mp below) inside)]
    · simp [inside]
  have both : x ≡ y [MOD 2 ^ w * d] :=
    (Nat.modEq_and_modEq_iff_modEq_mul (coprime.symm.pow_left w)).mp ⟨bits, same⟩
  exact both.eq_of_lt_of_lt x_lt y_lt

end RemoteAccess.BitFlips
