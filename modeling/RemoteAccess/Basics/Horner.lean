import Mathlib.Algebra.QuadraticAlgebra.Defs
import Mathlib.Data.BitVec
import Mathlib.Tactic.LinearCombination

/-! Keyed accumulation `h ↦ (h + m) * r` over a commutative ring, and the ring
`R[x]/(x² - 1)` in which a two-limb accumulator with crossed multipliers lives.
A change of one summand is multiplied by one power of the key, so whether it
survives is a question about that power. -/

namespace RemoteAccess.Horner

section Accumulation

variable {R : Type*} [CommRing R]

def horner (r h : R) (ms : List R) : R := ms.foldl (fun h m => (h + m) * r) h

theorem horner_add (r h δ : R) (ms : List R) :
    horner r (h + δ) ms = horner r h ms + δ * r ^ ms.length := by
  induction ms generalizing h δ with
  | nil => rw [horner, horner, List.foldl_nil, List.foldl_nil, List.length_nil, pow_zero, mul_one]
  | cons m ms ih =>
    have shifted : (h + δ + m) * r = (h + m) * r + δ * r := by ring
    have step := ih ((h + m) * r) (δ * r)
    simp only [horner, List.foldl_cons, shifted] at step ⊢
    rw [step, List.length_cons, pow_succ]
    ring

/-- Changing one summand by `δ` adds `δ` times a power of the key that counts
the summands from there on. -/
theorem horner_replace (r h m δ : R) (before after : List R) :
    horner r h (before ++ (m + δ) :: after) =
      horner r h (before ++ m :: after) + δ * r ^ (after.length + 1) := by
  have step := horner_add r ((horner r h before + m) * r) (δ * r) after
  have shifted : (horner r h before + (m + δ)) * r = (horner r h before + m) * r + δ * r := by
    ring
  simp only [horner, List.foldl_append, List.foldl_cons] at step shifted ⊢
  rw [shifted, step, pow_succ]
  ring

theorem horner_append (r h : R) (ms ms' : List R) :
    horner r h (ms ++ ms') = horner r (horner r h ms) ms' := List.foldl_append

theorem horner_replicate_zero (r h : R) (n : ℕ) :
    horner r h (List.replicate n 0) = h * r ^ n := by
  induction n generalizing h with
  | zero => rw [List.replicate_zero, pow_zero, mul_one, horner, List.foldl_nil]
  | succ n ih =>
    have step := ih ((h + 0) * r)
    rw [horner] at step
    rw [List.replicate_succ, horner, List.foldl_cons, step, add_zero, mul_assoc, pow_succ']

/-- The summands, each times one power of the key for itself and one for every
summand after it. -/
def value (r : R) : List R → R
  | [] => 0
  | m :: ms => m * r ^ (ms.length + 1) + value r ms

theorem horner_eq_value (r h : R) (ms : List R) :
    horner r h ms = h * r ^ ms.length + value r ms := by
  induction ms generalizing h with
  | nil => rw [horner, List.foldl_nil, value, List.length_nil, pow_zero, mul_one, add_zero]
  | cons m ms ih =>
    have step := ih ((h + m) * r)
    rw [horner] at step
    rw [horner, List.foldl_cons, step, value, List.length_cons, pow_succ]
    ring

theorem dvd_value {c r : R} (factor : c ∣ r) (ms : List R) : c ∣ value r ms := by
  induction ms with
  | nil => exact dvd_zero c
  | cons m ms ih =>
    have power : c ∣ r ^ (ms.length + 1) := dvd_pow factor ms.length.succ_ne_zero
    exact dvd_add (power.mul_left m) ih

theorem horner_map_add {α : Type*} (r h h' : R) (f g : α → R) (xs : List α) :
    horner r (h + h') (xs.map fun x => f x + g x) =
      horner r h (xs.map f) + horner r h' (xs.map g) := by
  induction xs generalizing h h' with
  | nil => rfl
  | cons x xs ih =>
    have step := ih ((h + f x) * r) ((h' + g x) * r)
    have sum : (h + h' + (f x + g x)) * r = (h + f x) * r + (h' + g x) * r := by ring
    simp only [horner, List.map_cons, List.foldl_cons] at step ⊢
    rw [sum, step]

end Accumulation

/-! ### Crossed pairs -/

/-- Pairs with `(a, b) * (c, d) = (a*c + b*d, a*d + b*c)`. -/
abbrev Crossed (R : Type*) [CommRing R] := QuadraticAlgebra R 1 0

section Crossed

variable {R : Type*} [CommRing R]

theorem mk_add (a b c d : R) : (⟨a, b⟩ + ⟨c, d⟩ : Crossed R) = ⟨a + c, b + d⟩ := by
  ext <;> simp

theorem mk_mul (a b c d : R) :
    (⟨a, b⟩ * ⟨c, d⟩ : Crossed R) = ⟨a * c + b * d, a * d + b * c⟩ := by
  rw [QuadraticAlgebra.mk_mul_mk]
  simp

theorem mk_zero_pow (a : R) (n : ℕ) : (⟨a, 0⟩ : Crossed R) ^ n = ⟨a ^ n, 0⟩ := by
  induction n with
  | zero => rw [pow_zero, pow_zero]; rfl
  | succ n ih =>
    rw [pow_succ, ih, mk_mul, pow_succ, mul_zero, mul_zero, zero_mul, add_zero, add_zero]

theorem pow_values (a b : R) (n : ℕ) :
    ((⟨a, b⟩ : Crossed R) ^ n).re + ((⟨a, b⟩ : Crossed R) ^ n).im = (a + b) ^ n ∧
      ((⟨a, b⟩ : Crossed R) ^ n).re - ((⟨a, b⟩ : Crossed R) ^ n).im = (a - b) ^ n := by
  induction n with
  | zero => simp [QuadraticAlgebra.re_one, QuadraticAlgebra.im_one]
  | succ n ih =>
    obtain ⟨sum, difference⟩ := ih
    rw [pow_succ, pow_succ, pow_succ, QuadraticAlgebra.re_mul, QuadraticAlgebra.im_mul]
    constructor
    · linear_combination (a + b) * sum
    · linear_combination (a - b) * difference

theorem intCast_pow (a b : ℤ) (n : ℕ) :
    (⟨(a : R), (b : R)⟩ : Crossed R) ^ n =
      ⟨(((⟨a, b⟩ : Crossed ℤ) ^ n).re : ℤ), (((⟨a, b⟩ : Crossed ℤ) ^ n).im : ℤ)⟩ := by
  induction n with
  | zero => ext <;> simp [QuadraticAlgebra.re_one, QuadraticAlgebra.im_one]
  | succ n ih =>
    rw [pow_succ, ih, pow_succ, mk_mul]
    ext
    · simp only [QuadraticAlgebra.re_mul]
      push_cast
      ring
    · simp only [QuadraticAlgebra.im_mul]
      push_cast
      ring

theorem value_values (a b : R) (ms : List (Crossed R)) :
    (value ⟨a, b⟩ ms).re + (value ⟨a, b⟩ ms).im = value (a + b) (ms.map fun m => m.re + m.im) ∧
      (value ⟨a, b⟩ ms).re - (value ⟨a, b⟩ ms).im =
        value (a - b) (ms.map fun m => m.re - m.im) := by
  induction ms with
  | nil => simp [value]
  | cons m ms ih =>
    obtain ⟨sum, difference⟩ := ih
    obtain ⟨sumPow, differencePow⟩ := pow_values a b (ms.length + 1)
    rw [value, List.map_cons, List.map_cons, value, value, List.length_map, List.length_map,
      QuadraticAlgebra.re_add, QuadraticAlgebra.im_add, QuadraticAlgebra.re_mul,
      QuadraticAlgebra.im_mul]
    constructor
    · linear_combination sum + (m.re + m.im) * sumPow
    · linear_combination difference + (m.re - m.im) * differencePow

theorem intCast_value (a b : ℤ) (ms : List (Crossed ℤ)) :
    value (⟨(a : R), (b : R)⟩ : Crossed R) (ms.map fun m => ⟨(m.re : R), (m.im : R)⟩) =
      ⟨((value ⟨a, b⟩ ms).re : ℤ), ((value ⟨a, b⟩ ms).im : ℤ)⟩ := by
  induction ms with
  | nil => ext <;> simp [value]
  | cons m ms ih =>
    rw [List.map_cons, value, ih, List.length_map, intCast_pow, mk_mul, mk_add, value]
    ext
    · simp only [QuadraticAlgebra.re_add, QuadraticAlgebra.re_mul]
      push_cast
      ring
    · simp only [QuadraticAlgebra.im_add, QuadraticAlgebra.im_mul]
      push_cast
      ring

end Crossed

/-! ### Words modulo a power of two -/

theorem intCast_eq_zero_iff {w : ℕ} (z : ℤ) : (z : BitVec w) = 0 ↔ (2 ^ w : ℤ) ∣ z := by
  have cast : (z : BitVec w) = BitVec.ofInt w z := rfl
  have zero : (0 : BitVec w).toNat = 0 := by simp
  have pos : (0 : ℤ) < 2 ^ w := by positivity
  have nonneg := Int.emod_nonneg z pos.ne'
  rw [cast, ← BitVec.toNat_inj, BitVec.toNat_ofInt, zero, Int.dvd_iff_emod_eq_zero]
  push_cast
  omega

theorem shifted_eq_zero_iff {w b : ℕ} (le : b ≤ w) (z : ℤ) :
    ((2 ^ b * z : ℤ) : BitVec w) = 0 ↔ (2 ^ (w - b) : ℤ) ∣ z := by
  rw [intCast_eq_zero_iff]
  have split : (2 ^ w : ℤ) = 2 ^ b * 2 ^ (w - b) := by
    rw [← pow_add, Nat.add_sub_cancel' le]
  rw [split]
  exact mul_dvd_mul_iff_left (pow_ne_zero _ (by norm_num))

/-- Both limbs of the key power vanish modulo `2^k` exactly when `2^(k+1)`
divides the sum and the difference of its two values. -/
theorem dvd_pow_iff (a b : ℤ) (n k : ℕ) :
    ((2 ^ k : ℤ) ∣ ((⟨a, b⟩ : Crossed ℤ) ^ n).re ∧ (2 ^ k : ℤ) ∣ ((⟨a, b⟩ : Crossed ℤ) ^ n).im) ↔
      (2 ^ (k + 1) : ℤ) ∣ (a + b) ^ n + (a - b) ^ n ∧
        (2 ^ (k + 1) : ℤ) ∣ (a + b) ^ n - (a - b) ^ n := by
  obtain ⟨sum, difference⟩ := pow_values a b n
  have re : (a + b) ^ n + (a - b) ^ n = 2 * ((⟨a, b⟩ : Crossed ℤ) ^ n).re := by
    rw [← sum, ← difference]
    ring
  have im : (a + b) ^ n - (a - b) ^ n = 2 * ((⟨a, b⟩ : Crossed ℤ) ^ n).im := by
    rw [← sum, ← difference]
    ring
  rw [re, im, pow_succ, mul_comm (2 ^ k : ℤ) 2, mul_dvd_mul_iff_left (by norm_num),
    mul_dvd_mul_iff_left (by norm_num)]

end RemoteAccess.Horner
