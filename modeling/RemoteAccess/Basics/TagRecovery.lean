import RemoteAccess.Basics.Horner

/-! Tags `horner r 0 ms + s` under one `r` and one `s`. Two tags of one summand each give
both away when the summands differ by a unit, and with them the tag of everything else.
Crossed words have a unit where the two limbs add up to an odd number; its inverse is a
geometric sum. -/

namespace RemoteAccess.TagRecovery

open Horner

section Tags

variable {R : Type*} [CommRing R]

structure TagKey (R : Type*) where
  multiplier : R
  pad : R

def TagKey.tag (key : TagKey R) (ms : List R) : R := horner key.multiplier 0 ms + key.pad

/-- What the tag `t` of `m` and another tag say of the key; `u` inverts the difference
of what they are tags of. -/
def recover (m t t' u : R) : TagKey R :=
  let multiplier := (t - t') * u
  ⟨multiplier, t - m * multiplier⟩

theorem TagKey.tag_singleton (key : TagKey R) (m : R) :
    key.tag [m] = m * key.multiplier + key.pad := by
  rw [tag, horner, List.foldl_cons, List.foldl_nil, zero_add]

theorem recover_tag (key : TagKey R) {m m' u : R} (unit : (m - m') * u = 1) :
    recover m (key.tag [m]) (key.tag [m']) u = key := by
  have multiplier : (key.tag [m] - key.tag [m']) * u = key.multiplier := by
    rw [key.tag_singleton, key.tag_singleton]
    linear_combination key.multiplier * unit
  have pad : key.tag [m] - m * key.multiplier = key.pad := by
    rw [key.tag_singleton]
    ring
  simp only [recover, multiplier, pad]

/-! ### Inverses -/

/-- `1 + e + … + e^(n - 1)`. -/
def geometric (e : R) : ℕ → R
  | 0 => 0
  | n + 1 => 1 + e * geometric e n

theorem one_sub_mul_geometric (e : R) (n : ℕ) : (1 - e) * geometric e n = 1 - e ^ n := by
  induction n with
  | zero => rw [geometric, mul_zero, pow_zero, sub_self]
  | succ n ih =>
    rw [geometric, pow_succ]
    linear_combination e * ih

/-- The norm of `x` is inverted by `n` terms of a geometric sum. -/
def crossedInverse (n : ℕ) (x : Crossed R) : Crossed R :=
  ⟨x.re, -x.im⟩ * ⟨geometric (1 - (x.re * x.re - x.im * x.im)) n, 0⟩

theorem mul_crossedInverse {x : Crossed R} {n : ℕ}
    (vanishes : (1 - (x.re * x.re - x.im * x.im)) ^ n = 0) : x * crossedInverse n x = 1 := by
  have sum := one_sub_mul_geometric (1 - (x.re * x.re - x.im * x.im)) n
  rw [vanishes] at sum
  have norm : x * ⟨x.re, -x.im⟩ = ⟨x.re * x.re - x.im * x.im, 0⟩ := by
    rw [show x = ⟨x.re, x.im⟩ from rfl, mk_mul]
    ext
    · ring
    · ring
  rw [crossedInverse, ← mul_assoc, norm, mk_mul]
  ext
  · rw [QuadraticAlgebra.re_one]
    linear_combination sum
  · rw [QuadraticAlgebra.im_one]
    ring

end Tags

/-! ### Crossed words -/

variable {w : ℕ}

def parity (m : Crossed (BitVec w)) : ℕ := (m.re.toNat + m.im.toNat) % 2

theorem even_pow_eq_zero {z : ℤ} (even : 2 ∣ z) : ((z : BitVec w)) ^ w = 0 := by
  have cast : ((z : BitVec w)) ^ w = ((z ^ w : ℤ) : BitVec w) := by push_cast; rfl
  rw [cast, intCast_eq_zero_iff]
  exact pow_dvd_pow_of_dvd even w

theorem intCast_toNat (x : BitVec w) : ((x.toNat : ℤ) : BitVec w) = x := by
  simp

/-- Where the parities differ, so do the summands by a unit. -/
theorem sub_mul_crossedInverse {m m' : Crossed (BitVec w)} (differ : parity m ≠ parity m') :
    (m - m') * crossedInverse w (m - m') = 1 := by
  apply mul_crossedInverse
  set a : ℤ := m.re.toNat - m'.re.toNat with low
  set b : ℤ := m.im.toNat - m'.im.toNat with high
  have re : (m - m').re = (a : BitVec w) := by
    rw [QuadraticAlgebra.re_sub, low, Int.cast_sub, intCast_toNat, intCast_toNat]
  have im : (m - m').im = (b : BitVec w) := by
    rw [QuadraticAlgebra.im_sub, high, Int.cast_sub, intCast_toNat, intCast_toNat]
  have odd : (a + b) % 2 = 1 := by
    unfold parity at differ
    omega
  have even : (2 : ℤ) ∣ 1 - (a * a - b * b) := by
    have split : a * a - b * b = (a + b) * (a - b) := by ring
    have difference : (a - b) % 2 = 1 := by omega
    have product := Int.mul_emod (a + b) (a - b) 2
    rw [odd, difference] at product
    rw [split]
    omega
  have cast : 1 - ((a : BitVec w) * a - b * b) = ((1 - (a * a - b * b) : ℤ) : BitVec w) := by
    push_cast
    rfl
  rw [re, im, cast, even_pow_eq_zero even]

end RemoteAccess.TagRecovery
