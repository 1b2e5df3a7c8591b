import RemoteAccess.Basics.BitFlips

/-! The one-time codes of the identity service. `compute_code` mixes the number of the time
step with the length of the secret only. The clock is an argument of `verifyToken`. -/

namespace RemoteAccess.Totp

open BitFlips

/-- `format!("{:06}", n)`. -/
def sixDigits (n : Nat) : String := String.ofList (List.leftpad 6 '0' (Nat.toDigits 10 n))

/-- `secret.len() as u64`. -/
def secretLen (secret : String) : UInt64 := UInt64.ofNat secret.utf8ByteSize

def computeCode (secret : String) (timeStep : UInt64) : String :=
  let hash := secretLen secret ^^^ timeStep
  sixDigits (hash % 1000000).toNat

/-- `wrapping_sub` and `wrapping_add` on both sides. -/
def timeSteps (now : UInt64) : List UInt64 :=
  let timeStep := now / 30
  [timeStep - 1, timeStep, timeStep + 1]

/-- `now` is in seconds since the epoch. -/
def verifyToken (secret token : String) (now : UInt64) : Bool :=
  if token.utf8ByteSize ≠ 6 ∨ ¬ token.toList.all Char.isDigit then false
  else (timeSteps now).any fun step => computeCode secret step == token

/-! ### Codes -/

theorem sixDigits_injective {m n : Nat} (same : sixDigits m = sixDigits n) : m = n := by
  have value : ∀ n, Nat.ofDigitChars 10 (List.leftpad 6 '0' (Nat.toDigits 10 n)) 0 = n := by
    intro n
    simp [List.leftpad, Nat.ofDigitChars_append]
  rw [← value m, ← value n, String.ofList_injective same]

theorem utf8ByteSize_digits {digits : List Char} (all : ∀ c ∈ digits, c.isDigit = true) :
    (String.ofList digits).utf8ByteSize = digits.length := by
  induction digits with
  | nil => rfl
  | cons c digits ih =>
    obtain ⟨first, later⟩ := List.forall_mem_cons.mp all
    have ascii : c.utf8Size = 1 := by
      rw [Char.utf8Size_eq_one_iff]
      simp only [Char.isDigit, Bool.and_eq_true, decide_eq_true_eq] at first
      exact UInt32.le_trans first.2 (by decide)
    rw [String.ofList_cons, String.utf8ByteSize_append, String.utf8ByteSize_singleton, ascii,
      ih later, List.length_cons, Nat.add_comm]

theorem sixDigits_wellFormed {n : Nat} (small : n < 1000000) :
    (sixDigits n).utf8ByteSize = 6 ∧ (sixDigits n).toList.all Char.isDigit = true := by
  have length : (Nat.toDigits 10 n).length ≤ 6 :=
    (Nat.length_toDigits_le_iff (by decide) (by decide)).mpr small
  have digits : ∀ c ∈ List.leftpad 6 '0' (Nat.toDigits 10 n), c.isDigit = true := by
    intro c member
    rw [List.leftpad, List.mem_append] at member
    obtain padding | digit := member
    · rw [(List.mem_replicate.mp padding).2]
      rfl
    · exact Nat.isDigit_of_mem_toDigits (by decide) (by decide) digit
  constructor
  · rw [sixDigits, utf8ByteSize_digits digits, List.leftpad, List.length_append,
      List.length_replicate]
    omega
  · rwa [sixDigits, String.toList_ofList, List.all_eq_true]

def codeNumber (secret : String) (timeStep : UInt64) : Nat :=
  (secretLen secret ^^^ timeStep).toNat % 1000000

theorem computeCode_eq (secret : String) (timeStep : UInt64) :
    computeCode secret timeStep = sixDigits (codeNumber secret timeStep) := by
  rw [computeCode, codeNumber, UInt64.toNat_mod]
  rfl

theorem verifyToken_iff (secret token : String) (now : UInt64) :
    verifyToken secret token now = true ↔
      ∃ step ∈ timeSteps now, computeCode secret step = token := by
  have anyStep : ((timeSteps now).any fun step => computeCode secret step == token) = true ↔
      ∃ step ∈ timeSteps now, computeCode secret step = token := by
    simp
  rw [verifyToken, ← anyStep]
  split_ifs with malformed
  · refine iff_of_false id fun found => ?_
    obtain ⟨step, -, rfl⟩ := anyStep.mp found
    have small : codeNumber secret step < 1000000 := Nat.mod_lt _ (by decide)
    rw [computeCode_eq] at malformed
    obtain ⟨size, digits⟩ := sixDigits_wellFormed small
    exact malformed.elim (absurd size) (absurd digits)
  · exact Iff.rfl

/-! ### What a code tells of the secret -/

/-- At some time some token is accepted for one secret only. -/
def ToldApart (secret other : String) : Prop :=
  ∃ now token, verifyToken secret token now ≠ verifyToken other token now

variable {secret other : String}

theorem not_toldApart_of_secretLen (same : secretLen secret = secretLen other) :
    ¬ ToldApart secret other := by
  rintro ⟨now, token, differ⟩
  have codes : computeCode secret = computeCode other := by
    funext step
    rw [computeCode, computeCode, same]
  exact differ (by rw [verifyToken, verifyToken, codes])

def window (a t : Nat) : List Nat :=
  [(a ^^^ (t - 1)) % 1000000, (a ^^^ t) % 1000000, (a ^^^ (t + 1)) % 1000000]

def moment (t : Nat) : UInt64 := UInt64.ofNat (30 * t)

theorem toNat_ofNat_of_lt {n : Nat} (fits : n < 2 ^ 64) : (UInt64.ofNat n).toNat = n :=
  UInt64.toNat_ofNat_of_lt' fits

theorem timeSteps_moment {t : Nat} (pos : 0 < t) (small : t < 2 ^ 59) :
    timeSteps (moment t) = [UInt64.ofNat (t - 1), UInt64.ofNat t, UInt64.ofNat (t + 1)] := by
  have step : moment t / 30 = UInt64.ofNat t := by
    rw [← UInt64.toNat_inj, UInt64.toNat_div, moment, toNat_ofNat_of_lt (by omega),
      toNat_ofNat_of_lt (by omega)]
    exact Nat.mul_div_cancel_left t (by decide)
  have before : UInt64.ofNat t - 1 = UInt64.ofNat (t - 1) := (UInt64.ofNat_sub pos).symm
  have after : UInt64.ofNat t + 1 = UInt64.ofNat (t + 1) := (UInt64.ofNat_add t 1).symm
  rw [timeSteps, step, before, after]

theorem codeNumber_ofNat (secret : String) {step : Nat} (fits : step < 2 ^ 64) :
    codeNumber secret (UInt64.ofNat step) = ((secretLen secret).toNat ^^^ step) % 1000000 := by
  rw [codeNumber, UInt64.toNat_xor, toNat_ofNat_of_lt fits]

theorem accepted_iff {t n : Nat} (pos : 0 < t) (small : t < 2 ^ 59) :
    verifyToken secret (sixDigits n) (moment t) = true ↔
      n ∈ window (secretLen secret).toNat t := by
  have code : ∀ step < 2 ^ 64, computeCode secret (UInt64.ofNat step) = sixDigits n ↔
      n = ((secretLen secret).toNat ^^^ step) % 1000000 := by
    intro step fits
    rw [computeCode_eq, codeNumber_ofNat secret fits]
    exact ⟨fun same => (sixDigits_injective same).symm, fun same => same ▸ rfl⟩
  rw [verifyToken_iff, timeSteps_moment pos small]
  simp only [List.mem_cons, List.not_mem_nil, or_false, exists_eq_or_imp, exists_eq_left, window]
  rw [code (t - 1) (by omega), code t (by omega), code (t + 1) (by omega)]

theorem same_windows (same : ¬ ToldApart secret other) {t : Nat} (pos : 0 < t)
    (small : t < 2 ^ 59) (n : Nat) :
    n ∈ window (secretLen secret).toNat t ↔ n ∈ window (secretLen other).toNat t := by
  rw [← accepted_iff pos small, ← accepted_iff pos small]
  have equal : verifyToken secret (sixDigits n) (moment t) =
      verifyToken other (sixDigits n) (moment t) := by
    by_contra differ
    exact same ⟨moment t, sixDigits n, differ⟩
  rw [equal]

section Window

variable {a b t : Nat}

theorem xor_mod_four (a s : Nat) : (a ^^^ s) % 4 = a % 4 ^^^ s % 4 :=
  Nat.xor_mod_two_pow (n := 2)

theorem window_residues (place : t % 4 = 2) :
    (a ^^^ (t - 1)) % 1000000 % 4 = a % 4 ^^^ 1 ∧ (a ^^^ t) % 1000000 % 4 = a % 4 ^^^ 2 ∧
      (a ^^^ (t + 1)) % 1000000 % 4 = a % 4 ^^^ 3 := by
  have before : (t - 1) % 4 = 1 := by omega
  have after : (t + 1) % 4 = 3 := by omega
  have residue : ∀ n, n % 1000000 % 4 = n % 4 := fun n => Nat.mod_mod_of_dvd n (by decide)
  simp only [residue, xor_mod_four, before, place, after, and_self]

/-- So the middle code can be told from the other two by its residue. -/
theorem residue_of_mem_window (place : t % 4 = 2) {n : Nat} (member : n ∈ window a t) :
    n % 4 ≠ a % 4 ∧ (n % 4 = a % 4 ^^^ 2 → n = (a ^^^ t) % 1000000) := by
  obtain ⟨before, middle, after⟩ := @window_residues a t place
  have small : a % 4 < 4 := Nat.mod_lt a (by decide)
  have apart : ∀ p < 4, (p ^^^ 1 ≠ p ∧ p ^^^ 1 ≠ p ^^^ 2) ∧ p ^^^ 2 ≠ p ∧
      (p ^^^ 3 ≠ p ∧ p ^^^ 3 ≠ p ^^^ 2) := by decide
  obtain ⟨first, second, third⟩ := apart (a % 4) small
  simp only [window, List.mem_cons, List.not_mem_nil, or_false] at member
  obtain rfl | rfl | rfl := member
  · rw [before]
    exact ⟨first.1, fun same => absurd same first.2⟩
  · rw [middle]
    exact ⟨second, fun _ => rfl⟩
  · rw [after]
    exact ⟨third.1, fun same => absurd same third.2⟩

theorem exists_mem_window (place : t % 4 = 2) {r : Nat} (small : r < 4) (other : r ≠ a % 4) :
    ∃ n ∈ window a t, n % 4 = r := by
  obtain ⟨before, middle, after⟩ := @window_residues a t place
  have one : ∀ p < 4, ∀ r < 4, r ≠ p → p ^^^ 1 = r ∨ p ^^^ 2 = r ∨ p ^^^ 3 = r := by decide
  rw [window]
  obtain found | found | found := one (a % 4) (Nat.mod_lt a (by decide)) r small other
  · exact ⟨_, List.mem_cons_self, before.trans found⟩
  · exact ⟨_, List.mem_cons_of_mem _ List.mem_cons_self, middle.trans found⟩
  · exact ⟨_, List.mem_cons_of_mem _ (List.mem_cons_of_mem _ List.mem_cons_self),
      after.trans found⟩

theorem modEq_of_same_window (place : t % 4 = 2)
    (same : ∀ n, n ∈ window a t ↔ n ∈ window b t) :
    a ≡ b [MOD 4] ∧ a ^^^ t ≡ b ^^^ t [MOD 1000000] := by
  have residue : b % 4 = a % 4 := by
    by_contra differ
    obtain ⟨n, member, missing⟩ := exists_mem_window place (Nat.mod_lt b (by decide)) differ
    exact (residue_of_mem_window place ((same n).mp member)).1 missing
  have middle : (a ^^^ t) % 1000000 ∈ window a t :=
    List.mem_cons_of_mem _ List.mem_cons_self
  refine ⟨residue.symm, (residue_of_mem_window place ((same _).mp middle)).2 ?_⟩
  rw [residue]
  exact (window_residues place).2.1

end Window

/-- Lengths whose codes agree at all times agree modulo 5 ^ 6 under every flip of a bit of
the step, up to the last step a clock of 64 bits can count. -/
theorem secretLen_eq_of_same (same : ¬ ToldApart secret other) :
    secretLen secret = secretLen other := by
  have at_step : ∀ t, t % 4 = 2 → t < 2 ^ 59 →
      (secretLen secret).toNat ≡ (secretLen other).toNat [MOD 4] ∧
        (secretLen secret).toNat ^^^ t ≡ (secretLen other).toNat ^^^ t [MOD 15625] := by
    intro t place small
    obtain ⟨lowest, codes⟩ :=
      modEq_of_same_window place (same_windows same (by omega) small)
    exact ⟨lowest, codes.of_dvd (by decide)⟩
  obtain ⟨lowest, start⟩ := at_step 2 (by decide) (by decide)
  have flips : ∀ i, 2 ≤ i → i < 59 →
      ((secretLen secret).toNat ^^^ 2) ^^^ 2 ^ i ≡
        ((secretLen other).toNat ^^^ 2) ^^^ 2 ^ i [MOD 15625] := by
    intro i low high
    have clear : Nat.testBit 2 i = false :=
      Nat.testBit_lt_two_pow (lt_of_lt_of_le (by decide : 2 < 2 ^ 2)
        (Nat.pow_le_pow_right (by decide) low))
    have step : 2 ^^^ 2 ^ i = 2 + 2 ^ i := xor_two_pow_of_clear clear
    have four : 2 ^ 2 ∣ 2 ^ i := Nat.pow_dvd_pow 2 low
    have below : 2 ^ i ≤ 2 ^ 58 := Nat.pow_le_pow_right (by decide) (by omega)
    rw [Nat.xor_assoc, Nat.xor_assoc, step]
    exact (at_step (2 + 2 ^ i) (by omega) (by omega)).2
  have fits : ∀ n : UInt64, n.toNat ^^^ 2 < 2 ^ 59 * 15625 := by
    intro n
    have word : n.toNat ^^^ 2 < 2 ^ 64 := Nat.xor_lt_two_pow n.toNat_lt (by decide)
    exact lt_trans word (by decide)
  have low_bits : (secretLen secret).toNat ^^^ 2 ≡ (secretLen other).toNat ^^^ 2 [MOD 2 ^ 2] := by
    rw [Nat.ModEq, Nat.xor_mod_two_pow, Nat.xor_mod_two_pow, lowest]
  have equal := eq_of_flips (by decide) (by decide) (fits _) (fits _) low_bits start flips
  have back := congrArg (· ^^^ 2) equal
  simpa only [Nat.xor_assoc, Nat.xor_self, Nat.xor_zero, UInt64.toNat_inj] using back

/-- Secrets are told apart exactly if their lengths in bytes differ. -/
theorem toldApart_iff (secret other : String) :
    ToldApart secret other ↔ secretLen secret ≠ secretLen other :=
  ⟨fun apart same => not_toldApart_of_secretLen same apart, fun differ =>
    by_contra fun same => differ (secretLen_eq_of_same same)⟩

theorem same_length_secrets :
    "JBSWY3DPEHPK3PXP" ≠ "AAAAAAAAAAAAAAAA" ∧
      ¬ ToldApart "JBSWY3DPEHPK3PXP" "AAAAAAAAAAAAAAAA" :=
  ⟨by decide, not_toldApart_of_secretLen (by decide)⟩

end RemoteAccess.Totp
