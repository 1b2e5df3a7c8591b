import Mathlib.Data.List.Zip

/-! A stream cipher as a function of the position: byte `i` is masked with byte
`i` of the stream. Two texts under one stream mask nothing from each other, so
whoever knows one of them reads the other as far as the first goes. -/

namespace RemoteAccess.Keystream

def mask (stream : Nat → UInt8) (text : List UInt8) : List UInt8 :=
  text.mapIdx fun i b => b ^^^ stream i

def unmask (known seen other : List UInt8) : List UInt8 :=
  List.zipWith (· ^^^ ·) (List.zipWith (· ^^^ ·) known seen) other

variable (stream : Nat → UInt8) (p q : List UInt8)

@[simp] theorem length_mask : (mask stream p).length = p.length := by
  rw [mask, List.length_mapIdx]

@[simp] theorem mask_nil : mask stream [] = [] := by
  rw [mask, List.mapIdx_nil]

theorem mask_cons (b : UInt8) :
    mask stream (b :: p) = (b ^^^ stream 0) :: mask (fun i => stream (i + 1)) p := by
  rw [mask, List.mapIdx_cons, mask]

theorem mask_append :
    mask stream (p ++ q) = mask stream p ++ mask (fun i => stream (i + p.length)) q := by
  rw [mask, List.mapIdx_append, mask, mask]

variable {p} in
theorem mask_congr {stream' : Nat → UInt8} (agree : ∀ i < p.length, stream i = stream' i) :
    mask stream p = mask stream' p := by
  apply List.ext_getElem (by rw [length_mask, length_mask])
  intro i low _
  rw [length_mask] at low
  simp only [mask, List.getElem_mapIdx, agree i low]

theorem zipWith_eq_mask (pad : List UInt8) (long : p.length ≤ pad.length) :
    List.zipWith (· ^^^ ·) p pad = mask (fun i => pad.getD i 0) p := by
  induction p generalizing pad with
  | nil => rw [List.zipWith_nil_left, mask_nil]
  | cons b p ih =>
    obtain ⟨k, pad, rfl⟩ := List.exists_cons_of_length_pos (Nat.lt_of_lt_of_le (by simp) long)
    rw [List.zipWith_cons_cons, ih pad (by simpa using long), mask_cons]
    simp only [List.getD_cons_zero, List.getD_cons_succ]

theorem xor_mask_cancel (a b k : UInt8) : (a ^^^ k) ^^^ (b ^^^ k) = a ^^^ b := by
  rw [UInt8.xor_comm b k, ← UInt8.xor_assoc, UInt8.xor_assoc a k k, UInt8.xor_self, UInt8.xor_zero]

theorem zipWith_mask :
    List.zipWith (· ^^^ ·) (mask stream p) (mask stream q) = List.zipWith (· ^^^ ·) p q := by
  induction p generalizing stream q with
  | nil => rw [mask_nil, List.zipWith_nil_left, List.zipWith_nil_left]
  | cons a p ih =>
    cases q with
    | nil => rw [mask_nil, List.zipWith_nil_right, List.zipWith_nil_right]
    | cons b q =>
      rw [mask_cons, mask_cons, List.zipWith_cons_cons, List.zipWith_cons_cons, ih,
        xor_mask_cancel]

theorem xor_xor_cancel (a k : UInt8) : a ^^^ (a ^^^ k) = k := by
  rw [← UInt8.xor_assoc, UInt8.xor_self, UInt8.zero_xor]

/-- As much of a text is known as of the other one, whatever the stream. -/
theorem unmask_mask {known : List UInt8} (start : p.take known.length = known) :
    unmask known (mask stream p) (mask stream q) = q.take known.length := by
  induction known generalizing stream p q with
  | nil =>
    rw [unmask, List.zipWith_nil_left, List.zipWith_nil_left, List.length_nil, List.take_zero]
  | cons a known ih =>
    cases p with
    | nil => simp at start
    | cons a' p =>
      rw [List.length_cons, List.take_succ_cons, List.cons.injEq] at start
      obtain ⟨rfl, start⟩ := start
      cases q with
      | nil => rw [mask_nil, unmask, List.zipWith_nil_right, List.take_nil]
      | cons b q =>
        have byte : (a' ^^^ (a' ^^^ stream 0)) ^^^ (b ^^^ stream 0) = b := by
          rw [xor_xor_cancel, UInt8.xor_comm b, xor_xor_cancel]
        rw [mask_cons, mask_cons, unmask, List.zipWith_cons_cons, List.zipWith_cons_cons, byte,
          ← unmask, ih (fun i => stream (i + 1)) p q start, List.length_cons, List.take_succ_cons]

theorem unmask_eq_mask {text : List UInt8} (short : text.length ≤ p.length) :
    unmask p (mask stream p) text = mask stream text := by
  induction p generalizing stream text with
  | nil =>
    obtain rfl := List.length_eq_zero_iff.mp (Nat.le_zero.mp short)
    rw [unmask, List.zipWith_nil_right, mask_nil]
  | cons a p ih =>
    cases text with
    | nil => rw [unmask, List.zipWith_nil_right, mask_nil]
    | cons b text =>
      rw [mask_cons, unmask, List.zipWith_cons_cons, List.zipWith_cons_cons, xor_xor_cancel,
        UInt8.xor_comm (stream 0), ← unmask, ih (fun i => stream (i + 1)) (by simpa using short),
        mask_cons]

end RemoteAccess.Keystream
