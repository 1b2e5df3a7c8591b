import Mathlib.Tactic.Ring
import RemoteAccess.Basics.Raster

/-! `MirrorShield`: the client's own window painted over in a captured frame. What C++
leaves undefined, an `int` that overflows or a write outside the buffer, is `none`. -/

namespace RemoteAccess.MirrorShield

open Raster

structure WindowBounds where
  x : Int := 0
  y : Int := 0
  width : Int := 0
  height : Int := 0
  isActive : Bool := false
deriving DecidableEq, Repr

def int (value : Int) : Option Int :=
  if -2147483648 ≤ value ∧ value ≤ 2147483647 then some value else none

/-- `frameBuffer[offset] = value`. -/
def store (frameBuffer : List UInt8) (offset : Int) (value : UInt8) : Option (List UInt8) :=
  if 0 ≤ offset ∧ offset < frameBuffer.length then some (frameBuffer.set offset.toNat value)
  else none

/-- One round of the loop over `x`; `row` is the offset of the row from the buffer. -/
def shieldPixel (bytesPerPixel row : Int) (frameBuffer : List UInt8) (x : Int) :
    Option (List UInt8) := do
  let offset ← int (x * bytesPerPixel)
  let frameBuffer ← store frameBuffer (row + (← int (offset + 0))) 0x1e
  let frameBuffer ← store frameBuffer (row + (← int (offset + 1))) 0x1e
  let frameBuffer ← store frameBuffer (row + (← int (offset + 2))) 0x2e
  if bytesPerPixel = 4 then
    store frameBuffer (row + (← int (offset + 3))) 0xff
  else
    return frameBuffer

/-- One round of the loop over `y`. -/
def shieldRow (startX endX bytesPerPixel stride : Int) (frameBuffer : List UInt8) (y : Int) :
    Option (List UInt8) := do
  let row ← int (y * stride)
  (List.range (endX - startX).toNat).foldlM
    (fun frameBuffer (k : Nat) => shieldPixel bytesPerPixel row frameBuffer (startX + k))
    frameBuffer

/-- `none` as the buffer is a null pointer. The buffer comes back as the call leaves it. -/
def applyMirrorShield (frameBuffer : Option (List UInt8)) (frameWidth frameHeight : Int)
    (clientBounds : WindowBounds) (bytesPerPixel : Int) :
    Option (Bool × Option (List UInt8)) :=
  match frameBuffer with
  | none => some (false, none)
  | some frameBuffer =>
    if frameWidth ≤ 0 ∨ frameHeight ≤ 0 ∨ clientBounds.isActive = false then
      some (false, some frameBuffer)
    else do
      let startX := max 0 clientBounds.x
      let startY := max 0 clientBounds.y
      let endX := min frameWidth (← int (clientBounds.x + clientBounds.width))
      let endY := min frameHeight (← int (clientBounds.y + clientBounds.height))
      if startX ≥ endX ∨ startY ≥ endY then
        return (false, some frameBuffer)
      let stride ← int (frameWidth * bytesPerPixel)
      let shielded ← (List.range (endY - startY).toNat).foldlM
        (fun frameBuffer (k : Nat) =>
          shieldRow startX endX bytesPerPixel stride frameBuffer (startY + k)) frameBuffer
      return (true, some shielded)

/-! ### What the loops write -/

def shield (bytesPerPixel : Nat) : List UInt8 := [0x1e, 0x1e, 0x2e, 0xff].take bytesPerPixel

theorem length_shield {bytesPerPixel : Nat} (format : bytesPerPixel = 3 ∨ bytesPerPixel = 4) :
    (shield bytesPerPixel).length = bytesPerPixel := by
  obtain rfl | rfl := format <;> rfl

theorem int_eq {value : Int} (low : -2147483648 ≤ value) (high : value ≤ 2147483647) :
    int value = some value := if_pos ⟨low, high⟩

theorem store_eq {frameBuffer : List UInt8} {offset : Int} (value : UInt8) (i : Nat)
    (same : offset = i) (inside : i < frameBuffer.length) :
    store frameBuffer offset value = some (frameBuffer.set i value) := by
  rw [store, if_pos (by omega), same, Int.toNat_natCast]

variable {width height bytesPerPixel : Nat}

theorem shieldPixel_eq (format : bytesPerPixel = 3 ∨ bytesPerPixel = 4) {frameBuffer : List UInt8}
    {x row : Nat} (inside : row + x * bytesPerPixel + bytesPerPixel ≤ frameBuffer.length)
    (small : frameBuffer.length < 2 ^ 31) :
    shieldPixel bytesPerPixel row frameBuffer x =
      some (stamp (shield bytesPerPixel) (row + x * bytesPerPixel) frameBuffer) := by
  have offset : int ((x : Int) * bytesPerPixel) = some ((x * bytesPerPixel : Nat) : Int) := by
    rw [← Int.natCast_mul, int_eq (by omega) (by omega)]
  have index : ∀ c : Nat, c < bytesPerPixel → int (((x * bytesPerPixel : Nat) : Int) + c) =
      some (((x * bytesPerPixel : Nat) : Int) + c) :=
    fun c within => int_eq (by omega) (by omega)
  have first : int (_ + 0) = some (_ + 0) := index 0 (by omega)
  have second : int (_ + 1) = some (_ + 1) := index 1 (by omega)
  have third : int (_ + 2) = some (_ + 2) := index 2 (by omega)
  rw [shieldPixel, offset]
  simp only [Option.bind_eq_bind, Option.bind_some]
  rw [first, Option.bind_some, store_eq _ (row + x * bytesPerPixel) (by omega) (by omega),
    Option.bind_some, second, Option.bind_some,
    store_eq _ (row + x * bytesPerPixel + 1) (by omega) (by rw [List.length_set]; omega),
    Option.bind_some, third, Option.bind_some,
    store_eq _ (row + x * bytesPerPixel + 2) (by omega)
      (by rw [List.length_set, List.length_set]; omega), Option.bind_some]
  obtain rfl | rfl := format
  · rfl
  · have fourth : int (_ + 3) = some (_ + 3) := index 3 (by omega)
    rw [if_pos (show ((4 : Nat) : Int) = 4 from rfl), fourth, Option.bind_some,
      store_eq _ (row + x * 4 + 3) (by omega)
        (by rw [List.length_set, List.length_set, List.length_set]; omega)]
    rfl

theorem shieldPixels_painted (format : bytesPerPixel = 3 ∨ bytesPerPixel = 4)
    {Done : Nat → Nat → Prop} (columns : ∀ x y, Done x y → x < width) {before after : List UInt8}
    (size : before.length = width * height * bytesPerPixel) (small : before.length < 2 ^ 31)
    (painted : Painted width (shield bytesPerPixel) Done before after) {y : Nat}
    (above : y < height) (startX count : Nat) (left : startX + count ≤ width) :
    ∃ shielded, (List.range count).foldlM (fun frameBuffer (k : Nat) =>
        shieldPixel bytesPerPixel ((y * (width * bytesPerPixel) : Nat) : Int) frameBuffer
          ((startX : Int) + k)) after = some shielded ∧
      Painted width (shield bytesPerPixel)
        (fun x' y' => Done x' y' ∨ y' = y ∧ startX ≤ x' ∧ x' < startX + count) before
        shielded := by
  induction count with
  | zero => exact ⟨after, rfl, painted.congr fun x' y' => by grind⟩
  | succ count ih =>
    obtain ⟨shielded, scanned, painted⟩ := ih (by omega)
    have column : startX + count < width := by omega
    have fits : place width bytesPerPixel (startX + count) y + bytesPerPixel ≤
        before.length := size ▸ place_fits column above
    have position : y * (width * bytesPerPixel) + (startX + count) * bytesPerPixel =
        place width bytesPerPixel (startX + count) y := by
      rw [place, Nat.add_mul (y * width), Nat.mul_assoc]
    have pixel := @shieldPixel_eq bytesPerPixel format shielded (startX + count)
      (y * (width * bytesPerPixel)) (by rw [position, painted.length]; exact fits)
      (painted.length ▸ small)
    rw [List.range_succ, List.foldlM_append, scanned, Option.bind_eq_bind, Option.bind_some,
      List.foldlM_cons, ← Int.natCast_add, pixel, position, Option.bind_eq_bind,
      Option.bind_some, List.foldlM_nil]
    refine ⟨_, rfl, ?_⟩
    have more := painted.stamp (x := startX + count) (y := y) (by grind) column
      (by rw [length_shield format, painted.length]; exact fits)
    rw [length_shield format] at more
    exact more.congr fun x' y' => by grind

theorem shieldRow_painted (format : bytesPerPixel = 3 ∨ bytesPerPixel = 4)
    {Done : Nat → Nat → Prop} (columns : ∀ x y, Done x y → x < width) {before after : List UInt8}
    (size : before.length = width * height * bytesPerPixel) (small : before.length < 2 ^ 31)
    (painted : Painted width (shield bytesPerPixel) Done before after) {y startX endX : Nat}
    (above : y < height) (ordered : startX ≤ endX) (left : endX ≤ width) :
    ∃ shielded, shieldRow startX endX bytesPerPixel ((width * bytesPerPixel : Nat) : Int) after y =
        some shielded ∧
      Painted width (shield bytesPerPixel)
        (fun x' y' => Done x' y' ∨ y' = y ∧ startX ≤ x' ∧ x' < endX) before shielded := by
  have row : y * (width * bytesPerPixel) ≤ before.length := by
    rw [size, Nat.mul_comm width height, Nat.mul_assoc]
    exact Nat.mul_le_mul_right _ (Nat.le_of_lt above)
  obtain ⟨shielded, pixels, more⟩ := shieldPixels_painted format columns size small painted above
    startX (endX - startX) (by omega)
  have span : ((endX : Int) - startX).toNat = endX - startX := by omega
  rw [shieldRow, ← Int.natCast_mul, int_eq (by omega) (by omega), span]
  exact ⟨shielded, pixels, more.congr fun x y => by grind⟩

theorem shieldRows_painted (format : bytesPerPixel = 3 ∨ bytesPerPixel = 4)
    {before : List UInt8} (size : before.length = width * height * bytesPerPixel)
    (small : before.length < 2 ^ 31) {startX endX : Nat} (ordered : startX ≤ endX)
    (left : endX ≤ width) (startY count : Nat) (above : startY + count ≤ height) :
    ∃ shielded, (List.range count).foldlM (fun frameBuffer (k : Nat) =>
        shieldRow startX endX bytesPerPixel ((width * bytesPerPixel : Nat) : Int) frameBuffer
          ((startY : Int) + k)) before = some shielded ∧
      Painted width (shield bytesPerPixel)
        (fun x y => (startY ≤ y ∧ y < startY + count) ∧ startX ≤ x ∧ x < endX) before
        shielded := by
  induction count with
  | zero => exact ⟨before, rfl, painted_nothing (by omega) before⟩
  | succ count ih =>
    obtain ⟨shielded, scanned, painted⟩ := ih (by omega)
    have below : startY + count < height := by omega
    obtain ⟨after, row, more⟩ :=
      shieldRow_painted format (by omega) size small painted below ordered left
    rw [List.range_succ, List.foldlM_append, scanned, Option.bind_eq_bind, Option.bind_some,
      List.foldlM_cons, ← Int.natCast_add, row, Option.bind_eq_bind, Option.bind_some,
      List.foldlM_nil]
    exact ⟨after, rfl, more.congr fun x y => by omega⟩

theorem shieldWindow_painted (format : bytesPerPixel = 3 ∨ bytesPerPixel = 4)
    {frame : List UInt8} (size : frame.length = width * height * bytesPerPixel)
    (small : frame.length < 2 ^ 31) {startX endX startY endY : Int}
    (columns : 0 ≤ startX ∧ startX < endX ∧ endX ≤ width)
    (rows : 0 ≤ startY ∧ startY < endY ∧ endY ≤ height) :
    ∃ shielded, int ((width : Int) * bytesPerPixel) = some ((width * bytesPerPixel : Nat) : Int) ∧
      (List.range (endY - startY).toNat).foldlM (fun frameBuffer (k : Nat) =>
        shieldRow startX endX bytesPerPixel ((width * bytesPerPixel : Nat) : Int) frameBuffer
          (startY + k)) frame = some shielded ∧
      Painted width (shield bytesPerPixel)
        (fun x y => (startY ≤ y ∧ (y : Int) < endY) ∧ startX ≤ x ∧ (x : Int) < endX) frame
        shielded := by
  obtain ⟨startX, rfl⟩ := Int.eq_ofNat_of_zero_le columns.1
  obtain ⟨startY, rfl⟩ := Int.eq_ofNat_of_zero_le rows.1
  obtain ⟨endX, rfl⟩ := Int.eq_ofNat_of_zero_le (show 0 ≤ endX by omega)
  obtain ⟨endY, rfl⟩ := Int.eq_ofNat_of_zero_le (show 0 ≤ endY by omega)
  have count : ((endY : Int) - startY).toNat = endY - startY := by omega
  have stride : width * bytesPerPixel ≤ frame.length := by
    rw [size, Nat.mul_right_comm]
    exact Nat.le_mul_of_pos_right _ (by omega)
  obtain ⟨shielded, scanned, painted⟩ := @shieldRows_painted width height _ format _ size small
    startX endX (by omega) (by omega) startY (endY - startY) (by omega)
  rw [← Int.natCast_mul, int_eq (by omega) (by omega), count]
  exact ⟨shielded, rfl, scanned, painted.congr fun x y => by omega⟩

/-! ### The call -/

def Visible (clientBounds : WindowBounds) (width height : Nat) (x y : Nat) : Prop :=
  (x < width ∧ y < height) ∧
  (clientBounds.x ≤ x ∧ x < clientBounds.x + clientBounds.width) ∧
  clientBounds.y ≤ y ∧ y < clientBounds.y + clientBounds.height

theorem visible_iff (clientBounds : WindowBounds) (width height x y : Nat) :
    Visible clientBounds width height x y ↔
      (max 0 clientBounds.y ≤ (y : Int) ∧
        (y : Int) < min (height : Int) (clientBounds.y + clientBounds.height)) ∧
      max 0 clientBounds.x ≤ (x : Int) ∧
        (x : Int) < min (width : Int) (clientBounds.x + clientBounds.width) := by
  unfold Visible
  omega

theorem applyMirrorShield_painted (format : bytesPerPixel = 3 ∨ bytesPerPixel = 4)
    {frame : List UInt8} (size : frame.length = width * height * bytesPerPixel)
    (small : frame.length < 2 ^ 31) {clientBounds : WindowBounds}
    (active : clientBounds.isActive = true)
    (right : int (clientBounds.x + clientBounds.width) =
      some (clientBounds.x + clientBounds.width))
    (bottom : int (clientBounds.y + clientBounds.height) =
      some (clientBounds.y + clientBounds.height)) :
    ∃ shown after,
      applyMirrorShield (some frame) width height clientBounds bytesPerPixel =
        some (shown, some after) ∧
      Painted width (shield bytesPerPixel) (Visible clientBounds width height) frame after ∧
      (shown = true ↔ ∃ x y, Visible clientBounds width height x y) := by
  by_cases empty : width = 0 ∨ height = 0
  · have none : ∀ x y, ¬ Visible clientBounds width height x y := by
      rintro x y ⟨⟨left, above⟩, -⟩
      omega
    refine ⟨false, frame, ?_, painted_nothing none frame, by simp [none]⟩
    rw [applyMirrorShield, if_pos (by omega)]
  · have proceed : ¬ ((width : Int) ≤ 0 ∨ (height : Int) ≤ 0 ∨ clientBounds.isActive = false) := by
      simp only [active, Bool.true_eq_false, or_false]
      omega
    rw [applyMirrorShield, if_neg proceed, right, bottom]
    simp only [Option.bind_eq_bind, Option.bind_some]
    by_cases hidden : max 0 clientBounds.x ≥ min (width : Int) (clientBounds.x + clientBounds.width)
        ∨ max 0 clientBounds.y ≥ min (height : Int) (clientBounds.y + clientBounds.height)
    · have none : ∀ x y, ¬ Visible clientBounds width height x y := by
        intro x y
        rw [visible_iff]
        omega
      refine ⟨false, frame, ?_, painted_nothing none frame, by simp [none]⟩
      rw [if_pos hidden]
      rfl
    · obtain ⟨shielded, stride, scanned, painted⟩ := @shieldWindow_painted width height _ format _
        size small (max 0 clientBounds.x)
        (min (width : Int) (clientBounds.x + clientBounds.width)) (max 0 clientBounds.y)
        (min (height : Int) (clientBounds.y + clientBounds.height)) (by omega) (by omega)
      rw [if_neg hidden, stride, Option.bind_some, scanned]
      refine ⟨true, shielded, rfl, painted.congr fun x y => visible_iff .., ?_⟩
      simp only [visible_iff, true_iff]
      exact ⟨(max 0 clientBounds.x).toNat, (max 0 clientBounds.y).toNat, by omega⟩

/-- The shield paints the visible part of the window and nothing else. -/
theorem applyMirrorShield_paints (frame : List UInt8) (clientBounds : WindowBounds)
    (width height bytesPerPixel : Nat) (format : bytesPerPixel = 3 ∨ bytesPerPixel = 4)
    (size : frame.length = width * height * bytesPerPixel) (small : frame.length < 2 ^ 31)
    (active : clientBounds.isActive = true)
    (right : -2 ^ 31 ≤ clientBounds.x + clientBounds.width ∧
      clientBounds.x + clientBounds.width < 2 ^ 31)
    (bottom : -2 ^ 31 ≤ clientBounds.y + clientBounds.height ∧
      clientBounds.y + clientBounds.height < 2 ^ 31) :
    ∃ shown after,
      applyMirrorShield (some frame) width height clientBounds bytesPerPixel =
        some (shown, some after) ∧
      after.length = frame.length ∧
      (∀ x y, Visible clientBounds width height x y → ∀ c < bytesPerPixel,
        after[(y * width + x) * bytesPerPixel + c]? = [0x1e, 0x1e, 0x2e, 0xff][c]?) ∧
      (∀ i, (∀ x y, Visible clientBounds width height x y → ∀ c < bytesPerPixel,
        i ≠ (y * width + x) * bytesPerPixel + c) → after[i]? = frame[i]?) ∧
      (shown = true ↔ ∃ x y, Visible clientBounds width height x y) := by
  obtain ⟨shown, after, returned, ⟨length, inside, outside⟩, iff⟩ :=
    applyMirrorShield_painted format size small active (int_eq (by omega) (by omega))
      (int_eq (by omega) (by omega))
  rw [length_shield format] at inside outside
  refine ⟨shown, after, returned, length, fun x y visible c within => ?_, outside, iff⟩
  have colour := inside x y visible c within
  rw [place, shield, List.getElem?_take_of_lt within] at colour
  exact colour

theorem applyMirrorShield_paints_edge :
    ∃ shown after, applyMirrorShield (some (List.replicate 6 0)) 2 1 ⟨-1, 0, 2, 1, true⟩ 3 =
      some (shown, some after) ∧ after = [0x1e, 0x1e, 0x2e, 0, 0, 0] ∧ shown = true := by
  obtain ⟨shown, after, returned, -⟩ := applyMirrorShield_paints (List.replicate 6 0)
    ⟨-1, 0, 2, 1, true⟩ 2 1 3 (.inl rfl) rfl (by decide) rfl (by decide) (by decide)
  have run : applyMirrorShield (some (List.replicate 6 0)) 2 1 ⟨-1, 0, 2, 1, true⟩ 3 =
      some (true, some [0x1e, 0x1e, 0x2e, 0, 0, 0]) := by decide
  obtain ⟨rfl, rfl⟩ : true = shown ∧ [0x1e, 0x1e, 0x2e, 0, 0, 0] = after := by
    simpa using run.symm.trans returned
  exact ⟨_, _, returned, rfl, rfl⟩

end RemoteAccess.MirrorShield
