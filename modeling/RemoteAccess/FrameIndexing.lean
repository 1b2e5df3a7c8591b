import RemoteAccess.Basics.Evaluations
import RemoteAccess.MirrorShield
import RemoteAccess.ScreenCapture

/-! The `int` expressions that `DirtyRegionDetector` and `MirrorShield` evaluate to find
their way through a frame, and the screens on which none of them overflows. They are noted
in exact arithmetic, which is that of the code up to the first one that is no `int`. -/

namespace RemoteAccess.FrameIndexing

open Evaluations Raster
open AgentPacketHandler (toInt_toInt32_of_lt)
open DirtyRegion (DirtyRect Bounds differ Scanned scanRows_scanned)
open MirrorShield (WindowBounds Visible visible_iff int store)

def Fits (value : Int) : Prop := -2147483648 ≤ value ∧ value ≤ 2147483647

instance (value : Int) : Decidable (Fits value) := inferInstanceAs (Decidable (_ ∧ _))

/-! ### `detectDirtyRegion` -/

/-- One round of the loop over `x`, with the `++x` after it. -/
def scanPixel (prevRow currRow : List UInt8) (bytesPerPixel : Int) (bounds : Bounds) (x : Nat) :
    Evaluation Int Bounds := do
  let offset ← evaluate (x * bytesPerPixel)
  let bounds ← (if differ prevRow currRow offset bytesPerPixel then do
      let right ← evaluate ((x : Int) + 1)
      return { bounds with minX := min bounds.minX x, maxX := max bounds.maxX right }
    else return bounds)
  let _ ← evaluate ((x : Int) + 1)
  return bounds

/-- One round of the loop over `y`, with the `++y` after it. -/
def scanRow (prevFrame currFrame : List UInt8) (width bytesPerPixel stride : Int)
    (bounds : Bounds) (y : Nat) : Evaluation Int Bounds := do
  let prevRow := prevFrame.drop (← evaluate (y * stride)).toNat
  let currRow := currFrame.drop (← evaluate (y * stride)).toNat
  let bounds ← (if differ prevRow currRow 0 stride then do
      let bottom ← evaluate ((y : Int) + 1)
      (List.range width.toNat).foldlM (scanPixel prevRow currRow bytesPerPixel)
        { bounds with minY := min bounds.minY y, maxY := max bounds.maxY bottom }
    else return bounds)
  let _ ← evaluate ((y : Int) + 1)
  return bounds

def rect (width height : Int) (bounds : Bounds) : Evaluation Int DirtyRect :=
  if bounds.minX ≤ bounds.maxX ∧ bounds.minY ≤ bounds.maxY then do
    let rectWidth := min (← evaluate (width - bounds.minX)) (← evaluate (bounds.maxX - bounds.minX))
    let rectHeight :=
      min (← evaluate (height - bounds.minY)) (← evaluate (bounds.maxY - bounds.minY))
    return {
      x := bounds.minX
      y := bounds.minY
      width := rectWidth
      height := rectHeight
      isDirty := true }
  else return {}

def detectDirtyRegion (prevFrame currFrame : Option (List UInt8))
    (width height bytesPerPixel : Int) : Evaluation Int DirtyRect :=
  match currFrame with
  | none => return {}
  | some currFrame =>
    if width ≤ 0 ∨ height ≤ 0 then return {} else
    match prevFrame with
    | none => return { x := 0, y := 0, width := width, height := height, isDirty := true }
    | some prevFrame => do
      let stride ← evaluate (width * bytesPerPixel)
      let bounds ← (List.range height.toNat).foldlM
        (scanRow prevFrame currFrame width bytesPerPixel stride) ⟨width, height, -1, -1⟩
      rect width height bounds

/-! ### `applyMirrorShield` -/

/-- One round of the loop over `x`, with the `++x` after it; `row` is the offset of the row
from the buffer. -/
def shieldPixel (bytesPerPixel row : Int) (frameBuffer : List UInt8) (x : Int) :
    Evaluation Int (List UInt8) := do
  let offset ← evaluate (x * bytesPerPixel)
  let frameBuffer := frameBuffer.set (row + (← evaluate (offset + 0))).toNat 0x1e
  let frameBuffer := frameBuffer.set (row + (← evaluate (offset + 1))).toNat 0x1e
  let frameBuffer := frameBuffer.set (row + (← evaluate (offset + 2))).toNat 0x2e
  let frameBuffer ← (if bytesPerPixel = 4 then do
      return frameBuffer.set (row + (← evaluate (offset + 3))).toNat 0xff
    else return frameBuffer)
  let _ ← evaluate (x + 1)
  return frameBuffer

/-- One round of the loop over `y`, with the `++y` after it. -/
def shieldRow (startX endX bytesPerPixel stride : Int) (frameBuffer : List UInt8) (y : Int) :
    Evaluation Int (List UInt8) := do
  let row ← evaluate (y * stride)
  let frameBuffer ← (List.range (endX - startX).toNat).foldlM
    (fun frameBuffer (k : Nat) => shieldPixel bytesPerPixel row frameBuffer (startX + k))
    frameBuffer
  let _ ← evaluate (y + 1)
  return frameBuffer

def applyMirrorShield (frameBuffer : Option (List UInt8)) (frameWidth frameHeight : Int)
    (clientBounds : WindowBounds) (bytesPerPixel : Int) :
    Evaluation Int (Bool × Option (List UInt8)) :=
  match frameBuffer with
  | none => return (false, none)
  | some frameBuffer =>
    if frameWidth ≤ 0 ∨ frameHeight ≤ 0 ∨ clientBounds.isActive = false then
      return (false, some frameBuffer)
    else do
      let startX := max 0 clientBounds.x
      let startY := max 0 clientBounds.y
      let endX := min frameWidth (← evaluate (clientBounds.x + clientBounds.width))
      let endY := min frameHeight (← evaluate (clientBounds.y + clientBounds.height))
      if startX ≥ endX ∨ startY ≥ endY then
        return (false, some frameBuffer)
      let stride ← evaluate (frameWidth * bytesPerPixel)
      let shielded ← (List.range (endY - startY).toNat).foldlM
        (fun frameBuffer (k : Nat) =>
          shieldRow startX endX bytesPerPixel stride frameBuffer (startY + k)) frameBuffer
      return (true, some shielded)

/-! ### The values are those of the other models -/

theorem value_scanPixel (prevRow currRow : List UInt8) (bytesPerPixel : Int) (bounds : Bounds)
    (x : Nat) : value (scanPixel prevRow currRow bytesPerPixel bounds x) =
      DirtyRegion.scanPixel prevRow currRow bytesPerPixel bounds x := by
  by_cases here : differ prevRow currRow (x * bytesPerPixel) bytesPerPixel <;>
    simp [scanPixel, DirtyRegion.scanPixel, here]

theorem value_scanRow (prevFrame currFrame : List UInt8) (width bytesPerPixel : Int)
    (bounds : Bounds) (y : Nat) :
    value (scanRow prevFrame currFrame width bytesPerPixel (width * bytesPerPixel) bounds y) =
      DirtyRegion.scanRow prevFrame currFrame width bytesPerPixel bounds y := by
  by_cases row : differ (prevFrame.drop (y * (width * bytesPerPixel)).toNat)
      (currFrame.drop (y * (width * bytesPerPixel)).toNat) 0 (width * bytesPerPixel) <;>
    simp [scanRow, DirtyRegion.scanRow, row, value_foldlM, value_scanPixel]

theorem value_rect (width height : Int) (bounds : Bounds) :
    value (rect width height bounds) = bounds.rect width height := by
  rw [rect, Bounds.rect]
  split_ifs <;> rfl

theorem value_detectDirtyRegion (prevFrame currFrame : Option (List UInt8))
    (width height bytesPerPixel : Int) :
    value (detectDirtyRegion prevFrame currFrame width height bytesPerPixel) =
      DirtyRegion.detectDirtyRegion prevFrame currFrame width height bytesPerPixel := by
  obtain _ | currFrame := currFrame
  · rfl
  simp only [detectDirtyRegion.eq_def, DirtyRegion.detectDirtyRegion.eq_def]
  split_ifs
  · rfl
  obtain _ | prevFrame := prevFrame
  · rfl
  simp only [value_bind, value_rect, value_foldlM, value_evaluate, value_scanRow]

/-! ### The rows of the detector -/

/-- The sizes of a screen that X11 reports. -/
def Screen (width height : Nat) : Prop :=
  (1 ≤ width ∧ width ≤ 32767) ∧ 1 ≤ height ∧ height ≤ 32767

instance (width height : Nat) : Decidable (Screen width height) :=
  inferInstanceAs (Decidable (_ ∧ _))

variable {width height : Nat}

theorem scanPixel_fits (prevRow currRow : List UInt8) (bounds : Bounds) {x : Nat}
    (inside : x < 32767) : Throughout Fits (scanPixel prevRow currRow 4 bounds x) := by
  have offset : Fits (x * 4) := by
    unfold Fits
    omega
  have next : Fits (x + 1) := by
    unfold Fits
    omega
  rw [scanPixel]
  simp only [throughout_bind, throughout_evaluate, throughout_ite, throughout_pure, and_true,
    implies_true]
  exact ⟨offset, fun _ => next, next⟩

theorem scanRow_fits_iff (screen : Screen width height) (prev curr : List UInt8) (bounds : Bounds)
    {y : Nat} (above : y < height) :
    Throughout Fits (scanRow prev curr width 4 (width * 4) bounds y) ↔ Fits (y * (width * 4)) := by
  obtain ⟨⟨-, narrow⟩, -, low⟩ := screen
  have next : Fits (y + 1) := by
    unfold Fits
    omega
  have pixels : ∀ prevRow currRow bounds, Throughout Fits
      ((List.range (width : Int).toNat).foldlM (scanPixel prevRow currRow 4) bounds) := by
    intro prevRow currRow bounds
    refine throughout_foldlM_of (fun bounds x inside => ?_) bounds
    rw [Int.toNat_natCast, List.mem_range] at inside
    exact scanPixel_fits prevRow currRow bounds (by omega)
  rw [scanRow]
  simp only [throughout_bind, throughout_evaluate, throughout_ite, throughout_pure, and_true,
    implies_true]
  exact ⟨And.left, fun row => ⟨row, row, fun _ => ⟨next, pixels _ _ _⟩, next⟩⟩

theorem rect_fits (screen : Screen width height) {prev curr : List UInt8} {bounds : Bounds}
    (scanned : Scanned prev curr width height 4 height bounds) :
    Throughout Fits (rect width height bounds) := by
  obtain ⟨⟨-, narrow⟩, -, low⟩ := screen
  have columns := scanned.columns.between (fun x seen => Int.ofNat_lt.mpr seen.1) (by omega)
  have rows := scanned.rows.between (fun y seen => Int.ofNat_lt.mpr seen.1) (by omega)
  simp only [rect, throughout_ite, throughout_evaluate_bind, throughout_pure, and_true,
    implies_true, Fits]
  omega

theorem rows_fit_iff (screen : Screen width height) :
    (∀ y < height, Fits (y * (width * 4))) ↔ (height - 1) * (width * 4) < 2 ^ 31 := by
  obtain ⟨-, positive, -⟩ := screen
  have cast : ∀ y : Nat, (y : Int) * (width * 4) = ((y * (width * 4) : Nat) : Int) := by
    intro y
    push_cast
    rfl
  simp only [Fits, cast]
  constructor
  · intro rows
    have last := (rows (height - 1) (by omega)).2
    omega
  · intro small y above
    have le : y * (width * 4) ≤ (height - 1) * (width * 4) := Nat.mul_le_mul_right _ (by omega)
    omega

theorem detectDirtyRegion_fits_iff (screen : Screen width height) (prev curr : List UInt8) :
    Throughout Fits (detectDirtyRegion (some prev) (some curr) width height 4) ↔
      (height - 1) * (width * 4) < 2 ^ 31 := by
  have positive : ¬ ((width : Int) ≤ 0 ∨ (height : Int) ≤ 0) := by
    obtain ⟨⟨wide, -⟩, high, -⟩ := screen
    omega
  have stride : Fits (width * 4) := by
    obtain ⟨⟨-, narrow⟩, -⟩ := screen
    unfold Fits
    omega
  have rows := throughout_foldlM (Q := fun y : Nat => Fits (y * (width * 4)))
    (fun bounds y above => scanRow_fits_iff screen prev curr bounds (List.mem_range.mp above))
    ⟨width, height, -1, -1⟩
  simp only [List.mem_range, rows_fit_iff screen] at rows
  have last : Throughout Fits (rect width height ((List.range height).foldl
      (DirtyRegion.scanRow prev curr width 4) ⟨width, height, -1, -1⟩)) :=
    rect_fits screen (scanRows_scanned height (Nat.le_refl _))
  simp only [detectDirtyRegion.eq_def, if_neg positive]
  simp only [throughout_bind, throughout_evaluate, value_evaluate, value_foldlM, value_scanRow,
    Int.toNat_natCast]
  exact ⟨fun all => rows.mp all.2.1, fun small => ⟨stride, rows.mpr small, last⟩⟩

/-! ### The rows of the shield -/

theorem shieldPixel_fits (row : Int) (frameBuffer : List UInt8) {x : Int}
    (inside : 0 ≤ x ∧ x < 32767) : Throughout Fits (shieldPixel 4 row frameBuffer x) := by
  simp only [shieldPixel, throughout_bind, throughout_evaluate, throughout_ite, throughout_pure,
    value_evaluate, and_true, implies_true, Fits]
  omega

theorem shieldRow_fits_iff {startX endX stride y : Int} (columns : 0 ≤ startX ∧ endX ≤ 32767)
    (rows : 0 ≤ y ∧ y < 32767) (frameBuffer : List UInt8) :
    Throughout Fits (shieldRow startX endX 4 stride frameBuffer y) ↔ Fits (y * stride) := by
  have next : Fits (y + 1) := by
    unfold Fits
    omega
  have pixels : Throughout Fits ((List.range (endX - startX).toNat).foldlM
      (fun frameBuffer (k : Nat) => shieldPixel 4 (y * stride) frameBuffer (startX + k))
      frameBuffer) := by
    refine throughout_foldlM_of (fun shielded k inside => ?_) frameBuffer
    rw [List.mem_range] at inside
    exact shieldPixel_fits _ shielded (by omega)
  rw [shieldRow]
  simp only [throughout_bind, throughout_evaluate, throughout_pure, and_true]
  exact ⟨And.left, fun row => ⟨row, pixels, next⟩⟩

theorem visibleRows_fit_iff {clientBounds : WindowBounds} {stride : Int}
    (shown : ¬ (max 0 clientBounds.x ≥ min (width : Int) (clientBounds.x + clientBounds.width) ∨
      max 0 clientBounds.y ≥ min (height : Int) (clientBounds.y + clientBounds.height))) :
    (∀ k < (min (height : Int) (clientBounds.y + clientBounds.height) -
        max 0 clientBounds.y).toNat, Fits ((max 0 clientBounds.y + k) * stride)) ↔
      ∀ x y, Visible clientBounds width height x y → Fits (y * stride) := by
  constructor
  · intro rows x y visible
    rw [visible_iff] at visible
    have row := rows (y - max 0 clientBounds.y).toNat (by omega)
    rwa [show max 0 clientBounds.y + ((y - max 0 clientBounds.y).toNat : Int) = y by omega] at row
  · intro rows k below
    have row := rows (max 0 clientBounds.x).toNat (max 0 clientBounds.y + k).toNat
      ((visible_iff ..).mpr (by omega))
    rwa [Int.toNat_of_nonneg (by omega)] at row

/-- Unlike the detector, the shield computes nothing for a row that it leaves alone. -/
theorem applyMirrorShield_fits_iff (screen : Screen width height) (frame : List UInt8)
    (clientBounds : WindowBounds) :
    Throughout Fits (applyMirrorShield (some frame) width height clientBounds 4) ↔
      (clientBounds.isActive = true →
        (Fits (clientBounds.x + clientBounds.width) ∧
          Fits (clientBounds.y + clientBounds.height)) ∧
        ∀ x y, Visible clientBounds width height x y → Fits (y * (width * 4))) := by
  obtain ⟨⟨wide, narrow⟩, high, low⟩ := screen
  by_cases active : clientBounds.isActive = true
  · have proceed : ¬ ((width : Int) ≤ 0 ∨ (height : Int) ≤ 0 ∨ clientBounds.isActive = false) := by
      simp only [active, Bool.true_eq_false, or_false]
      omega
    have stride : Fits (width * 4) := by
      unfold Fits
      omega
    rw [applyMirrorShield, if_neg proceed]
    simp only [throughout_evaluate_bind, active, forall_const, and_assoc]
    refine and_congr_right fun right => and_congr_right fun bottom => ?_
    by_cases hidden : max 0 clientBounds.x ≥ min (width : Int) (clientBounds.x + clientBounds.width)
        ∨ max 0 clientBounds.y ≥ min (height : Int) (clientBounds.y + clientBounds.height)
    · rw [if_pos hidden]
      refine iff_of_true (throughout_pure Fits _) fun x y visible => ?_
      rw [visible_iff] at visible
      omega
    · rw [if_neg hidden, ← visibleRows_fit_iff hidden]
      simp only [throughout_bind, throughout_evaluate, value_evaluate, throughout_pure, stride,
        true_and, and_true]
      rw [throughout_foldlM (Q := fun k : Nat => Fits ((max 0 clientBounds.y + k) * (width * 4)))]
      · simp only [List.mem_range]
      · intro shielded k below
        rw [List.mem_range] at below
        exact shieldRow_fits_iff (by omega) (by omega) shielded
  · rw [Bool.not_eq_true] at active
    simp [applyMirrorShield, active]

/-! ### Both calls -/

def NoOverflow (prev curr : List UInt8) (width height : Nat) (clientBounds : WindowBounds) : Prop :=
  Throughout Fits (detectDirtyRegion (some prev) (some curr) width height 4) ∧
    Throughout Fits (applyMirrorShield (some curr) width height clientBounds 4)

/-- The pixels above the last row have to take fewer than `2 ^ 31` bytes, and an active
window has to end where an `int` can say it. -/
theorem noOverflow_iff (screen : Screen width height) (prev curr : List UInt8)
    (clientBounds : WindowBounds) :
    NoOverflow prev curr width height clientBounds ↔
      4 * width * (height - 1) < 2 ^ 31 ∧
        (clientBounds.isActive = true →
          (-2147483648 - clientBounds.x ≤ clientBounds.width ∧
            clientBounds.width ≤ 2147483647 - clientBounds.x) ∧
          -2147483648 - clientBounds.y ≤ clientBounds.height ∧
            clientBounds.height ≤ 2147483647 - clientBounds.y) := by
  have bytes : 4 * width * (height - 1) = (height - 1) * (width * 4) := by ring
  rw [NoOverflow, detectDirtyRegion_fits_iff screen, applyMirrorShield_fits_iff screen, bytes]
  refine and_congr_right fun small => forall_congr' fun active => ?_
  have rows : ∀ x y, Visible clientBounds width height x y → Fits (y * (width * 4)) :=
    fun x y visible => (rows_fit_iff screen).mpr small y visible.1.2
  rw [and_iff_left rows]
  unfold Fits
  omega

/-- The largest screen, on which nothing changes and no window is active. -/
theorem noOverflow_fails_on_largest_screen :
    Screen 32767 32767 ∧
      (List.replicate 4294705156 (0 : UInt8)).length = 32767 * 32767 * 4 ∧
      ¬ NoOverflow (List.replicate 4294705156 0) (List.replicate 4294705156 0) 32767 32767 {} := by
  have screen : Screen 32767 32767 := by decide
  refine ⟨screen, List.length_replicate, fun fits => ?_⟩
  have small := (detectDirtyRegion_fits_iff screen _ _).mp fits.1
  omega

theorem noOverflow_two_by_one :
    Screen 2 1 ∧
      NoOverflow [0, 0, 0, 0, 0, 0, 0, 0] [0, 0, 0, 0, 7, 0, 0, 0] 2 1 ⟨1, 0, 4, 4, true⟩ :=
  ⟨by decide, (noOverflow_iff (by decide) _ _ _).mpr (by decide)⟩

/-! ### Without an overflow nothing else is undefined -/

theorem int_bind {α : Type} {partly : Int → Option α} {f : Int → Evaluation Int α} (v : Int)
    (rest : partly v = defined Fits (f v)) :
    int v >>= partly = defined Fits (evaluate v >>= f) := by
  have same : int v = defined Fits (evaluate v) := (defined_evaluate Fits v).symm
  rw [same, defined_bind]
  simp only [defined_evaluate, Option.bind_eq_bind]
  split_ifs
  · exact rest
  · rfl

theorem store_bind {α : Type} {frameBuffer : List UInt8} {offset : Int}
    (inside : 0 ≤ offset ∧ offset < frameBuffer.length) (value : UInt8)
    (partly : List UInt8 → Option α) :
    store frameBuffer offset value >>= partly = partly (frameBuffer.set offset.toNat value) := by
  rw [store, if_pos inside]
  rfl

theorem defined_increment {α : Type} (m : Evaluation Int α) {v : Int} (fits : Fits v) :
    defined Fits (m >>= fun a => evaluate v >>= fun _ => return a) = defined Fits m := by
  have next : ∀ a : α, defined Fits (evaluate v >>= fun _ => return a) = some a := by
    intro a
    rw [defined_bind, defined_evaluate, if_pos fits, defined_pure]
    rfl
  rw [defined_bind]
  simp only [next]
  rw [Option.bind_eq_bind, Option.bind_fun_some]

variable {bytesPerPixel : Nat}

theorem shieldPixel_defined (format : bytesPerPixel = 3 ∨ bytesPerPixel = 4) (row x : Int)
    (frameBuffer : List UInt8) (start : 0 ≤ row + x * bytesPerPixel)
    (inside : row + x * bytesPerPixel + bytesPerPixel ≤ frameBuffer.length) (next : Fits (x + 1)) :
    MirrorShield.shieldPixel bytesPerPixel row frameBuffer x =
        defined Fits (shieldPixel bytesPerPixel row frameBuffer x) ∧
      (value (shieldPixel bytesPerPixel row frameBuffer x)).length = frameBuffer.length := by
  constructor
  · rw [MirrorShield.shieldPixel, shieldPixel]
    refine int_bind _ (int_bind _ ?_)
    rw [store_bind (by omega)]
    refine int_bind _ ?_
    rw [store_bind (by rw [List.length_set]; omega)]
    refine int_bind _ ?_
    rw [store_bind (by rw [List.length_set, List.length_set]; omega)]
    rw [defined_increment _ next]
    obtain rfl | rfl := format
    · rfl
    · have alpha : ((4 : Nat) : Int) = 4 := rfl
      rw [if_pos alpha, if_pos alpha]
      refine int_bind _ ?_
      rw [store, if_pos (by simp only [List.length_set]; omega), defined_pure]
  · obtain rfl | rfl := format <;> simp [shieldPixel]

theorem framePixel_defined (format : bytesPerPixel = 3 ∨ bytesPerPixel = 4) (wide : Fits width)
    {x y : Nat} (left : x < width) (above : y < height) {frameBuffer : List UInt8}
    (size : frameBuffer.length = width * height * bytesPerPixel) :
    MirrorShield.shieldPixel bytesPerPixel (y * (width * bytesPerPixel)) frameBuffer x =
        defined Fits (shieldPixel bytesPerPixel (y * (width * bytesPerPixel)) frameBuffer x) ∧
      (value (shieldPixel bytesPerPixel (y * (width * bytesPerPixel)) frameBuffer x)).length =
        width * height * bytesPerPixel := by
  have fits : place width bytesPerPixel x y + bytesPerPixel ≤ width * height * bytesPerPixel :=
    place_fits left above
  have position : (y : Int) * (width * bytesPerPixel) + x * bytesPerPixel =
      place width bytesPerPixel x y := by
    rw [place]
    push_cast
    ring
  have next : Fits (x + 1) := by
    unfold Fits at wide ⊢
    omega
  obtain ⟨same, length⟩ := shieldPixel_defined format (y * (width * bytesPerPixel)) x frameBuffer
    (by omega) (by omega) next
  exact ⟨same, length.trans size⟩

theorem shieldRow_defined (format : bytesPerPixel = 3 ∨ bytesPerPixel = 4)
    (wide : Fits width) (high : Fits height) {startX endX y : Int}
    (columns : 0 ≤ startX ∧ endX ≤ width) (rows : 0 ≤ y ∧ y < height) {frameBuffer : List UInt8}
    (size : frameBuffer.length = width * height * bytesPerPixel) :
    MirrorShield.shieldRow startX endX bytesPerPixel (width * bytesPerPixel) frameBuffer y =
        defined Fits
          (shieldRow startX endX bytesPerPixel (width * bytesPerPixel) frameBuffer y) ∧
      (value (shieldRow startX endX bytesPerPixel (width * bytesPerPixel) frameBuffer y)).length =
        width * height * bytesPerPixel := by
  obtain ⟨y, rfl⟩ := Int.eq_ofNat_of_zero_le rows.1
  have pixels := foldlM_defined (P := Fits)
    (I := fun shielded : List UInt8 => shielded.length = width * height * bytesPerPixel)
    (fun shielded size (k : Nat) (below : k ∈ List.range (endX - startX).toNat) => by
      rw [List.mem_range] at below
      obtain ⟨x, column⟩ := Int.eq_ofNat_of_zero_le (show 0 ≤ startX + k by omega)
      have pixel := @framePixel_defined width height _ format wide x y (by omega) (by omega) _ size
      rwa [← column] at pixel) size
  have next : Fits ((y : Int) + 1) := by
    unfold Fits at high ⊢
    omega
  refine ⟨?_, pixels.2⟩
  rw [MirrorShield.shieldRow, shieldRow]
  refine int_bind _ ?_
  rw [defined_increment _ next]
  exact pixels.1

theorem applyMirrorShield_defined (format : bytesPerPixel = 3 ∨ bytesPerPixel = 4)
    (wide : Fits width) (high : Fits height) {frame : List UInt8}
    (size : frame.length = width * height * bytesPerPixel) (clientBounds : WindowBounds) :
    MirrorShield.applyMirrorShield (some frame) width height clientBounds bytesPerPixel =
      defined Fits
        (applyMirrorShield (some frame) width height clientBounds bytesPerPixel) := by
  rw [MirrorShield.applyMirrorShield, applyMirrorShield]
  by_cases idle : (width : Int) ≤ 0 ∨ (height : Int) ≤ 0 ∨ clientBounds.isActive = false
  · rw [if_pos idle, if_pos idle, defined_pure]
  rw [if_neg idle, if_neg idle]
  refine int_bind _ (int_bind _ ?_)
  by_cases hidden : max 0 clientBounds.x ≥ min (width : Int) (clientBounds.x + clientBounds.width)
      ∨ max 0 clientBounds.y ≥ min (height : Int) (clientBounds.y + clientBounds.height)
  · rw [if_pos hidden, if_pos hidden, defined_pure]
    rfl
  rw [if_neg hidden, if_neg hidden]
  refine int_bind _ ?_
  rw [defined_bind]
  simp only [defined_pure]
  rw [(foldlM_defined (P := Fits)
    (I := fun shielded => shielded.length = width * height * bytesPerPixel)
    (fun shielded size k below => ?_) size).1]
  · rfl
  · rw [List.mem_range] at below
    exact shieldRow_defined format wide high (by omega) (by omega) size

theorem applyMirrorShield_ne_none_iff (screen : Screen width height) {frame : List UInt8}
    (size : frame.length = width * height * 4) (clientBounds : WindowBounds) :
    MirrorShield.applyMirrorShield (some frame) width height clientBounds 4 ≠ none ↔
      (clientBounds.isActive = true →
        (Fits (clientBounds.x + clientBounds.width) ∧
          Fits (clientBounds.y + clientBounds.height)) ∧
        ∀ x y, Visible clientBounds width height x y → Fits (y * (width * 4))) := by
  have ints : Fits width ∧ Fits height := by
    unfold Fits
    unfold Screen at screen
    omega
  have outcome := @applyMirrorShield_defined width height 4 (.inr rfl) ints.1 ints.2 frame size
    clientBounds
  rw [← applyMirrorShield_fits_iff screen frame clientBounds, ← defined_ne_none_iff]
  exact not_congr (Eq.congr_left outcome)

/-! ### The capture of a screen -/

variable {width height : UInt32}

/-- The offset of a row in the frame, as the loop that fills it computes it. -/
def dstRow (width y : UInt32) : UInt32 := y * width * 4

def bufferSize (width height : UInt32) : UInt32 := width * 4 * height

/-- The frame is filled in unsigned arithmetic, which is wide enough for every screen. -/
theorem dstRow_toNat (screen : Screen width.toNat height.toNat) {y : UInt32}
    (above : y.toNat < height.toNat) :
    (dstRow width y).toNat = y.toNat * (width.toNat * 4) := by
  obtain ⟨⟨-, narrow⟩, -, low⟩ := screen
  have area : y.toNat * width.toNat ≤ 32766 * 32767 := Nat.mul_le_mul (by omega) narrow
  have four : (4 : UInt32).toNat = 4 := rfl
  rw [dstRow, UInt32.toNat_mul, UInt32.toNat_mul, four, Nat.mod_eq_of_lt (by omega : _ < 2 ^ 32),
    Nat.mod_eq_of_lt (by omega), Nat.mul_assoc]

theorem bufferSize_toNat (screen : Screen width.toNat height.toNat)
    (ximage : ScreenCapture.XImage) :
    (bufferSize width height).toNat = (ximage.pixels width height).length := by
  obtain ⟨⟨-, narrow⟩, -, low⟩ := screen
  have area : width.toNat * 4 * height.toNat ≤ 32767 * 4 * 32767 :=
    Nat.mul_le_mul (by omega) low
  have four : (4 : UInt32).toNat = 4 := rfl
  have stride : width.toNat * 4 % 2 ^ 32 = width.toNat * 4 := Nat.mod_eq_of_lt (by omega)
  rw [bufferSize, UInt32.toNat_mul, UInt32.toNat_mul, four, stride,
    Nat.mod_eq_of_lt (by omega), ScreenCapture.length_pixels, Nat.mul_comm 4]

/-- The detector reads the same frame in `int` arithmetic, which is not. -/
theorem captureSingleFrame_fits_iff (capture : ScreenCapture.Capture)
    (screen : Screen capture.width.toNat capture.height.toNat) (ximage : ScreenCapture.XImage) :
    Throughout Fits (detectDirtyRegion (some capture.prevFrameData)
        (some (ximage.pixels capture.width capture.height)) capture.width.toInt32.toInt
        capture.height.toInt32.toInt 4) ↔
      (capture.height.toNat - 1) * (capture.width.toNat * 4) < 2 ^ 31 := by
  have sides : capture.width.toNat < 2 ^ 31 ∧ capture.height.toNat < 2 ^ 31 := by
    unfold Screen at screen
    omega
  rw [toInt_toInt32_of_lt sides.1, toInt_toInt32_of_lt sides.2]
  exact detectDirtyRegion_fits_iff screen _ _

end RemoteAccess.FrameIndexing