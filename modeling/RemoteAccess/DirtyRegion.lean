import RemoteAccess.Basics.Blocks
import RemoteAccess.Basics.Raster
import RemoteAccess.Basics.RunningBounds

/-! `DirtyRegionDetector`: the rectangle of the pixels in which two frames of one
size differ, from running minima and maxima over the rows that differ. -/

namespace RemoteAccess.DirtyRegion

open Raster RunningBounds

structure DirtyRect where
  x : Int := 0
  y : Int := 0
  width : Int := 0
  height : Int := 0
  isDirty : Bool := false
deriving DecidableEq, Repr

structure Bounds where
  minX : Int
  minY : Int
  maxX : Int
  maxY : Int

/-- `memcmp(prev + offset, curr + offset, count) != 0`, inside both buffers. -/
def differ (prev curr : List UInt8) (offset count : Int) : Bool :=
  decide ((prev.drop offset.toNat).take count.toNat ≠ (curr.drop offset.toNat).take count.toNat)

/-- One round of the loop over `x`. -/
def scanPixel (prevRow currRow : List UInt8) (bytesPerPixel : Int) (bounds : Bounds) (x : Nat) :
    Bounds :=
  let offset := x * bytesPerPixel
  if differ prevRow currRow offset bytesPerPixel then
    { bounds with minX := min bounds.minX x, maxX := max bounds.maxX (x + 1) }
  else bounds

/-- One round of the loop over `y`. -/
def scanRow (prevFrame currFrame : List UInt8) (width bytesPerPixel : Int) (bounds : Bounds)
    (y : Nat) : Bounds :=
  let stride := width * bytesPerPixel
  let prevRow := prevFrame.drop (y * stride).toNat
  let currRow := currFrame.drop (y * stride).toNat
  if differ prevRow currRow 0 stride then
    (List.range width.toNat).foldl (scanPixel prevRow currRow bytesPerPixel)
      { bounds with minY := min bounds.minY y, maxY := max bounds.maxY (y + 1) }
  else bounds

/-- The rectangle made of the loop variables after the loops. -/
def Bounds.rect (width height : Int) (bounds : Bounds) : DirtyRect :=
  if bounds.minX ≤ bounds.maxX ∧ bounds.minY ≤ bounds.maxY then
    { x := bounds.minX
      y := bounds.minY
      width := min (width - bounds.minX) (bounds.maxX - bounds.minX)
      height := min (height - bounds.minY) (bounds.maxY - bounds.minY)
      isDirty := true }
  else {}

/-- `none` is a null frame. The arithmetic is exact while a frame has fewer than
`2 ^ 31` bytes. -/
def detectDirtyRegion (prevFrame currFrame : Option (List UInt8))
    (width height bytesPerPixel : Int) : DirtyRect :=
  match currFrame with
  | none => {}
  | some currFrame =>
    if width ≤ 0 ∨ height ≤ 0 then {} else
    match prevFrame with
    | none => { x := 0, y := 0, width := width, height := height, isDirty := true }
    | some prevFrame =>
      ((List.range height.toNat).foldl (scanRow prevFrame currFrame width bytesPerPixel)
        ⟨width, height, -1, -1⟩).rect width height

/-! ### What the loops find -/

variable (prev curr : List UInt8) (width height bytesPerPixel : Nat)

def Differs (x y : Nat) : Prop :=
  differ (prev.drop (y * (width * bytesPerPixel))) (curr.drop (y * (width * bytesPerPixel)))
    (x * bytesPerPixel : Nat) bytesPerPixel = true

variable {prev curr width height bytesPerPixel}

theorem differ_iff {offset count : Nat} : differ prev curr offset count = true ↔
    (prev.drop offset).take count ≠ (curr.drop offset).take count := by
  simp [differ]

theorem differ_row : differ prev curr 0 (width * bytesPerPixel : Nat) = true ↔
    ∃ x < width, differ prev curr (x * bytesPerPixel : Nat) bytesPerPixel = true := by
  have whole := Blocks.take_eq_iff_slices bytesPerPixel width prev curr
  rw [← Int.natCast_zero, differ_iff, List.drop_zero, List.drop_zero, Nat.mul_comm width, Ne, whole]
  simp only [differ_iff, Nat.mul_comm _ bytesPerPixel, Ne, not_forall, exists_prop]

theorem scanPixels_spans (prev curr : List UInt8) (bytesPerPixel : Nat) (bounds : Bounds)
    {Seen : Nat → Prop} (count : Nat) (le : count ≤ width)
    (before : Spans Seen width bounds.minX bounds.maxX) :
    ∃ after, (List.range count).foldl (scanPixel prev curr bytesPerPixel) bounds = after ∧
      after.minY = bounds.minY ∧ after.maxY = bounds.maxY ∧
      Spans (fun x => Seen x ∨
          x < count ∧ differ prev curr (x * bytesPerPixel : Nat) bytesPerPixel = true)
        width after.minX after.maxX := by
  induction count with
  | zero => exact ⟨bounds, rfl, rfl, rfl, before.congr (by simp)⟩
  | succ count ih =>
    obtain ⟨after, scanned, minY, maxY, spans⟩ := ih (Nat.le_of_succ_le le)
    rw [List.range_succ, List.foldl_append, scanned, List.foldl_cons, List.foldl_nil]
    refine ⟨_, rfl, ?_⟩
    rw [scanPixel, ← Int.natCast_mul]
    split_ifs with here
    · refine ⟨minY, maxY, (spans.widen (k := count) (by omega)).congr ?_⟩
      grind
    · refine ⟨minY, maxY, spans.congr ?_⟩
      grind

structure Scanned (prev curr : List UInt8) (width height bytesPerPixel count : Nat)
    (bounds : Bounds) : Prop where
  columns : Spans (fun x => x < width ∧ ∃ y < count, Differs prev curr width bytesPerPixel x y)
    width bounds.minX bounds.maxX
  rows : Spans (fun y => y < count ∧ ∃ x < width, Differs prev curr width bytesPerPixel x y)
    height bounds.minY bounds.maxY

theorem Scanned.row {count : Nat} {bounds after : Bounds}
    (before : Scanned prev curr width height bytesPerPixel count bounds) (inside : count < height)
    (found : ∃ x < width, Differs prev curr width bytesPerPixel x count)
    (minY : after.minY = min bounds.minY count) (maxY : after.maxY = max bounds.maxY (count + 1))
    (columns : Spans (fun x => (x < width ∧
          ∃ y < count, Differs prev curr width bytesPerPixel x y) ∨
        x < width ∧ Differs prev curr width bytesPerPixel x count) width after.minX after.maxX) :
    Scanned prev curr width height bytesPerPixel (count + 1) after where
  columns := columns.congr fun x => by rw [Nat.exists_lt_succ_right, and_or_left]
  rows := by
    rw [minY, maxY]
    refine (before.rows.widen (Int.ofNat_lt.mpr inside)).congr fun y => ?_
    rw [Nat.lt_succ_iff_lt_or_eq, or_and_right]
    refine or_congr Iff.rfl ⟨And.left, ?_⟩
    rintro rfl
    exact ⟨rfl, found⟩

theorem Scanned.sameRow {count : Nat} {bounds : Bounds}
    (before : Scanned prev curr width height bytesPerPixel count bounds)
    (same : ∀ x < width, ¬ Differs prev curr width bytesPerPixel x count) :
    Scanned prev curr width height bytesPerPixel (count + 1) bounds where
  columns := by
    refine before.columns.congr fun x => and_congr_right fun inside => ?_
    rw [Nat.exists_lt_succ_right, or_iff_left (same x inside)]
  rows := by
    refine before.rows.congr fun y => and_congr_left ?_
    rintro ⟨x, inside, differs⟩
    have other : y ≠ count := by
      rintro rfl
      exact same x inside differs
    omega

theorem scanRow_scanned {count : Nat} {bounds : Bounds} (inside : count < height)
    (before : Scanned prev curr width height bytesPerPixel count bounds) :
    Scanned prev curr width height bytesPerPixel (count + 1)
      (scanRow prev curr width bytesPerPixel bounds count) := by
  rw [scanRow]
  simp only [← Int.natCast_mul, Int.toNat_natCast]
  split_ifs with row
  · obtain ⟨after, scanned, minY, maxY, columns⟩ :=
      scanPixels_spans (prev.drop (count * (width * bytesPerPixel)))
        (curr.drop (count * (width * bytesPerPixel))) bytesPerPixel
        { bounds with minY := min bounds.minY count, maxY := max bounds.maxY (count + 1) }
        width (Nat.le_refl _) before.columns
    rw [scanned]
    exact before.row inside (differ_row.mp row) minY maxY columns
  · exact before.sameRow fun x inside differs => row (differ_row.mpr ⟨x, inside, differs⟩)

theorem scanRows_scanned (count : Nat) (le : count ≤ height) :
    Scanned prev curr width height bytesPerPixel count
      ((List.range count).foldl (scanRow prev curr width bytesPerPixel)
        ⟨width, height, -1, -1⟩) := by
  induction count with
  | zero => exact ⟨spans_nothing (by simp) _, spans_nothing (by simp) _⟩
  | succ count ih =>
    rw [List.range_succ, List.foldl_append, List.foldl_cons, List.foldl_nil]
    exact scanRow_scanned le (ih (Nat.le_of_succ_le le))

theorem Scanned.found_iff {bounds : Bounds}
    (scanned : Scanned prev curr width height bytesPerPixel height bounds) :
    bounds.minX ≤ bounds.maxX ∧ bounds.minY ≤ bounds.maxY ↔
      ∃ y < height, ∃ x < width, Differs prev curr width bytesPerPixel x y := by
  rw [scanned.columns.le_iff (Int.natCast_nonneg _), scanned.rows.le_iff (Int.natCast_nonneg _)]
  constructor
  · rintro ⟨-, y, below, x, inside, differs⟩
    exact ⟨y, below, x, inside, differs⟩
  · rintro ⟨y, below, x, inside, differs⟩
    exact ⟨⟨x, inside, y, below, differs⟩, y, below, x, inside, differs⟩

theorem Bounds.isDirty_rect (width height : Int) (bounds : Bounds) :
    (bounds.rect width height).isDirty = true ↔
      bounds.minX ≤ bounds.maxX ∧ bounds.minY ≤ bounds.maxY := by
  rw [rect]
  split_ifs with found <;> simp [found]

theorem ne_iff_differs (sizePrev : prev.length = width * height * bytesPerPixel)
    (sizeCurr : curr.length = width * height * bytesPerPixel) :
    prev ≠ curr ↔ ∃ y < height, ∃ x < width, Differs prev curr width bytesPerPixel x y := by
  have whole := Blocks.take_eq_iff_slices (width * bytesPerPixel) height prev curr
  rw [Nat.mul_right_comm, ← sizePrev, List.take_length, sizePrev, ← sizeCurr,
    List.take_length] at whole
  have row : ∀ y, (∃ x < width, Differs prev curr width bytesPerPixel x y) ↔
      (prev.drop (width * bytesPerPixel * y)).take (width * bytesPerPixel) ≠
        (curr.drop (width * bytesPerPixel * y)).take (width * bytesPerPixel) := by
    intro y
    simp only [Differs]
    rw [← differ_row, ← Int.natCast_zero, differ_iff, List.drop_zero, List.drop_zero,
      Nat.mul_comm y]
  simp only [Ne, whole, row, not_forall, exists_prop]

theorem isDirty_iff (sizePrev : prev.length = width * height * bytesPerPixel)
    (sizeCurr : curr.length = width * height * bytesPerPixel) :
    (detectDirtyRegion (some prev) (some curr) width height bytesPerPixel).isDirty = true ↔
      prev ≠ curr := by
  rw [ne_iff_differs sizePrev sizeCurr, detectDirtyRegion]
  by_cases empty : width = 0 ∨ height = 0
  · rw [if_pos (by omega)]
    refine iff_of_false (by simp) ?_
    rintro ⟨y, below, x, inside, -⟩
    omega
  · rw [if_neg (by omega), Bounds.isDirty_rect]
    exact (scanRows_scanned height (Nat.le_refl _)).found_iff

/-! ### The rectangle around the change -/

def PixelDiffers (prev curr : List UInt8) (width bytesPerPixel x y : Nat) : Prop :=
  ∃ c < bytesPerPixel, prev[place width bytesPerPixel x y + c]? ≠
    curr[place width bytesPerPixel x y + c]?

theorem differs_iff {x y : Nat} : Differs prev curr width bytesPerPixel x y ↔
    PixelDiffers prev curr width bytesPerPixel x y := by
  have start : y * (width * bytesPerPixel) + x * bytesPerPixel = place width bytesPerPixel x y := by
    rw [place, Nat.add_mul, Nat.mul_assoc]
  rw [Differs, differ_iff, List.drop_drop, List.drop_drop, start, Ne, Blocks.slice_eq_iff]
  simp only [PixelDiffers, not_forall, exists_prop, Ne]

/-- A rectangle inside the frame that holds every changed pixel and touches one with each
of its edges. -/
structure BoundingBox (Changed : Nat → Nat → Prop) (width height : Nat) (rect : DirtyRect) :
    Prop where
  inside : (0 ≤ rect.x ∧ rect.x + rect.width ≤ width) ∧
    0 ≤ rect.y ∧ rect.y + rect.height ≤ height
  holds : ∀ x < width, ∀ y < height, Changed x y →
    (rect.x ≤ x ∧ x < rect.x + rect.width) ∧ rect.y ≤ y ∧ y < rect.y + rect.height
  left : ∃ x < width, ∃ y < height, Changed x y ∧ (x : Int) = rect.x
  right : ∃ x < width, ∃ y < height, Changed x y ∧ (x : Int) + 1 = rect.x + rect.width
  top : ∃ x < width, ∃ y < height, Changed x y ∧ (y : Int) = rect.y
  bottom : ∃ x < width, ∃ y < height, Changed x y ∧ (y : Int) + 1 = rect.y + rect.height

theorem Bounds.rect_boundingBox {bounds : Bounds}
    (scanned : Scanned prev curr width height bytesPerPixel height bounds)
    (found : bounds.minX ≤ bounds.maxX ∧ bounds.minY ≤ bounds.maxY) :
    BoundingBox (Differs prev curr width bytesPerPixel) width height
      (bounds.rect width height) := by
  obtain ⟨y₀, below, x₀, before, differs⟩ := scanned.found_iff.mp found
  have someColumn :
      ¬ ∀ x, ¬ (x < width ∧ ∃ y < height, Differs prev curr width bytesPerPixel x y) :=
    fun none => none x₀ ⟨before, y₀, below, differs⟩
  have someRow : ¬ ∀ y, ¬ (y < height ∧ ∃ x < width, Differs prev curr width bytesPerPixel x y) :=
    fun none => none y₀ ⟨below, x₀, before, differs⟩
  obtain ⟨x₁, ⟨inX₁, y₁, inY₁, differs₁⟩, minX⟩ :=
    scanned.columns.least.resolve_right fun none => someColumn none.1
  obtain ⟨x₂, ⟨inX₂, y₂, inY₂, differs₂⟩, maxX⟩ :=
    scanned.columns.greatest.resolve_right fun none => someColumn none.1
  obtain ⟨y₃, ⟨inY₃, x₃, inX₃, differs₃⟩, minY⟩ :=
    scanned.rows.least.resolve_right fun none => someRow none.1
  obtain ⟨y₄, ⟨inY₄, x₄, inX₄, differs₄⟩, maxY⟩ :=
    scanned.rows.greatest.resolve_right fun none => someRow none.1
  -- The edges never reach out of the frame, so the minima of `rect` are the extents.
  have columns : min ((width : Int) - bounds.minX) (bounds.maxX - bounds.minX) =
      bounds.maxX - bounds.minX := by omega
  have rows : min ((height : Int) - bounds.minY) (bounds.maxY - bounds.minY) =
      bounds.maxY - bounds.minY := by omega
  rw [Bounds.rect, if_pos found, columns, rows]
  constructor
  · dsimp only
    omega
  · intro x left y above changed
    have column := scanned.columns.within x ⟨left, y, above, changed⟩
    have row := scanned.rows.within y ⟨above, x, left, changed⟩
    dsimp only
    omega
  · exact ⟨x₁, inX₁, y₁, inY₁, differs₁, minX.symm⟩
  · exact ⟨x₂, inX₂, y₂, inY₂, differs₂, by dsimp only; omega⟩
  · exact ⟨x₃, inX₃, y₃, inY₃, differs₃, minY.symm⟩
  · exact ⟨x₄, inX₄, y₄, inY₄, differs₄, by dsimp only; omega⟩

theorem BoundingBox.smallest {Changed : Nat → Nat → Prop} {rect : DirtyRect}
    (box : BoundingBox Changed width height rect) {left right top bottom : Int}
    (holds : ∀ x < width, ∀ y < height, Changed x y →
      (left ≤ x ∧ x < right) ∧ top ≤ y ∧ y < bottom) :
    (left ≤ rect.x ∧ rect.x + rect.width ≤ right) ∧
      top ≤ rect.y ∧ rect.y + rect.height ≤ bottom := by
  obtain ⟨x₁, inX₁, y₁, inY₁, changed₁, edge₁⟩ := box.left
  obtain ⟨x₂, inX₂, y₂, inY₂, changed₂, edge₂⟩ := box.right
  obtain ⟨x₃, inX₃, y₃, inY₃, changed₃, edge₃⟩ := box.top
  obtain ⟨x₄, inX₄, y₄, inY₄, changed₄, edge₄⟩ := box.bottom
  have atLeft := holds x₁ inX₁ y₁ inY₁ changed₁
  have atRight := holds x₂ inX₂ y₂ inY₂ changed₂
  have atTop := holds x₃ inX₃ y₃ inY₃ changed₃
  have atBottom := holds x₄ inX₄ y₄ inY₄ changed₄
  omega

/-- The dirty rectangle is the smallest one around the pixels that differ. -/
theorem detectDirtyRegion_boundingBox (prev curr : List UInt8) (width height bytesPerPixel : Nat)
    (geometry : 1 ≤ width ∧ 1 ≤ height ∧ 1 ≤ bytesPerPixel)
    (sizePrev : prev.length = width * height * bytesPerPixel)
    (sizeCurr : curr.length = width * height * bytesPerPixel) :
    ∃ rect, detectDirtyRegion (some prev) (some curr) width height bytesPerPixel = rect ∧
      (rect.isDirty = true ↔ prev ≠ curr) ∧
      (rect.isDirty = true →
        BoundingBox (PixelDiffers prev curr width bytesPerPixel) width height rect ∧
        ∀ left right top bottom : Int,
          (∀ x < width, ∀ y < height, PixelDiffers prev curr width bytesPerPixel x y →
            (left ≤ x ∧ x < right) ∧ top ≤ y ∧ y < bottom) →
          (left ≤ rect.x ∧ rect.x + rect.width ≤ right) ∧
            top ≤ rect.y ∧ rect.y + rect.height ≤ bottom) := by
  have same : Differs prev curr width bytesPerPixel =
      PixelDiffers prev curr width bytesPerPixel :=
    funext fun x => funext fun y => propext differs_iff
  refine ⟨_, rfl, isDirty_iff sizePrev sizeCurr, ?_⟩
  rw [detectDirtyRegion, if_neg (by omega), Bounds.isDirty_rect, ← same]
  intro found
  have box := Bounds.rect_boundingBox (scanRows_scanned height (Nat.le_refl _)) found
  exact ⟨box, fun left right top bottom => box.smallest⟩

theorem detectDirtyRegion_boundingBox_corner :
    ∃ rect, detectDirtyRegion (some [0, 0, 0, 0]) (some [0, 0, 0, 7]) 2 2 1 = rect ∧
      rect = ⟨1, 1, 1, 1, true⟩ ∧ rect.x + rect.width ≤ 2 := by
  obtain ⟨rect, found, dirty, tight⟩ :=
    detectDirtyRegion_boundingBox [0, 0, 0, 0] [0, 0, 0, 7] 2 2 1 (by decide) rfl rfl
  have run : detectDirtyRegion (some [0, 0, 0, 0]) (some [0, 0, 0, 7]) 2 2 1 =
      ⟨1, 1, 1, 1, true⟩ := by decide
  exact ⟨rect, found, found.symm.trans run, (tight (dirty.mpr (by decide))).1.inside.1.2⟩

end RemoteAccess.DirtyRegion
