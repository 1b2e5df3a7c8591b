import RemoteAccess.AgentServer
import RemoteAccess.DirtyRegion

/-! `LinuxX11Capture::captureSingleFrame`: the screen as RGBA, unless it is what the
last capture of it was. -/

namespace RemoteAccess.ScreenCapture

open AgentPacketHandler (toInt_toInt32_of_lt)
open AgentServer (FrameData)
open DirtyRegion (detectDirtyRegion)

/-- What `XGetImage` returns, as far as it is read. -/
structure XImage where
  data : List UInt8
  bytesPerLine : Nat
  bitsPerPixel : Nat

structure Capture where
  width : UInt32
  height : UInt32
  frameCounter : UInt64
  prevFrameData : List UInt8

/-- `initialize` on an open display of this size. -/
def Capture.initialized (width height : UInt32) : Capture :=
  { width := width, height := height, frameCounter := 0, prevFrameData := [] }

/-- The four bytes that one round of the loop over `x` writes. -/
def XImage.pixel (ximage : XImage) (y x : Nat) : List UInt8 :=
  let bpp := ximage.bitsPerPixel / 8
  let srcRow := ximage.data.drop (y * ximage.bytesPerLine)
  let b := srcRow.getD (x * bpp + 0) 0
  let g := srcRow.getD (x * bpp + 1) 0
  let r := srcRow.getD (x * bpp + 2) 0
  [r, g, b, 0xFF]

/-- The rows are written one after the other. No offset leaves 32 bits on a screen of
at most 32767 pixels a side. -/
def XImage.pixels (ximage : XImage) (width height : UInt32) : List UInt8 :=
  (List.range height.toNat).flatMap fun y => (List.range width.toNat).flatMap fun x =>
    ximage.pixel y x

/-- `0xFF1E1E2E` in every pixel. -/
def testPattern (width height : UInt32) : List UInt8 :=
  (List.replicate (width.toNat * height.toNat) [0x2E, 0x1E, 0x1E, 0xFF]).flatten

/-- `timestampUs` is the clock's and `ximage` what `XGetImage` gives. -/
def captureSingleFrame (capture : Capture) (timestampUs : UInt64) (ximage : Option XImage) :
    Option FrameData × Capture :=
  let capture := { capture with frameCounter := capture.frameCounter + 1 }
  let frame (pixelData : List UInt8) : FrameData :=
    { width := capture.width
      height := capture.height
      pixelData := pixelData
      frameNumber := capture.frameCounter
      timestampUs := timestampUs }
  match ximage with
  | none => (some (frame (testPattern capture.width capture.height)), capture)
  | some ximage =>
    let pixelData := ximage.pixels capture.width capture.height
    if ¬ capture.prevFrameData.isEmpty ∧ capture.prevFrameData.length = pixelData.length ∧
        ¬ (detectDirtyRegion (some capture.prevFrameData) (some pixelData)
          capture.width.toInt32.toInt capture.height.toInt32.toInt 4).isDirty then
      (none, capture)
    else (some (frame pixelData), { capture with prevFrameData := pixelData })

/-! ### The picture -/

variable (ximage : XImage) {width height : UInt32}

theorem length_pixel (y x : Nat) : (ximage.pixel y x).length = 4 := rfl

theorem length_row (width : UInt32) (y : Nat) :
    ((List.range width.toNat).flatMap fun x => ximage.pixel y x).length = 4 * width.toNat := by
  rw [Blocks.length_flatMap fun x _ => length_pixel ximage y x, List.length_range]

theorem length_pixels :
    (ximage.pixels width height).length = 4 * width.toNat * height.toNat := by
  rw [XImage.pixels, Blocks.length_flatMap fun y _ => length_row ximage width y, List.length_range]

structure Depicts (frame : FrameData) : Prop where
  size : frame.pixelData.length = 4 * frame.width.toNat * frame.height.toNat
  pixel : ∀ y < frame.height.toNat, ∀ x < frame.width.toNat,
    (frame.pixelData.drop (4 * (frame.width.toNat * y + x))).take 4 = ximage.pixel y x

theorem pixels_depict {frame : FrameData}
    (pixelData : frame.pixelData = ximage.pixels frame.width frame.height) :
    Depicts ximage frame where
  size := by rw [pixelData, length_pixels]
  pixel := by
    intro y below x inside
    have rows : y < (List.range frame.height.toNat).length := by rwa [List.length_range]
    have columns : x < (List.range frame.width.toNat).length := by rwa [List.length_range]
    have row := Blocks.slice_flatMap (fun y _ => length_row ximage frame.width y) rows
    have here := Blocks.slice_flatMap (fun x _ => length_pixel ximage y x) columns
    rw [List.getElem_range] at row here
    rw [← here, ← row, ← XImage.pixels, ← pixelData, List.drop_take, List.take_take,
      Nat.min_eq_left (by omega), List.drop_drop]
    congr 2
    ring

/-! ### When a frame is skipped -/

def Unchanged (capture : Capture) (ximage : XImage) : Prop :=
  capture.prevFrameData ≠ [] ∧
    capture.prevFrameData = ximage.pixels capture.width capture.height

instance (capture : Capture) (ximage : XImage) : Decidable (Unchanged capture ximage) :=
  inferInstanceAs (Decidable (_ ∧ _))

variable {ximage} {capture : Capture}

theorem isDirty_pixels (small : 4 * (capture.width.toNat * capture.height.toNat) < 2 ^ 31)
    (filled : capture.prevFrameData ≠ [])
    (size : capture.prevFrameData.length = (ximage.pixels capture.width capture.height).length) :
    (detectDirtyRegion (some capture.prevFrameData)
        (some (ximage.pixels capture.width capture.height)) capture.width.toInt32.toInt
        capture.height.toInt32.toInt 4).isDirty = true ↔
      capture.prevFrameData ≠ ximage.pixels capture.width capture.height := by
  have total : (ximage.pixels capture.width capture.height).length =
      capture.width.toNat * capture.height.toNat * 4 := by
    rw [length_pixels]
    ring
  have positive : 0 < capture.width.toNat * capture.height.toNat := by
    have := List.length_pos_of_ne_nil filled
    omega
  have wide := Nat.le_mul_of_pos_right capture.width.toNat (Nat.pos_of_mul_pos_left positive)
  have high := Nat.le_mul_of_pos_left capture.height.toNat (Nat.pos_of_mul_pos_right positive)
  rw [toInt_toInt32_of_lt (by omega), toInt_toInt32_of_lt (by omega)]
  exact DirtyRegion.isDirty_iff (size.trans total) total

theorem skips_iff (small : 4 * (capture.width.toNat * capture.height.toNat) < 2 ^ 31) :
    (¬ capture.prevFrameData.isEmpty = true ∧
        capture.prevFrameData.length = (ximage.pixels capture.width capture.height).length ∧
        ¬ (detectDirtyRegion (some capture.prevFrameData)
            (some (ximage.pixels capture.width capture.height)) capture.width.toInt32.toInt
            capture.height.toInt32.toInt 4).isDirty = true) ↔ Unchanged capture ximage := by
  rw [Unchanged, List.isEmpty_iff]
  refine and_congr_right fun filled => ?_
  constructor
  · rintro ⟨size, clean⟩
    by_contra changed
    exact clean ((isDirty_pixels small filled size).mpr changed)
  · intro same
    have size := congrArg List.length same
    exact ⟨size, fun dirty => (isDirty_pixels small filled size).mp dirty same⟩

theorem captureSingleFrame_some (timestampUs : UInt64)
    (small : 4 * (capture.width.toNat * capture.height.toNat) < 2 ^ 31) :
    captureSingleFrame capture timestampUs (some ximage) =
      if Unchanged capture ximage then
        (none, { capture with frameCounter := capture.frameCounter + 1 })
      else
        (some
          { width := capture.width
            height := capture.height
            pixelData := ximage.pixels capture.width capture.height
            frameNumber := capture.frameCounter + 1
            timestampUs := timestampUs },
          { capture with
            frameCounter := capture.frameCounter + 1
            prevFrameData := ximage.pixels capture.width capture.height }) := by
  simp only [captureSingleFrame, skips_iff small]

end RemoteAccess.ScreenCapture
