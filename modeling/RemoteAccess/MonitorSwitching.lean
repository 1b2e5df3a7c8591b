import RemoteAccess.ScreenCapture
import RemoteAccess.Basics.Transitions

/-! Capturing one screen after another on an open display. What a capture is compared with is
the bytes of the frame before it; how wide that frame was is not remembered. -/

namespace RemoteAccess.MonitorSwitching

open AgentServer (FrameData)
open ScreenCapture

structure Screen where
  width : UInt32
  height : UInt32

structure Display where
  screens : List Screen
  defaultScreen : Nat
  inside : defaultScreen < screens.length

structure MonitorInfo where
  monitorId : UInt32
  width : UInt32
  height : UInt32

/-- `rootWindow` is the number of the screen whose root window is captured. -/
structure Backend where
  capture : Capture
  activeMonitorId : UInt32
  rootWindow : Nat

variable (display : Display)

def initialized : Backend :=
  let screen := display.screens.get ⟨display.defaultScreen, display.inside⟩
  { capture := Capture.initialized screen.width screen.height
    activeMonitorId := 0
    rootWindow := display.defaultScreen }

def enumerateMonitors (s : Backend) : List MonitorInfo :=
  let monitors := display.screens.mapIdx fun i screen =>
    { monitorId := UInt32.ofNat i, width := screen.width, height := screen.height : MonitorInfo }
  if monitors.isEmpty then
    [{ monitorId := 0, width := s.capture.width, height := s.capture.height }]
  else monitors

def selectMonitor (s : Backend) (monitorId : UInt32) : Bool × Backend :=
  match (enumerateMonitors display s).find? (·.monitorId == monitorId) with
  | some mon =>
    (true,
      { capture := { s.capture with width := mon.width, height := mon.height }
        activeMonitorId := monitorId
        rootWindow :=
          if monitorId < UInt32.ofNat display.screens.length then monitorId.toNat
          else s.rootWindow })
  | none => (false, s)

/-! ### Switching and capturing -/

/-- `ximage` is what `XGetImage` gives at the time, of whatever screen is selected. -/
inductive Event
  | select (monitorId : UInt32)
  | capture (timestampUs : UInt64) (ximage : XImage)

structure State where
  backend : Backend
  lastFrame : Option FrameData

def start : State where
  backend := initialized display
  lastFrame := none

def captured (s : State) (timestampUs : UInt64) (ximage : XImage) : Option FrameData × Capture :=
  captureSingleFrame s.backend.capture timestampUs (some ximage)

def step (s : State) : Event → Option State
  | .select monitorId => some { s with backend := (selectMonitor display s.backend monitorId).2 }
  | .capture timestampUs ximage =>
    some
      { backend := { s.backend with capture := (captured s timestampUs ximage).2 }
        lastFrame := (captured s timestampUs ximage).1.or s.lastFrame }

/-- The last frame returned has the size of the current screen and shows what is on it. -/
def Shows (s : State) (ximage : XImage) : Prop :=
  ∃ frame, s.lastFrame = some frame ∧ frame.width = s.backend.capture.width ∧
    frame.height = s.backend.capture.height ∧
    frame.pixelData = ximage.pixels s.backend.capture.width s.backend.capture.height

/-- A skipped frame is the one returned last, and after a capture the last frame returned
shows the screen. -/
def Faithful (s : State) : Event → Prop
  | .select _ => True
  | .capture timestampUs ximage =>
    ((captured s timestampUs ximage).1 = none → Shows s ximage) ∧
      ∀ t, step display s (.capture timestampUs ximage) = some t → Shows t ximage

def Fits (s : State) : Event → Prop
  | .select _ => True
  | .capture _ _ =>
    4 * (s.backend.capture.width.toNat * s.backend.capture.height.toNat) < 2 ^ 31

instance (s : State) : (event : Event) → Decidable (Fits s event)
  | .select _ => inferInstanceAs (Decidable True)
  | .capture _ _ => inferInstanceAs (Decidable (_ < _))

/-- A screen of another shape than the frame returned last has other bytes. -/
def ShapeTold (s : State) : Event → Prop
  | .select _ => True
  | .capture _ ximage => ∀ frame, s.lastFrame = some frame →
    frame.pixelData = ximage.pixels s.backend.capture.width s.backend.capture.height →
    s.backend.capture.width.toNat * s.backend.capture.height.toNat ≠ 0 →
    frame.width = s.backend.capture.width ∧ frame.height = s.backend.capture.height

def Remembered (s : State) : Prop :=
  s.backend.capture.prevFrameData = ((s.lastFrame.map FrameData.pixelData).getD [])

theorem start_remembered : Remembered (start display) := by
  rw [Remembered]
  rfl

theorem select_kept (s : Backend) (monitorId : UInt32) :
    (selectMonitor display s monitorId).2.capture.prevFrameData = s.capture.prevFrameData := by
  unfold selectMonitor
  split <;> rfl

theorem captured_cases (s : State) (timestampUs : UInt64) (ximage : XImage) :
    (captured s timestampUs ximage).2.width = s.backend.capture.width ∧
    (captured s timestampUs ximage).2.height = s.backend.capture.height ∧
    ((captured s timestampUs ximage).1 = none ∧
        (captured s timestampUs ximage).2.prevFrameData = s.backend.capture.prevFrameData ∨
      ∃ frame, (captured s timestampUs ximage).1 = some frame ∧
        frame.width = s.backend.capture.width ∧ frame.height = s.backend.capture.height ∧
        frame.pixelData = ximage.pixels s.backend.capture.width s.backend.capture.height ∧
        (captured s timestampUs ximage).2.prevFrameData = frame.pixelData) := by
  simp only [captured, captureSingleFrame]
  split_ifs
  · exact ⟨rfl, rfl, .inl ⟨rfl, rfl⟩⟩
  · exact ⟨rfl, rfl, .inr ⟨_, rfl, rfl, rfl, rfl, rfl⟩⟩

variable {display}

theorem step_remembered {s t : State} {event : Event} (stepped : step display s event = some t)
    (remembered : Remembered s) : Remembered t := by
  cases event with
  | select monitorId =>
    rw [step, Option.some.injEq] at stepped
    rwa [← stepped, Remembered, select_kept]
  | capture timestampUs ximage =>
    rw [step, Option.some.injEq] at stepped
    obtain ⟨-, -, ⟨skipped, kept⟩ | ⟨frame, returned, -, -, -, kept⟩⟩ :=
      captured_cases s timestampUs ximage
    · rwa [← stepped, Remembered, kept, skipped]
    · rw [← stepped, Remembered, kept, returned]
      rfl

theorem skipped_iff {s : State} {timestampUs : UInt64} {ximage : XImage}
    (fits : Fits s (.capture timestampUs ximage)) :
    (captured s timestampUs ximage).1 = none ↔ Unchanged s.backend.capture ximage := by
  rw [captured, captureSingleFrame_some timestampUs fits]
  split_ifs with same <;> simp [same]

theorem shows_after_iff (s : State) (timestampUs : UInt64) (ximage : XImage) :
    (∀ t, step display s (.capture timestampUs ximage) = some t → Shows t ximage) ↔
      ((captured s timestampUs ximage).1 = none → Shows s ximage) := by
  obtain ⟨width, height, ⟨skipped, -⟩ | ⟨frame, returned, same_width, same_height, pixels, -⟩⟩ :=
    captured_cases s timestampUs ximage
  · simp only [step, skipped, Option.some.injEq, forall_eq', Option.none_or, true_imp_iff, Shows,
      width, height]
  · simp only [step, returned, Option.some.injEq, forall_eq', Option.some_or, reduceCtorEq,
      false_imp_iff, iff_true, Shows, width, height]
    exact ⟨frame, rfl, same_width, same_height, pixels⟩

theorem pixels_ne_nil_iff (ximage : XImage) (width height : UInt32) :
    ximage.pixels width height ≠ [] ↔ width.toNat * height.toNat ≠ 0 := by
  rw [← List.length_pos_iff, length_pixels, Nat.mul_assoc]
  omega

/-- A capture is faithful exactly when equal bytes come in an equal shape. -/
theorem faithful_iff {s : State} {event : Event} (remembered : Remembered s)
    (fits : Fits s event) : Faithful display s event ↔ ShapeTold s event := by
  cases event with
  | select monitorId => exact Iff.rfl
  | capture timestampUs ximage =>
    rw [Faithful, shows_after_iff, and_self, skipped_iff fits, ShapeTold, Unchanged, remembered]
    constructor
    · intro faithful frame last same filled
      have nonempty := (pixels_ne_nil_iff ximage _ _).mpr filled
      rw [last, Option.map_some, Option.getD_some, same] at faithful
      obtain ⟨shown, shown_last, width, height, -⟩ := faithful ⟨nonempty, rfl⟩
      obtain rfl := Option.some.inj (last.symm.trans shown_last)
      exact ⟨width, height⟩
    · rintro told ⟨filled, same⟩
      cases last : s.lastFrame with
      | none => rw [last] at filled; exact absurd rfl filled
      | some frame =>
        rw [last, Option.map_some, Option.getD_some] at filled same
        rw [same] at filled
        obtain ⟨width, height⟩ := told frame last same ((pixels_ne_nil_iff ximage _ _).mp filled)
        exact ⟨frame, last, width, height, same⟩

/-- Where the screens captured fit the detector, every capture of a run is faithful exactly when
none of a screen of another shape has the bytes of the last frame. -/
theorem capture_faithful_iff (display : Display) (events : List Event)
    (fits : Transitions.Throughout (step display) Fits (start display) events) :
    Transitions.Throughout (step display) (Faithful display) (start display) events ↔
      Transitions.Throughout (step display) ShapeTold (start display) events := by
  refine Transitions.throughout_congr Remembered (start_remembered display) step_remembered ?_
  intro before event after s split reached remembered
  exact faithful_iff remembered (fits before event after s split reached)

/-! ### A wide screen and a tall one -/

def wideAndTall : Display where
  screens := [⟨2, 1⟩, ⟨1, 2⟩]
  defaultScreen := 0
  inside := by decide

/-- Two black pixels side by side, then two white ones one above the other. -/
def blackThenWhite : List Event :=
  [.capture 0 ⟨List.replicate 8 0, 8, 32⟩, .select 1, .capture 1 ⟨List.replicate 8 0xFF, 4, 32⟩]

theorem capture_faithful_iff_white :
    Transitions.Throughout (step wideAndTall) (Faithful wideAndTall) (start wideAndTall)
      blackThenWhite := by
  have fits : Transitions.Throughout (step wideAndTall) Fits (start wideAndTall) blackThenWhite :=
    .cons (by decide) rfl (.cons trivial rfl (.cons (by decide) rfl Transitions.throughout_nil))
  refine (capture_faithful_iff wideAndTall blackThenWhite fits).mpr ?_
  refine .cons nofun rfl (.cons trivial rfl (.cons ?_ rfl Transitions.throughout_nil))
  intro frame last same
  obtain rfl := Option.some.inj last
  exact absurd same (by decide)

/-- Two black pixels side by side, then two black pixels one above the other. -/
def blackThenBlack : List Event :=
  [.capture 0 ⟨List.replicate 8 0, 8, 32⟩, .select 1, .capture 1 ⟨List.replicate 8 0, 4, 32⟩]

theorem blackThenBlack_fits :
    Transitions.Throughout (step wideAndTall) Fits (start wideAndTall) blackThenBlack := by
  refine Transitions.throughout_cons (by decide) fun s stepped => ?_
  obtain rfl := Option.some.inj stepped
  refine Transitions.throughout_cons trivial fun s stepped => ?_
  obtain rfl := Option.some.inj stepped
  exact Transitions.throughout_cons (by decide) fun _ _ => Transitions.throughout_nil

/-- The tall screen is skipped as if it were the wide one. -/
theorem tall_screen_skipped :
    ¬ ∀ (display : Display) (events : List Event),
      Transitions.Throughout (step display) Fits (start display) events →
      Transitions.Throughout (step display) (Faithful display) (start display) events := by
  intro claimed
  have faithful := claimed wideAndTall blackThenBlack blackThenBlack_fits
  obtain ⟨s, reached, skipped, wide, narrow⟩ : ∃ s,
      Transitions.run (step wideAndTall) (start wideAndTall)
        [.capture 0 ⟨List.replicate 8 0, 8, 32⟩, .select 1] = some s ∧
      (captured s 1 ⟨List.replicate 8 0, 4, 32⟩).1 = none ∧
      s.lastFrame.map FrameData.width = some 2 ∧ s.backend.capture.width = 1 :=
    ⟨_, rfl, by decide, by decide, by decide⟩
  obtain ⟨same, -⟩ := faithful _ (.capture 1 ⟨List.replicate 8 0, 4, 32⟩) [] s rfl reached
  obtain ⟨frame, last, width, -⟩ := same skipped
  rw [last, Option.map_some, width, narrow] at wide
  exact absurd wide (by decide)

end RemoteAccess.MonitorSwitching
