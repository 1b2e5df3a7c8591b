import RemoteAccess.InputPath
import RemoteAccess.LinuxX11Input

/-! From the viewport to the X server. The handlers of `inputArea` number the
kinds of event from 0, in the order `InputEventType` lists them from 1, so each
arrives as the kind before its own; and they number the right button 2 and the
middle one 3, where X has it the other way round. -/

namespace RemoteAccess.ViewerInput

open SealedMessage QtText History AgentPacketHandler SessionSend InputPath LinuxX11Input

inductive MouseButton
  | left
  | right
  | middle
deriving DecidableEq

/-- One thing the user does over the viewport. -/
inductive Action (Position : Type)
  | move (x y : Position)
  | press (button : MouseButton) (x y : Position)
  | release (button : MouseButton) (x y : Position)
  | wheel (x y : Position) (angleDeltaX angleDeltaY : Int32)
  | keyPress (nativeScanCode : UInt32)
  | keyRelease (nativeScanCode : UInt32)

structure Gesture (Position : Type) where
  action : Action Position
  modifiers : UInt32

/-- What the handlers look at before they send. -/
structure View where
  isConnected : Bool
  containsMouse : Bool
  chatActiveFocus : Bool

/-- A pointer over the viewport of a connected session. -/
def viewing : View := ⟨true, true, false⟩

variable {Position : Type} (toInt : Position → Int32)

/-- `btn` of `onPressed` and `onReleased`. -/
def btn : MouseButton → UInt32
  | .left => 1
  | .right => 2
  | .middle => 3

/-- The handlers of `inputArea`; `toInt` is the conversion of a QML coordinate to
`int32_t`. -/
def inputArea (view : View) (g : Gesture Position) : List InputCall :=
  let keys := view.isConnected && view.containsMouse && !view.chatActiveFocus
  match g.action with
  | .move x y => if view.isConnected then [⟨0, toInt x, toInt y, 0, 0, 0, g.modifiers⟩] else []
  | .press button x y =>
    if view.isConnected then [⟨1, toInt x, toInt y, btn button, 0, 0, g.modifiers⟩] else []
  | .release button x y =>
    if view.isConnected then [⟨2, toInt x, toInt y, btn button, 0, 0, g.modifiers⟩] else []
  | .wheel x y _ angleDeltaY =>
    if view.isConnected then [⟨3, toInt x, toInt y, 0, angleDeltaY, 0, g.modifiers⟩] else []
  | .keyPress nativeScanCode =>
    if keys then [⟨4, 0, 0, 0, 0, nativeScanCode, g.modifiers⟩] else []
  | .keyRelease nativeScanCode =>
    if keys then [⟨5, 0, 0, 0, 0, nativeScanCode, g.modifiers⟩] else []

/-! ### At the X server -/

/-- The agent's backend with a display it can inject into. -/
def openDisplay : Backend := ⟨false, true, true⟩

def injected : Effect → List XTestCall
  | .injectEvent event => injectEvent openDisplay event
  | _ => []

/-- What the X server gets for the gestures, through `sendInputEvent`, the
connection and `handleClientPacket`. -/
def hostCalls (oversized : Nat → UInt64) (host : Host) (c : Sender)
    (gestures : List (Gesture Position)) : List XTestCall :=
  let calls := gestures.flatMap (inputArea toInt viewing)
  let packets := (Call.performAll (calls.map InputCall.call) c).2
  let agent := (packets.map fun m => (m.message oversized).packet).foldl (collect oversized host)
    (remoteSocket, [])
  agent.2.flatMap injected

def seen (g : Gesture Position) : List XTestCall :=
  match g.action with
  | .move _ _ => []
  | .press _ x y => [.motionEvent (toInt x) (toInt y)]
  | .release button x y => [.motionEvent (toInt x) (toInt y), .buttonEvent (btn button) true]
  | .wheel _ _ _ _ => [.buttonEvent 0 false]
  | .keyPress _ => [.buttonEvent 5 true, .buttonEvent 5 false]
  | .keyRelease nativeScanCode =>
    if 0 < nativeScanCode then [.keyEvent nativeScanCode true] else []

theorem seen_eq (g : Gesture Position) :
    (inputArea toInt viewing g).flatMap (fun k => injectEvent openDisplay k.event) =
      seen toInt g := by
  obtain ⟨action, modifiers⟩ := g
  cases action <;> exact List.append_nil _

theorem hostCalls_eq (oversized : Nat → UInt64) (hasClipboard : Bool) (dynamicOtp : QString)
    {c : Sender} (connected : c.connected = true) (gestures : List (Gesture Position)) :
    hostCalls toInt oversized (mainHost hasClipboard dynamicOtp) c gestures =
      gestures.flatMap (seen toInt) := by
  simp only [hostCalls, foldl_collect oversized connected, List.nil_append, List.flatMap_map,
    List.flatMap_assoc]
  exact congrArg (gestures.flatMap ·) (funext fun g => seen_eq toInt g)

/-! ### What the user did -/

def xButton : MouseButton → UInt32
  | .left => 1
  | .middle => 2
  | .right => 3

def wheelButtons (angleDeltaX angleDeltaY : Int32) : List UInt32 :=
  (if 0 < angleDeltaY then [4] else if angleDeltaY < 0 then [5] else []) ++
    if 0 < angleDeltaX then [6] else if angleDeltaX < 0 then [7] else []

/-- The XTest calls that do at the host what the user did. Scan code 0 names no
key. -/
def corresponding (g : Gesture Position) : List XTestCall :=
  match g.action with
  | .move x y => [.motionEvent (toInt x) (toInt y)]
  | .press button x y =>
    [.motionEvent (toInt x) (toInt y), .buttonEvent (xButton button) true]
  | .release button _ _ => [.buttonEvent (xButton button) false]
  | .wheel _ _ angleDeltaX angleDeltaY =>
    (wheelButtons angleDeltaX angleDeltaY).flatMap fun button =>
      [.buttonEvent button true, .buttonEvent button false]
  | .keyPress nativeScanCode =>
    if 0 < nativeScanCode then [.keyEvent nativeScanCode true] else []
  | .keyRelease nativeScanCode =>
    if 0 < nativeScanCode then [.keyEvent nativeScanCode false] else []

def Gesture.moves (control : Control) (g : Gesture Position) : Option Bool :=
  match g.action with
  | .press button _ _ => if control = .button (xButton button) then some true else none
  | .release button _ _ => if control = .button (xButton button) then some false else none
  | .keyPress nativeScanCode => if control = .key nativeScanCode then some true else none
  | .keyRelease nativeScanCode => if control = .key nativeScanCode then some false else none
  | _ => none

/-- Every press has been released. -/
def Released (gestures : List (Gesture Position)) : Prop :=
  ∀ control, latest (Gesture.moves control) gestures ≠ some true

/-- The host saw what the user did, and nothing is stuck. -/
structure Mirrors (gestures : List (Gesture Position)) (calls : List XTestCall) : Prop where
  same : calls = gestures.flatMap (corresponding toInt)
  unstuck : Released gestures → ∀ control, ¬ Held calls control

section Kinds

variable {toInt} {g : Gesture Position}

theorem button_zero_not_corresponding (isPress : Bool) :
    .buttonEvent 0 isPress ∉ corresponding toInt g := by
  obtain ⟨action, modifiers⟩ := g
  cases action with
  | press button x y => cases button <;> simp [corresponding, xButton]
  | release button x y => cases button <;> simp [corresponding, xButton]
  | wheel x y angleDeltaX angleDeltaY =>
    simp only [corresponding, wheelButtons]
    split_ifs <;> simp
  | _ => simp [corresponding]

theorem button_release_not_seen (button : MouseButton) :
    .buttonEvent (xButton button) false ∉ seen toInt g := by
  obtain ⟨action, modifiers⟩ := g
  cases button <;> cases action <;> simp [seen, xButton]

theorem key_release_not_seen (nativeScanCode : UInt32) :
    .keyEvent nativeScanCode false ∉ seen toInt g := by
  obtain ⟨action, modifiers⟩ := g
  cases action <;> simp [seen]

theorem release_of_button_press_seen {button : MouseButton}
    (there : .buttonEvent (xButton button) true ∈ seen toInt g) :
    ∃ other x y, g.action = .release other x y := by
  obtain ⟨action, modifiers⟩ := g
  cases button <;> cases action <;> simp_all [seen, xButton]

theorem pointer_of_motion_seen {x y : Int32} (there : .motionEvent x y ∈ seen toInt g) :
    (∃ button x y, g.action = .press button x y) ∨
      ∃ button x y, g.action = .release button x y := by
  obtain ⟨action, modifiers⟩ := g
  cases action <;> simp_all [seen]

theorem wheel_of_click_corresponding (there : .buttonEvent 5 true ∈ corresponding toInt g) :
    ∃ x y angleDeltaX angleDeltaY, g.action = .wheel x y angleDeltaX angleDeltaY := by
  obtain ⟨action, modifiers⟩ := g
  cases action with
  | press button x y => cases button <;> simp [corresponding, xButton] at there
  | release button x y => simp [corresponding] at there
  | wheel x y angleDeltaX angleDeltaY => exact ⟨x, y, angleDeltaX, angleDeltaY, rfl⟩
  | _ => simp [corresponding] at there

end Kinds

variable {toInt} in
/-- The same calls for the whole come only from gestures that are nothing at
either end: what each kind becomes gives another kind away. -/
theorem silent_of_same {gestures : List (Gesture Position)}
    (same : gestures.flatMap (seen toInt) = gestures.flatMap (corresponding toInt)) :
    ∀ g ∈ gestures, g.action = .keyRelease 0 := by
  have moved : ∀ call, (∃ g ∈ gestures, call ∈ seen toInt g) ↔
      ∃ g ∈ gestures, call ∈ corresponding toInt g := by
    intro call
    rw [← List.mem_flatMap, ← List.mem_flatMap, same]
  have noWheel : ∀ g ∈ gestures, ∀ x y angleDeltaX angleDeltaY,
      g.action ≠ .wheel x y angleDeltaX angleDeltaY := by
    intro g member x y angleDeltaX angleDeltaY wheel
    obtain ⟨other, -, there⟩ :=
      (moved (.buttonEvent 0 false)).mp ⟨g, member, by simp [seen, wheel]⟩
    exact button_zero_not_corresponding false there
  have noRelease : ∀ g ∈ gestures, ∀ button x y, g.action ≠ .release button x y := by
    intro g member button x y release
    obtain ⟨other, -, there⟩ :=
      (moved (.buttonEvent (xButton button) false)).mpr
        ⟨g, member, by simp [corresponding, release]⟩
    exact button_release_not_seen button there
  have noPress : ∀ g ∈ gestures, ∀ button x y, g.action ≠ .press button x y := by
    intro g member button x y press
    obtain ⟨other, among, there⟩ :=
      (moved (.buttonEvent (xButton button) true)).mpr ⟨g, member, by simp [corresponding, press]⟩
    obtain ⟨released, x', y', release⟩ := release_of_button_press_seen there
    exact noRelease other among released x' y' release
  intro g member
  cases kind : g.action with
  | move x y =>
    obtain ⟨other, among, there⟩ := (moved (.motionEvent (toInt x) (toInt y))).mpr
      ⟨g, member, by simp [corresponding, kind]⟩
    obtain ⟨button, x', y', press⟩ | ⟨button, x', y', release⟩ := pointer_of_motion_seen there
    · exact absurd press (noPress other among button x' y')
    · exact absurd release (noRelease other among button x' y')
  | press button x y => exact absurd kind (noPress g member button x y)
  | release button x y => exact absurd kind (noRelease g member button x y)
  | wheel x y angleDeltaX angleDeltaY =>
    exact absurd kind (noWheel g member x y angleDeltaX angleDeltaY)
  | keyPress nativeScanCode =>
    obtain ⟨other, among, there⟩ := (moved (.buttonEvent 5 true)).mp
      ⟨g, member, by simp [seen, kind]⟩
    obtain ⟨x, y, angleDeltaX, angleDeltaY, wheel⟩ := wheel_of_click_corresponding there
    exact absurd wheel (noWheel other among x y angleDeltaX angleDeltaY)
  | keyRelease nativeScanCode =>
    by_contra named
    have positive : 0 < nativeScanCode := by
      rw [UInt32.pos_iff_ne_zero]
      rintro rfl
      exact named rfl
    obtain ⟨other, -, there⟩ := (moved (.keyEvent nativeScanCode false)).mpr
      ⟨g, member, by simp [corresponding, kind, positive]⟩
    exact key_release_not_seen nativeScanCode there

/-- The host sees what the user does only where the user does nothing but release
keys without a scan code. -/
theorem mirrors_iff (oversized : Nat → UInt64) (hasClipboard : Bool) (dynamicOtp : QString)
    (c : Sender) (connected : c.connected = true) (gestures : List (Gesture Position)) :
    Mirrors toInt gestures
        (hostCalls toInt oversized (mainHost hasClipboard dynamicOtp) c gestures) ↔
      ∀ g ∈ gestures, g.action = .keyRelease 0 := by
  rw [hostCalls_eq toInt oversized hasClipboard dynamicOtp connected]
  constructor
  · intro mirrors
    exact silent_of_same mirrors.same
  · intro silent
    have nothing : gestures.flatMap (seen toInt) = [] := by
      rw [List.flatMap_eq_nil_iff]
      intro g member
      simp [seen, silent g member]
    have asked : gestures.flatMap (corresponding toInt) = [] := by
      rw [List.flatMap_eq_nil_iff]
      intro g member
      simp [corresponding, silent g member]
    exact ⟨nothing.trans asked.symm, fun _ control => by simp [nothing, Held, latest]⟩

/-- The release of a key that has no scan code. -/
theorem mirrors_iff_key :
    Mirrors (fun n : Int32 => n) [⟨.keyRelease 0, 0⟩]
      (hostCalls (fun n : Int32 => n) (fun _ => 1) (mainHost true [])
        { initial with connected := true } [⟨.keyRelease 0, 0⟩]) :=
  (mirrors_iff (fun n : Int32 => n) (fun _ => 1) true [] _ rfl _).mpr (by simp)

def click : List (Gesture Int32) := [⟨.press .left 40 30, 0⟩, ⟨.release .left 40 30, 0⟩]

/-- A click of the left button leaves it held down at the host. -/
theorem click_leaves_button_held :
    ∃ calls, calls = hostCalls (fun n : Int32 => n) (fun _ => 1) (mainHost true [])
        { initial with connected := true } click ∧
      calls = [.motionEvent 40 30, .motionEvent 40 30, .buttonEvent 1 true] ∧
      Released click ∧ Held calls (.button 1) ∧ ¬ Mirrors (fun n : Int32 => n) click calls := by
  have calls := hostCalls_eq (fun n : Int32 => n) (fun _ => 1) true []
    (show ({ initial with connected := true } : Sender).connected = true from rfl) click
  refine ⟨_, rfl, calls.trans rfl, ?_, ?_, ?_⟩
  · intro control
    by_cases left : control = .button 1
    · subst left
      decide
    · simp [click, latest, Gesture.moves, xButton, left]
  · rw [calls]
    rfl
  · rw [calls]
    intro mirrors
    exact absurd mirrors.same (by decide)

end RemoteAccess.ViewerInput
