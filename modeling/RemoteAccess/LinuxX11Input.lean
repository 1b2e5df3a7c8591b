import RemoteAccess.AgentPacketHandler
import RemoteAccess.Basics.History

/-! The X11 backend: which XTest calls one input event becomes, and what a
sequence of them leaves held down. -/

namespace RemoteAccess.LinuxX11Input

open History AgentPacketHandler

/-- One `XTestFake...` call, with `True` and `False` for a press and a release. -/
inductive XTestCall
  | motionEvent (x y : Int32)
  | buttonEvent (button : UInt32) (isPress : Bool)
  | keyEvent (keycode : UInt32) (isPress : Bool)
deriving DecidableEq

structure Backend where
  /-- `RAP_DISABLE_X11_INJECTION` or `RAP_TEST_MODE` is set. -/
  disabled : Bool
  display : Bool
  xtestSupported : Bool

/-- Every path returns true. -/
def injectEvent (backend : Backend) (event : InputEvent) : List XTestCall :=
  if backend.disabled then [] else
  if ¬ (backend.display ∧ backend.xtestSupported) then [] else
  if event.type = .mouseMove then [.motionEvent event.x event.y]
  else if event.type = .mouseDown then
    [.motionEvent event.x event.y, .buttonEvent event.button true]
  else if event.type = .mouseUp then [.buttonEvent event.button false]
  else if event.type = .mouseWheel then
    let btn := if 0 < event.delta then 4 else 5
    [.buttonEvent btn true, .buttonEvent btn false]
  else if event.type = .keyDown then
    if 0 < event.keycode then [.keyEvent event.keycode true] else []
  else if event.type = .keyUp then
    if 0 < event.keycode then [.keyEvent event.keycode false] else []
  else []

/-! ### What is held down -/

inductive Control
  | button (button : UInt32)
  | key (keycode : UInt32)
deriving DecidableEq

def XTestCall.moves (control : Control) : XTestCall → Option Bool
  | .motionEvent .. => none
  | .buttonEvent button isPress => if control = .button button then some isPress else none
  | .keyEvent keycode isPress => if control = .key keycode then some isPress else none

def Held (calls : List XTestCall) (control : Control) : Prop :=
  latest (XTestCall.moves control) calls = some true

end RemoteAccess.LinuxX11Input
