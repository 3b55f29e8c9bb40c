import FlutterEngine.Lib.Run
import Mathlib.Data.Nat.Bitwise

/-!
# Pointer events of the browser

`lib/web_ui/lib/src/engine/pointer_binding.dart` and `pointer_converter.dart`: the pointer events of
the browser are turned into changes of pointer devices. `_PointerAdapter` keeps a `_ButtonSanitizer`
for each pointer, with the buttons that are pressed, and chooses the changes by them.
`PointerDataConverter` keeps a state for each device and asserts that the changes it is given fit.

An event either leads to changes that fit, or to an assertion that fails: then `step` is `none`.
Locations, and what the converter asserts about them, are left out, as are the data of the changes
other than their kinds and buttons, and the events of the wheel.
-/

namespace WebUi

inductive PointerDeviceKind where
  | touch
  | mouse
  | stylus
  | unknown
deriving DecidableEq, Repr

inductive PointerChange where
  | cancel
  | add
  | remove
  | hover
  | down
  | move
  | up
deriving DecidableEq, Repr

/-! ## The converter -/

/-- The devices the converter knows, with `_PointerState.down`. -/
abbrev PointerStates := ℤ → Option Bool

/-- The state of a device after a change; `none` if an assertion fails. -/
def PointerChange.apply (state : Option Bool) : PointerChange → Option (Option Bool)
  | .add =>
    match state with
    | none => some (some false)
    | some _ => none
  | .hover => if state.getD false then none else some (some false)
  | .down => if state.getD false then none else some (some true)
  | .move => if state = some true then some (some true) else none
  | .up | .cancel => if state = some true then some (some false) else none
  | .remove => if state = some false then some none else none

/-- `PointerDataConverter.convert`, for changes without a signal. -/
def PointerStates.convert (states : PointerStates) (device : ℤ) (change : PointerChange) :
    Option PointerStates :=
  (change.apply (states device)).map (Function.update states device)

/-! ## The sanitizer -/

/-- `_SanitizedDetails` -/
structure SanitizedDetails where
  change : PointerChange
  buttons : ℕ
deriving DecidableEq, Repr

/-- `_kButtonsMask` -/
def buttonsMask : ℕ := 0x3FFFFFFF

/-- `_htmlButtonsToFlutterButtons` -/
def htmlButtonsToFlutterButtons (buttons : ℕ) : ℕ := buttons &&& buttonsMask

/-- `_ButtonSanitizer` -/
structure ButtonSanitizer where
  /-- `_pressedButtons` -/
  pressedButtons : ℕ
deriving DecidableEq, Repr

namespace ButtonSanitizer

def sanitizeDownEvent (s : ButtonSanitizer) (buttons : ℕ) :
    List SanitizedDetails × ButtonSanitizer :=
  let pressedButtons := htmlButtonsToFlutterButtons buttons
  -- a button that was released outside the page has sent no event: it is released first
  let released := if s.pressedButtons ≠ 0 then [⟨.up, 0⟩] else []
  (released ++ [⟨.down, pressedButtons⟩], ⟨pressedButtons⟩)

def sanitizeMoveEvent (buttons : ℕ) : SanitizedDetails × ButtonSanitizer :=
  let pressedButtons := htmlButtonsToFlutterButtons buttons
  -- the buttons of the event alone decide, not those that were pressed before
  (⟨if pressedButtons = 0 then .hover else .move, pressedButtons⟩, ⟨pressedButtons⟩)

/-- `sanitizeMoveEvent` for several events, one after the other. -/
def sanitizeMoveEvents (s : ButtonSanitizer) (buttons : List ℕ) :
    List SanitizedDetails × ButtonSanitizer :=
  (buttons.map fun b => (sanitizeMoveEvent b).1,
    (buttons.getLast?.map fun b => (sanitizeMoveEvent b).2).getD s)

def sanitizeUpEvent (s : ButtonSanitizer) : List SanitizedDetails × ButtonSanitizer :=
  if s.pressedButtons = 0 then ([], s) else ([⟨.up, 0⟩], ⟨0⟩)

def sanitizeCancelEvent : List SanitizedDetails × ButtonSanitizer := ([⟨.cancel, 0⟩], ⟨0⟩)

end ButtonSanitizer

/-! ## The adapter -/

/-- `html.PointerEvent` -/
structure PointerEvent where
  pointerId : ℤ
  pointerType : String
  buttons : ℕ
deriving DecidableEq, Repr

/-- `_mouseDeviceId` -/
def mouseDeviceId : ℤ := -1

def pointerTypeToDeviceKind (pointerType : String) : PointerDeviceKind :=
  if pointerType = "mouse" then .mouse
  else if pointerType = "pen" then .stylus
  else if pointerType = "touch" then .touch
  else .unknown

/-- The device of an event: all mouse pointers have the same one. -/
def PointerEvent.device (event : PointerEvent) : ℤ :=
  if pointerTypeToDeviceKind event.pointerType = .mouse then mouseDeviceId else event.pointerId

/-- The events that `_PointerAdapter` listens to. -/
inductive BrowserEvent where
  | pointerdown (event : PointerEvent)
  /-- With the buttons of the events that are coalesced in this one, if there are any. -/
  | pointermove (event : PointerEvent) (coalesced : List ℕ)
  | pointerup (event : PointerEvent)
  | pointercancel (event : PointerEvent)
deriving DecidableEq, Repr

def BrowserEvent.event : BrowserEvent → PointerEvent
  | .pointerdown event | .pointermove event _ | .pointerup event | .pointercancel event => event

/-- `_expandEvents`: the buttons of the events. -/
def expandEvents (event : PointerEvent) (coalesced : List ℕ) : List ℕ :=
  if coalesced.isEmpty then [event.buttons] else coalesced

/-- `_PointerAdapter` with its converter. -/
structure PointerAdapter where
  /-- `_sanitizers` -/
  sanitizers : ℤ → Option ButtonSanitizer
  /-- `_pointerDataConverter` -/
  pointers : PointerStates

namespace PointerAdapter

def init : PointerAdapter := ⟨fun _ => none, fun _ => none⟩

variable (s : PointerAdapter)

/-- `_ensureSanitizer` -/
def ensureSanitizer (device : ℤ) : ButtonSanitizer := (s.sanitizers device).getD ⟨0⟩

/-- `_convertEventsToPointerData` -/
def convertEventsToPointerData (event : PointerEvent) (detailsList : List SanitizedDetails) :
    Option PointerAdapter :=
  let converted := detailsList.foldlM
    (fun pointers details => pointers.convert event.device details.change) s.pointers
  converted.map fun pointers => { s with pointers }

def setSanitizer (device : ℤ) (sanitizer : Option ButtonSanitizer) : PointerAdapter :=
  { s with sanitizers := Function.update s.sanitizers device sanitizer }

/-- The end of `pointerup` and `pointercancel`: `_removePointerIfUnhoverable`, and the conversion.
-/
def release (event : PointerEvent) (details : List SanitizedDetails × ButtonSanitizer) :
    Option PointerAdapter :=
  if event.pointerType = "touch" then
    -- a touch cannot hover: its pointer is gone with it
    (s.setSanitizer event.pointerId none).convertEventsToPointerData event
      (details.1 ++ [⟨.remove, 0⟩])
  else (s.setSanitizer event.pointerId details.2).convertEventsToPointerData event details.1

/-- One event, if no assertion fails. -/
def step : BrowserEvent → Option PointerAdapter
  | .pointerdown event =>
    let details := (s.ensureSanitizer event.pointerId).sanitizeDownEvent event.buttons
    (s.setSanitizer event.pointerId details.2).convertEventsToPointerData event details.1
  | .pointermove event coalesced =>
    let buttons := expandEvents event coalesced
    let details := (s.ensureSanitizer event.pointerId).sanitizeMoveEvents buttons
    (s.setSanitizer event.pointerId details.2).convertEventsToPointerData event details.1
  | .pointerup event =>
    -- `_getSanitizer` asserts that there is one
    match s.sanitizers event.pointerId with
    | none => none
    | some sanitizer => s.release event sanitizer.sanitizeUpEvent
  | .pointercancel event =>
    match s.sanitizers event.pointerId with
    | none => none
    | some _ => s.release event ButtonSanitizer.sanitizeCancelEvent

end PointerAdapter

end WebUi
