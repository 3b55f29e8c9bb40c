import FlutterEngine.WebUi.PointerBinding

/-!
# When the changes fit the state of the converter

The adapter chooses the changes by the buttons it takes to be pressed, the converter checks them by
the state of the device. Both agree (`Agrees`) as long as each pointer has a device of its own and
buttons are pressed by `pointerdown` only. The changes fit if and only if moves and cancellations
agree with that too.

* `deviceState` is the state of a device that a sanitizer stands for.
* `Fits` is the condition on an event, by the buttons that are pressed before it.
* `converts_iff`: all events are converted if and only if each one fits.
-/

namespace WebUi

open Lib Function List PointerEvent

/-! ## A device at a time -/

variable (state : Option Bool)

/-- The state of a device after some changes. -/
def applyAll (detailsList : List SanitizedDetails) : Option (Option Bool) :=
  detailsList.foldlM (fun state details => details.change.apply state) state

/-- Converting the details of one device changes its state only. -/
lemma foldlM_convert (pointers : PointerStates) (device : ℤ) (detailsList : List SanitizedDetails) :
    detailsList.foldlM (fun pointers details => pointers.convert device details.change) pointers =
      (applyAll (pointers device) detailsList).map (update pointers device) := by
  induction detailsList generalizing pointers with
  | nil => simp [applyAll]
  | cons details rest ih =>
    rw [foldlM_cons, applyAll, foldlM_cons, PointerStates.convert]
    cases details.change.apply (pointers device) with
    | none => rfl
    | some state =>
      change List.foldlM _ (update pointers device state) rest = (applyAll state rest).map _
      rw [ih, update_self]
      -- only the device of the event is updated, over and over
      congr 1
      funext state'
      exact update_idem ..

namespace ButtonSanitizer

/-- Some button is pressed. -/
def pressed (s : ButtonSanitizer) : Bool := s.pressedButtons ≠ 0

end ButtonSanitizer

open ButtonSanitizer

/-- The state of a device, given the sanitizer of its pointer. -/
def deviceState (sanitizer : Option ButtonSanitizer) : Option Bool := sanitizer.map pressed

/-- Details are applied one after the other. -/
lemma applyAll_append (first second : List SanitizedDetails) :
    applyAll state (first ++ second) = (applyAll state first).bind (applyAll · second) :=
  foldlM_append

/-- A press is always accepted. -/
lemma applyAll_down (sanitizer : Option ButtonSanitizer) (buttons : ℕ) :
    applyAll (deviceState sanitizer) ((sanitizer.getD ⟨0⟩).sanitizeDownEvent buttons).1 =
      some (some true) := by
  cases sanitizer with
  | none => rfl
  | some sanitizer =>
    -- if some button is pressed, the device is down and `up` comes first
    obtain ⟨pressedButtons⟩ := sanitizer
    cases pressedButtons <;> rfl

/-- A move fits if it has buttons pressed when the device is down. -/
theorem apply_move (buttons : ℕ) :
    (sanitizeMoveEvent buttons).1.change.apply state =
      if (sanitizeMoveEvent buttons).2.pressed = state.getD false then
        some (some (state.getD false))
      else
        none := by
  rw [sanitizeMoveEvent, pressed]
  by_cases hzero : htmlButtonsToFlutterButtons buttons = 0 <;>
    obtain _ | _ | _ := state <;> simp [hzero, PointerChange.apply]

variable {buttons : List ℕ}

/-- Moves are accepted if they agree with the state of the buttons. -/
lemma applyAll_moves (hne : buttons ≠ []) :
    applyAll state (buttons.map fun b => (sanitizeMoveEvent b).1) =
      if ∀ b ∈ buttons, (sanitizeMoveEvent b).2.pressed = state.getD false then
        some (some (state.getD false))
      else
        none := by
  induction buttons generalizing state with
  | nil => exact absurd rfl hne
  | cons b rest ih =>
    rw [map_cons, applyAll, foldlM_cons, apply_move]
    by_cases hfits : (sanitizeMoveEvent b).2.pressed = state.getD false
    · rw [if_pos hfits]
      cases rest with
      | nil =>
        rw [if_pos]
        · rfl
        · simpa using hfits
      | cons b' rest =>
        -- from the second move on the device is known to the converter
        change applyAll (some (state.getD false)) _ = _
        rw [ih (some (state.getD false)) (cons_ne_nil b' rest), Option.getD_some]
        simp only [forall_mem_cons, hfits, true_and]
    · rw [if_neg hfits, if_neg fun hall => hfits (hall b mem_cons_self)]
      rfl

variable (sanitizer : ButtonSanitizer)

/-- A release is always accepted. -/
lemma applyAll_up :
    applyAll (deviceState (some sanitizer)) sanitizer.sanitizeUpEvent.1 = some (some false) ∧
      sanitizer.sanitizeUpEvent.2.pressed = false := by
  obtain ⟨pressedButtons⟩ := sanitizer
  cases pressedButtons <;> exact ⟨rfl, rfl⟩

/-- A cancellation is accepted if a button is pressed. -/
lemma applyAll_cancel : applyAll (deviceState (some sanitizer)) sanitizeCancelEvent.1 =
      if sanitizer.pressed then some (some false) else none := by
  obtain ⟨pressedButtons⟩ := sanitizer
  cases pressedButtons <;> rfl

namespace PointerAdapter

variable {typeOf : ℤ → String} {ids : Set ℤ} {s t : PointerAdapter} {event : PointerEvent}

/-! ## All devices -/

/-- Replace the sanitizer of a pointer and the state of a device. -/
def replace (s : PointerAdapter) (id device : ℤ) (sanitizer : Option ButtonSanitizer)
    (state : Option Bool) : PointerAdapter :=
  ⟨update s.sanitizers id sanitizer, update s.pointers device state⟩

/-- Sanitizer and state of a device change together. -/
lemma convert_setSanitizer (sanitizer : Option ButtonSanitizer)
    (detailsList : List SanitizedDetails) :
    (s.setSanitizer event.pointerId sanitizer).convertEventsToPointerData event detailsList =
      (applyAll (s.pointers event.device) detailsList).map
        (s.replace event.pointerId event.device sanitizer) := by
  rw [convertEventsToPointerData, foldlM_convert, Option.map_map]
  rfl

variable {details : List SanitizedDetails × ButtonSanitizer}

/-- A release that is accepted leaves the device up. -/
lemma release_of_applyAll (h : applyAll (s.pointers event.device) details.1 = some (some false))
    (hpressed : details.2.pressed = false) :
    ∃ sanitizer, s.release event details =
      some (s.replace event.pointerId event.device sanitizer (deviceState sanitizer)) := by
  rw [release]
  split
  · -- the device is removed
    refine ⟨none, ?_⟩
    rw [convert_setSanitizer, applyAll_append, h]
    rfl
  · refine ⟨some details.2, ?_⟩
    have hstate : deviceState (some details.2) = some false := congrArg some hpressed
    rw [convert_setSanitizer, h, hstate]
    rfl

/-- A release that is not accepted fails. -/
lemma release_of_applyAll_eq_none (h : applyAll (s.pointers event.device) details.1 = none) :
    s.release event details = none := by
  rw [release]
  split
  · rw [convert_setSanitizer, applyAll_append, h]
    rfl
  · rw [convert_setSanitizer, h]
    rfl

/-- The device of a pointer whose type is known. -/
def deviceOf (typeOf : ℤ → String) (id : ℤ) : ℤ := device ⟨id, typeOf id, 0⟩

/-- A pointer has one device. -/
lemma device_eq (h : event.pointerType = typeOf event.pointerId) :
    event.device = deviceOf typeOf event.pointerId := by
  rw [deviceOf, device, device, h]

/-- The sanitizers and the converter agree about the pointers `ids`. -/
def Agrees (typeOf : ℤ → String) (ids : Set ℤ) (s : PointerAdapter) : Prop :=
  ∀ id ∈ ids, s.pointers (deviceOf typeOf id) = deviceState (s.sanitizers id)

/-- A device that changes agrees with its sanitizer. -/
lemma Agrees.replace (h : s.Agrees typeOf ids) (hdevices : Set.InjOn (deviceOf typeOf) ids)
    {id : ℤ} (hid : id ∈ ids) (sanitizer : Option ButtonSanitizer) :
    (s.replace id (deviceOf typeOf id) sanitizer (deviceState sanitizer)).Agrees typeOf ids := by
  intro id' hid'
  simp only [PointerAdapter.replace]
  by_cases heq : id' = id
  · rw [heq, update_self, update_self]
  -- another pointer has another device, and is left as it is
  · have hdevice : deviceOf typeOf id' ≠ deviceOf typeOf id := fun h => heq (hdevices hid' hid h)
    rw [update_of_ne hdevice, update_of_ne heq]
    exact h id' hid'

/-- Some button of a pointer is pressed. -/
def isPressed (s : PointerAdapter) (id : ℤ) : Bool := (deviceState (s.sanitizers id)).getD false

/-- Moves have buttons pressed if and only if some are, there is something to be cancelled, and the
pointer that is released or cancelled has not been removed. -/
def Fits (s : PointerAdapter) : BrowserEvent → Prop
  | .pointerdown _ => True
  | .pointermove event coalesced => ∀ b ∈ expandEvents event coalesced,
      (sanitizeMoveEvent b).2.pressed = s.isPressed event.pointerId
  | .pointerup event => (s.sanitizers event.pointerId).isSome = true
  | .pointercancel event => s.isPressed event.pointerId = true

instance : ∀ s e, Decidable (Fits s e)
  | _, .pointerdown _ => inferInstanceAs (Decidable True)
  | _, .pointermove _ _ => inferInstanceAs (Decidable (∀ b ∈ expandEvents _ _, _ = _))
  | _, .pointerup _ => inferInstanceAs (Decidable (_ = true))
  | _, .pointercancel _ => inferInstanceAs (Decidable (_ = true))

/-- The event belongs to a known pointer; if it presses it, there are buttons that are pressed. -/
structure Known (typeOf : ℤ → String) (ids : Set ℤ) (e : BrowserEvent) : Prop where
  id : e.event.pointerId ∈ ids
  type : e.event.pointerType = typeOf e.event.pointerId
  pressed : ∀ event, e = .pointerdown event → htmlButtonsToFlutterButtons event.buttons ≠ 0

/-- A move is converted to one event at least. -/
lemma expandEvents_ne_nil (event : PointerEvent) (coalesced : List ℕ) :
    expandEvents event coalesced ≠ [] := by
  rw [expandEvents]
  split
  · exact cons_ne_nil _ _
  · next hne =>
    intro hnil
    exact hne (by rw [hnil]; rfl)

/-- An event is converted if and only if it fits, and then the sanitizer of its pointer agrees with
the state of its device. -/
def Converts (s : PointerAdapter) (e : BrowserEvent) : Prop :=
  (s.Fits e → ∃ sanitizer, step s e =
    some (s.replace e.event.pointerId e.event.device sanitizer (deviceState sanitizer))) ∧
  (¬s.Fits e → step s e = none)

section Step

variable (hstate : s.pointers event.device = deviceState (s.sanitizers event.pointerId))

include hstate

/-- A press is converted. -/
lemma converts_pointerdown (hpressed : htmlButtonsToFlutterButtons event.buttons ≠ 0) :
    s.Converts (.pointerdown event) := by
  have hdown : deviceState (some ⟨htmlButtonsToFlutterButtons event.buttons⟩) = some true := by
    simp [deviceState, pressed, hpressed]
  refine ⟨fun _ => ⟨some ⟨htmlButtonsToFlutterButtons event.buttons⟩, ?_⟩, absurd trivial⟩
  rw [step, convert_setSanitizer, hstate, ensureSanitizer, applyAll_down, hdown]
  rfl

/-- A move is converted if it fits. -/
lemma converts_pointermove (coalesced : List ℕ) : s.Converts (.pointermove event coalesced) := by
  have hne := expandEvents_ne_nil event coalesced
  have hmoves := applyAll_moves (s.pointers event.device) hne
  rw [hstate] at hmoves
  simp only [Converts, Fits, isPressed]
  constructor
  · intro hfits
    have hpressed := hfits _ (getLast_mem hne)
    refine ⟨((s.ensureSanitizer event.pointerId).sanitizeMoveEvents
      (expandEvents event coalesced)).2, ?_⟩
    rw [deviceState, Option.map_some, step, convert_setSanitizer, sanitizeMoveEvents, hstate,
      hmoves, if_pos hfits, getLast?_eq_some_getLast hne, ← hpressed]
    rfl
  · intro hnot
    rw [step, convert_setSanitizer, sanitizeMoveEvents, hstate, hmoves, if_neg hnot]
    rfl

/-- A release is converted. -/
lemma converts_pointerup : s.Converts (.pointerup event) := by
  rw [Converts, Fits, step]
  cases hsanitizer : s.sanitizers event.pointerId with
  | none => exact ⟨Bool.noConfusion, fun _ => rfl⟩
  | some sanitizer =>
    refine ⟨fun _ => ?_, absurd rfl⟩
    -- without buttons pressed there is nothing to release, and the device is up already
    obtain ⟨happly, hpressed⟩ := applyAll_up sanitizer
    rw [← hsanitizer, ← hstate] at happly
    exact release_of_applyAll happly hpressed

/-- A cancellation is converted if it fits. -/
lemma converts_pointercancel : s.Converts (.pointercancel event) := by
  rw [Converts, Fits, step, isPressed]
  cases hsanitizer : s.sanitizers event.pointerId with
  | none => exact ⟨Bool.noConfusion, fun _ => rfl⟩
  | some sanitizer =>
    have happly := applyAll_cancel sanitizer
    rw [← hsanitizer, ← hstate] at happly
    cases hpressed : sanitizer.pressed with
    | true =>
      rw [hpressed, if_pos rfl] at happly
      refine ⟨fun _ => release_of_applyAll happly rfl, fun hnot => ?_⟩
      exact absurd hpressed hnot
    | false =>
      rw [hpressed, if_neg Bool.false_ne_true] at happly
      refine ⟨fun hfits => ?_, fun _ => release_of_applyAll_eq_none happly⟩
      exact absurd (hpressed.symm.trans hfits) Bool.false_ne_true

end Step

/-- An event is converted without a failing assertion if and only if it fits. -/
theorem Agrees.step (h : s.Agrees typeOf ids) (hdevices : Set.InjOn (deviceOf typeOf) ids)
    {e : BrowserEvent} (hknown : Known typeOf ids e) :
    (s.Fits e → ∃ t, step s e = some t ∧ t.Agrees typeOf ids) ∧ (¬s.Fits e → step s e = none) := by
  have hstate := h _ hknown.id
  rw [← device_eq hknown.type] at hstate
  have hconverts : s.Converts e := by
    cases e with
    | pointerdown event => exact converts_pointerdown hstate (hknown.pressed event rfl)
    | pointermove event coalesced => exact converts_pointermove hstate coalesced
    | pointerup event => exact converts_pointerup hstate
    | pointercancel event => exact converts_pointercancel hstate
  refine ⟨fun hfits => ?_, hconverts.2⟩
  obtain ⟨sanitizer, hstep⟩ := hconverts.1 hfits
  refine ⟨_, hstep, ?_⟩
  rw [device_eq hknown.type]
  exact h.replace hdevices hknown.id sanitizer

/-- In every run that fits, states and sanitizers agree. -/
lemma agrees_of_run (hdevices : Set.InjOn (deviceOf typeOf) ids) {events : List BrowserEvent}
    (hevents : ∀ e ∈ events, Known typeOf ids e)
    (h : Run step Fits init events s) : s.Agrees typeOf ids := by
  induction h with
  | nil => exact fun _ _ => rfl
  | snoc _ hfits hstep ih =>
    have hagrees := ih fun e he => hevents e (mem_append_left _ he)
    obtain ⟨t', ht', hagrees'⟩ :=
      (hagrees.step hdevices (hevents _ (mem_append_right _ mem_cons_self))).1 hfits
    cases ht'.symm.trans hstep
    exact hagrees'

/-- If each pointer has a type and a device of its own, and `pointerdown` comes with buttons, then
the changes that are passed to the converter satisfy its assertions if and only if each event fits
the buttons that are pressed. -/
theorem converts_iff (typeOf : ℤ → String) (ids : Set ℤ)
    (hdevices : Set.InjOn (deviceOf typeOf) ids) (events : List BrowserEvent)
    (hevents : ∀ e ∈ events, Known typeOf ids e) :
    (∃ s, Run step unguarded init events s) ↔ ∃ s, Run step Fits init events s := by
  constructor
  · rintro ⟨s, hrun⟩
    rcases hrun.guarded_or with hguarded | ⟨before, e, after, t, u, rfl, hbefore, hnot, hstep, -⟩
    · exact ⟨s, hguarded⟩
    · have hagrees := agrees_of_run hdevices (fun e he => hevents e (mem_append_left _ he)) hbefore
      have hknown := hevents e (mem_append_right _ mem_cons_self)
      rw [(hagrees.step hdevices hknown).2 hnot] at hstep
      cases hstep
  · rintro ⟨s, hrun⟩
    exact ⟨s, hrun.mono fun _ _ _ => trivial⟩

/-- A mouse hovers, is pressed, moves and is released; a touch follows. -/
def drag : List BrowserEvent :=
  [.pointermove ⟨1, "mouse", 0⟩ [], .pointerdown ⟨1, "mouse", 1⟩,
    .pointermove ⟨1, "mouse", 1⟩ [1, 3], .pointerup ⟨1, "mouse", 0⟩, .pointerdown ⟨2, "touch", 1⟩,
    .pointercancel ⟨2, "touch", 0⟩]

/-- A drag is converted. -/
theorem converts_drag : ∃ s, Run step unguarded init drag s := by
  refine (converts_iff (fun id => if id = 1 then "mouse" else "touch") {1, 2} ?_ drag ?_).mpr
    ⟨_, run_iff_exec.mpr rfl⟩
  · rintro id (rfl | rfl) id' (rfl | rfl) hdevice
    · rfl
    · exact absurd hdevice (by decide)
    · exact absurd hdevice (by decide)
    · rfl
  · intro e he
    simp only [drag, mem_cons, not_mem_nil, or_false] at he
    rcases he with rfl | rfl | rfl | rfl | rfl | rfl
    · exact ⟨.inl rfl, rfl, nofun⟩
    · exact ⟨.inl rfl, rfl, fun _ h => by cases h; decide⟩
    · exact ⟨.inl rfl, rfl, nofun⟩
    · exact ⟨.inl rfl, rfl, nofun⟩
    · exact ⟨.inr rfl, rfl, fun _ h => by cases h; decide⟩
    · exact ⟨.inr rfl, rfl, nofun⟩

/-- A drag that starts outside the page: the first event moves a pointer with a button pressed. The
sanitizer makes it a move of a device that is not down. -/
theorem not_converts_drag_from_outside :
    (sanitizeMoveEvents ⟨0⟩ [1]).1 = [⟨.move, 1⟩] ∧
      ¬∃ s, Run step unguarded init [.pointermove ⟨1, "mouse", 1⟩ []] s := by
  refine ⟨rfl, fun ⟨s, hrun⟩ => ?_⟩
  have hexec : exec step unguarded init [.pointermove ⟨1, "mouse", 1⟩ []] = none := rfl
  cases hexec.symm.trans (run_iff_exec.mp hrun)

end PointerAdapter

end WebUi
