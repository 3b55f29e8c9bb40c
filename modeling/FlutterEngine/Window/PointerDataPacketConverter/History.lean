import FlutterEngine.Lib.Trace
import FlutterEngine.Window.PointerDataPacketConverter.Emission
import Mathlib.Computability.Language
import Mathlib.Order.CompletePartialOrder

/-!
# Legal pointer histories

What a device does in the output of the converter is a legal history, or the beginning of one:
`(Add Hover* (Down Move* (Up | Cancel) Hover*)* Remove)*`.

A device is absent, up or down. `languageOf` are the histories that lead to each of these phases,
and `append_mem_languageOf` says that a transition leads from one to the next. The state that the
converter keeps for a device is in the phase that its history leads to (`Follows`).
-/

namespace Flutter.PointerDataPacketConverter

open Lib List
open scoped Computability

/-! ## The language -/

/-- The history of one event. -/
def once (change : Change) : Language Change := {[change]}

/-- `Down Move* (Up | Cancel) Hover*` -/
def contact : Language Change :=
  once .down * (once .move)∗ * (once .up + once .cancel) * (once .hover)∗

/-- `Add Hover* (Down Move* (Up | Cancel) Hover*)*` -/
def presence : Language Change := once .add * (once .hover)∗ * contact∗

/-- `(Add Hover* (Down Move* (Up | Cancel) Hover*)* Remove)*` -/
def legal : Language Change := (presence * once .remove)∗

/-! ## Phases -/

/-- What a device can be. -/
inductive Phase
  | absent
  | up
  | down
deriving DecidableEq, Repr

/-- The histories that lead to a phase. -/
def languageOf : Phase → Language Change
  | .absent => legal
  | .up => legal * presence
  | .down => legal * presence * (once .down * (once .move)∗)

/-- The phase after an event, if the event is legal. -/
def Phase.next : Phase → Change → Option Phase
  | .absent, .add => some .up
  | .up, .hover => some .up
  | .up, .down => some .down
  | .up, .remove => some .absent
  | .down, .move => some .down
  | .down, .up => some .up
  | .down, .cancel => some .up
  | _, _ => none

variable {phase' : Phase}

/-- When a pointer is there afterwards. -/
lemma Phase.next_ne_absent {phase : Phase} {change : Change} (h : phase.next change = some phase') :
    phase' ≠ .absent ↔ change = .add ∨ phase ≠ .absent ∧ change ≠ .remove := by
  unfold Phase.next at h
  split at h <;> cases h <;> simp

/-- When a pointer is down afterwards. -/
lemma Phase.next_eq_down {phase : Phase} {change : Change} (h : phase.next change = some phase') :
    phase' = .down ↔ change = .down ∨ phase = .down ∧ ¬(change = .up ∨ change = .cancel) := by
  unfold Phase.next at h
  split at h <;> cases h <;> simp

section Language

variable {a b : Language Change}
variable {phase : Phase} {change : Change} {w : List Change} {ids locs : Prop}

/-- Nothing need follow. -/
lemma le_mul_kstar : a ≤ a * b∗ := by
  calc a = a * 1 := (mul_one a).symm
    _ ≤ a * b∗ := by
      gcongr
      exact one_le_kstar

/-- A contact may be followed by a hover. -/
lemma contact_mul_hover_le : contact * once .hover ≤ contact := by
  rw [contact, mul_assoc]
  gcongr
  exact kstar_mul_le_kstar

/-- A hover event goes with the last contact, or with the add event if there was none. -/
theorem presence_mul_hover_le : presence * once .hover ≤ presence := by
  have hadd : once .add * (once .hover)∗ * once .hover ≤ once .add * (once .hover)∗ := by
    rw [mul_assoc]
    gcongr
    exact kstar_mul_le_kstar
  calc presence * once .hover
      = once .add * (once .hover)∗ * (1 + contact∗ * contact) * once .hover := by
        rw [presence, one_add_kstar_mul]
    _ = once .add * (once .hover)∗ * once .hover +
          once .add * (once .hover)∗ * (contact∗ * (contact * once .hover)) := by
        rw [mul_add, add_mul, mul_one, mul_assoc _ (contact∗ * contact), mul_assoc contact∗]
    _ ≤ once .add * (once .hover)∗ + once .add * (once .hover)∗ * (contact∗ * contact) := by
        gcongr
        exact contact_mul_hover_le
    _ = once .add * (once .hover)∗ * (1 + contact∗ * contact) := by rw [mul_add, mul_one]
    _ = presence := by rw [presence, one_add_kstar_mul]

/-- What releases a device completes a contact. -/
theorem presence_mul_contact_le (ha : a ≤ once .up + once .cancel) :
    presence * (once .down * (once .move)∗) * a ≤ presence := by
  calc presence * (once .down * (once .move)∗) * a
      ≤ presence * (once .down * (once .move)∗ * (once .up + once .cancel)) := by
        rw [mul_assoc]
        gcongr
    _ ≤ presence * contact := by
        gcongr
        exact le_mul_kstar
    _ ≤ presence := by
        rw [presence, mul_assoc]
        gcongr
        exact kstar_mul_le_kstar

/-- A transition leads from the histories of one phase to those of the next. -/
theorem languageOf_mul_le (h : phase.next change = some phase') :
    languageOf phase * once change ≤ languageOf phase' := by
  unfold Phase.next at h
  split at h <;> cases h
  · -- add
    refine mul_le_mul' le_rfl ?_
    exact le_mul_kstar.trans le_mul_kstar
  · -- hover
    rw [languageOf, mul_assoc]
    gcongr
    exact presence_mul_hover_le
  · -- down
    exact mul_le_mul' le_rfl le_mul_kstar
  · -- remove
    rw [languageOf, languageOf, mul_assoc]
    exact kstar_mul_le_kstar
  · -- move
    rw [languageOf, mul_assoc, mul_assoc (once .down)]
    gcongr
    exact kstar_mul_le_kstar
  · -- up
    rw [languageOf, languageOf, mul_assoc, mul_assoc]
    gcongr
    rw [← mul_assoc]
    exact presence_mul_contact_le le_self_add
  · -- cancel
    rw [languageOf, languageOf, mul_assoc, mul_assoc]
    gcongr
    rw [← mul_assoc]
    exact presence_mul_contact_le le_add_self

/-- A change leads from language to language. -/
lemma append_mem_languageOf (hw : w ∈ languageOf phase) (h : phase.next change = some phase') :
    w ++ [change] ∈ languageOf phase' :=
  languageOf_mul_le h (Language.append_mem_mul hw rfl)

/-- Whatever a device does can be completed to a legal history. -/
theorem exists_append_mem_legal (hw : w ∈ languageOf phase) : ∃ rest, w ++ rest ∈ legal := by
  cases phase with
  | absent => exact ⟨[], by rwa [append_nil]⟩
  | up =>
    have habsent := append_mem_languageOf hw (show Phase.next .up .remove = some .absent from rfl)
    exact ⟨[.remove], habsent⟩
  | down =>
    have hup := append_mem_languageOf hw (show Phase.next .down .cancel = some .up from rfl)
    have habsent := append_mem_languageOf hup (show Phase.next .up .remove = some .absent from rfl)
    rw [append_assoc] at habsent
    exact ⟨[.cancel, .remove], habsent⟩

end Language

/-! ## The converter -/

variable {R : Type} {c c' : PointerDataPacketConverter R} {x : PointerData R}
  {output : List (PointerData R)}

/-- The changes of a device, without signals. -/
def history (device : ℤ) (output : List (PointerData R)) : List Change :=
  (output.filter fun x => x.device = device ∧ x.signalKind = .none).map PointerData.change

/-- The changes of a device with one more event. -/
lemma history_snoc (device : ℤ) : history device (output ++ [x]) = history device output ++
      if x.device = device ∧ x.signalKind = .none then [x.change] else [] := by
  rw [history, history, filter_append, map_append]
  split <;> simp_all

/-- The phase of a device with the given state. -/
def phaseOf : Option (PointerState R) → Phase
  | none => .absent
  | some state => if state.isDown then .down else .up

/-- An event without a signal is a transition, and one with a signal is not. -/
theorem Emits.next [Sub R] (h : Emits ids locs c x c') : (x.signalKind = .none ∧
      (phaseOf (c.states x.device)).next x.change = some (phaseOf (c'.states x.device))) ∨
    (x.signalKind ≠ .none ∧ c' = c) := by
  cases h with
  | add signal change unknown =>
    refine .inl ⟨signal, ?_⟩
    rw [unknown, change, states_setState]
    rfl
  | hover signal change known isDown | move signal change known isDown =>
    refine .inl ⟨signal, ?_⟩
    simp [known, change, phaseOf, isDown, PointerState.moveTo, Phase.next]
  | down signal change known isUp | remove signal change known isUp =>
    refine .inl ⟨signal, ?_⟩
    simp [known, change, phaseOf, isUp, Phase.next]
  | release signal change known isDown =>
    refine .inl ⟨signal, ?_⟩
    rcases change with change | change <;> simp [known, change, phaseOf, isDown, Phase.next]
  | scroll signal => exact .inr ⟨by simp [signal], rfl⟩

/-- The phase of a device is the one that its history leads to: the device is known since it was
added, and down since a down event. -/
structure Follows (state : Option (PointerState R)) (w : List Change) : Prop where
  mem_languageOf : w ∈ languageOf (phaseOf state)
  known_iff : phaseOf state ≠ .absent ↔ Since (· = .add) (· = .remove) w
  down_iff : phaseOf state = .down ↔
    Since (· = .down) (fun change => change = .up ∨ change = .cancel) w

lemma follows_nil : Follows (none : Option (PointerState R)) [] where
  mem_languageOf := Language.nil_mem_kstar _
  known_iff := by simp [phaseOf]
  down_iff := by simp [phaseOf]

/-- A history grows with its state. -/
lemma Follows.snoc {state state' : Option (PointerState R)} (h : Follows state w)
    (hnext : (phaseOf state).next change = some (phaseOf state')) :
    Follows state' (w ++ [change]) where
  mem_languageOf := append_mem_languageOf h.mem_languageOf hnext
  known_iff := by rw [since_snoc, ← h.known_iff, Phase.next_ne_absent hnext]
  down_iff := by rw [since_snoc, ← h.down_iff, Phase.next_eq_down hnext]

/-- An event is emitted in the phase of its device. -/
theorem Emits.follows [Sub R] (h : Emits ids locs c x c') {device : ℤ}
    (hc : Follows (c.states device) (history device output)) :
    Follows (c'.states device) (history device (output ++ [x])) := by
  rw [history_snoc]
  by_cases hdevice : x.device = device
  · subst hdevice
    rcases h.next with ⟨hsignal, hnext⟩ | ⟨hsignal, rfl⟩
    · rw [if_pos ⟨rfl, hsignal⟩]
      exact hc.snoc hnext
    · rwa [if_neg fun hx => hsignal hx.2, append_nil]
  · rwa [if_neg fun hx => hdevice hx.1, append_nil, h.states_of_ne (Ne.symm hdevice)]

/-- The history of each device follows its state. -/
lemma EmitsAll.follows [Sub R] (h : EmitsAll ids locs init output c) (device : ℤ) :
    Follows (c.states device) (history device output) := by
  induction h with
  | nil => exact follows_nil
  | snoc _ hx ih => exact hx.follows ih

/-- The output for every device is a legal history or the beginning of one. The devices that have
been added and not removed since are known, and those that have been down and neither up nor
canceled since are down. -/
theorem history_legal [Sub R] [BEq R] (packets : List (List (PointerData R)))
    (h : convertAll packets = some (c, output)) (device : ℤ) :
    (∃ rest, history device output ++ rest ∈ legal) ∧
    ((c.states device).isSome ↔ Since (· = .add) (· = .remove) (history device output)) ∧
    ∀ state, c.states device = some state →
      (state.isDown = true ↔
        Since (· = .down) (fun change => change = .up ∨ change = .cancel)
          (history device output)) := by
  have hemits : EmitsAll False False init output c :=
    emitsAll_of_run nofun nofun (convertAll_eq_some.mp h)
  obtain ⟨hmem, hknown, hdown⟩ := hemits.follows device
  refine ⟨exists_append_mem_legal hmem, ?_, fun state hstate => ?_⟩
  · rw [← hknown]
    cases hstate : c.states device with
    | none => simp [phaseOf]
    | some state => cases hstate' : state.isDown <;> simp [phaseOf, hstate']
  · rw [← hdown, hstate]
    cases hstate' : state.isDown <;> simp [phaseOf, hstate']

/-- A pointer event without an identifier. -/
def rawEvent (signalKind : SignalKind) (change : Change) (device x y : ℤ) : PointerData ℤ :=
  ⟨change, signalKind, device, 0, x, y, 0, 0, 0⟩

/-- Two devices, one of which is not added and scrolls while it is down. -/
def scrollPackets : List (List (PointerData ℤ)) :=
  [[rawEvent .none .down 1 0 0, rawEvent .none .add 2 5 5],
    [rawEvent .scroll .hover 1 7 0, rawEvent .none .remove 1 7 0]]

theorem history_legal_scrollPackets : ∃ c output,
    convertAll scrollPackets = some (c, output) ∧
    history 1 output = [.add, .down, .move, .cancel, .remove] ∧
    ∃ rest, history 1 output ++ rest ∈ legal :=
  ⟨_, _, rfl, rfl, (history_legal scrollPackets rfl 1).1⟩

end Flutter.PointerDataPacketConverter
