import FlutterEngine.Window.PointerDataPacketConverter.History

/-!
# Pointer locations

A device gets from one location to another by hover and move events, whose deltas add up. All other
events are where the device is. This holds for coordinates that are exact numbers, but for one case:
when a device is removed that is down, the cancel event that is synthesized for it is emitted before
the location is corrected.

* `EmitsAll.located`: the converter keeps the location of the latest event of each device.
* `staysInPlace_iff`: whether the location of a device jumps.
-/

namespace Flutter.PointerDataPacketConverter

open Lib Option

variable {R : Type} {c c' : PointerDataPacketConverter R} {x : PointerData R}
  {output : List (PointerData R)}

/-- The latest event of a device. -/
def latestEvent (device : ℤ) (output : List (PointerData R)) : Option (PointerData R) :=
  lastOf (fun x => x.device = device) output

/-- An event that is not an add event comes after an event of the same device. If it is a hover or
move event, its delta is relative to that event, and otherwise it has the same location. -/
def StaysInPlace [Sub R] (before : List (PointerData R)) (x : PointerData R) : Prop :=
  ¬(x.signalKind = .none ∧ x.change = .add) → ∃ y, latestEvent x.device before = some y ∧
    if x.signalKind = .none ∧ (x.change = .hover ∨ x.change = .move) then
      x.physicalDeltaX = x.physicalX - y.physicalX ∧ x.physicalDeltaY = x.physicalY - y.physicalY
    else
      x.physicalX = y.physicalX ∧ x.physicalY = y.physicalY

/-- The state of a device has the location of its latest event. -/
def Located (c : PointerDataPacketConverter R) (output : List (PointerData R)) : Prop :=
  ∀ device state, c.states device = some state →
    ∃ y, latestEvent device output = some y ∧ IsAt state y

/-- The latest event with one more. -/
lemma latestEvent_snoc {device : ℤ} : latestEvent device (output ++ [x]) =
    if x.device = device then some x else latestEvent device output := by
  rw [latestEvent, lastOf_snoc]
  simp only [decide_eq_true_eq]
  rfl

section Steps

variable [Sub R] {ids : Prop}

variable {state : PointerState R}

/-- An event leaves its device at its location. -/
theorem Emits.isAt (h : Emits ids True c x c') (hstate : c'.states x.device = some state) :
    IsAt state x := by
  cases h with
  | add | hover | move =>
    rw [states_setState, some.injEq] at hstate
    subst hstate
    exact ⟨rfl, rfl⟩
  | down _ _ _ _ location | release _ _ _ _ location =>
    rw [states_setState, some.injEq] at hstate
    subst hstate
    exact location trivial
  | remove =>
    rw [states_eraseState] at hstate
    cases hstate
  | scroll signal known location =>
    rw [known, some.injEq] at hstate
    subst hstate
    exact location trivial

section

variable (hc : Located c output)
include hc

/-- Each event keeps the locations. -/
lemma Located.emits (h : Emits ids True c x c') : Located c' (output ++ [x]) := by
  intro device state hstate
  rw [latestEvent_snoc]
  by_cases hdevice : x.device = device
  · subst hdevice
    rw [if_pos rfl]
    exact ⟨x, rfl, h.isAt hstate⟩
  · rw [if_neg hdevice]
    rw [h.states_of_ne (Ne.symm hdevice)] at hstate
    exact hc device state hstate

/-- An event where the pointer is. -/
lemma Located.staysInPlace_of_isAt (known : c.states x.device = some state)
    (location : IsAt state x)
    (hmotion : ¬(x.signalKind = .none ∧ (x.change = .hover ∨ x.change = .move))) :
    StaysInPlace output x := by
  intro _
  obtain ⟨y, hy, hat⟩ := hc _ _ known
  refine ⟨y, hy, ?_⟩
  rw [if_neg hmotion, ← hat.1, ← hat.2]
  exact ⟨location.1.symm, location.2.symm⟩

/-- A motion from where the pointer was. -/
lemma Located.staysInPlace_of_isRelativeTo (known : c.states x.device = some state)
    (delta : IsRelativeTo state x)
    (hmotion : x.signalKind = .none ∧ (x.change = .hover ∨ x.change = .move)) :
    StaysInPlace output x := by
  intro _
  obtain ⟨y, hy, hat⟩ := hc _ _ known
  refine ⟨y, hy, ?_⟩
  rw [if_pos hmotion, ← hat.1, ← hat.2]
  exact delta

/-- Each event stays in place. -/
lemma Located.staysInPlace (h : Emits ids True c x c') : StaysInPlace output x := by
  cases h with
  | add signal change => exact fun hadd => absurd ⟨signal, change⟩ hadd
  | hover signal change known isUp delta =>
    exact hc.staysInPlace_of_isRelativeTo known delta ⟨signal, .inl change⟩
  | move signal change known isDown delta =>
    exact hc.staysInPlace_of_isRelativeTo known delta ⟨signal, .inr change⟩
  | down _ change known _ location | remove _ change known _ location
  | scroll change known location =>
    exact hc.staysInPlace_of_isAt known (location trivial) (by simp [change])
  | release signal change known isDown location =>
    refine hc.staysInPlace_of_isAt known (location trivial) ?_
    rcases change with change | change <;> simp [change]

end

/-- All events keep the locations. -/
lemma EmitsAll.located (h : EmitsAll ids True init output c) : Located c output := by
  induction h with
  | nil => exact nofun
  | snoc _ hx ih => exact ih.emits hx

/-- All events stay in place. -/
lemma EmitsAll.throughout_staysInPlace (h : EmitsAll ids True init output c) :
    Throughout StaysInPlace output := by
  induction h with
  | nil => exact throughout_nil
  | snoc hxs hx ih => exact throughout_snoc.mpr ⟨ih, hxs.located.staysInPlace hx⟩

end Steps

/-! ## Runs -/

section Runs

variable [Sub R] [BEq R]

/-- A remove event that moves a device that is down is converted to a cancel event at the new
location, and more. -/
theorem convertPointerData_of_remove {xs : List (PointerData R)} (hsignal : x.signalKind = .none)
    (hchange : x.change = .remove) (haway : isAway c x = true)
    (h : convertPointerData c x = some (c', xs)) :
    ∃ y ys state, xs = y :: ys ∧ y.signalKind = .none ∧ y.change = .cancel ∧
      y.device = x.device ∧ y.physicalX = x.physicalX ∧ y.physicalY = x.physicalY ∧
      c.states x.device = some state ∧ locationNeedsUpdate x state = true := by
  simp only [convertPointerData, hsignal, hchange, bind_eq_bind, bind_eq_some_iff] at h
  obtain ⟨state, hknown, h⟩ := h
  simp only [isAway, hknown, Bool.and_eq_true] at haway
  simp only [synthesizeCancel, haway.1, if_true, pure_def, some.injEq, Prod.mk.injEq] at h
  obtain ⟨-, rfl⟩ := h
  exact ⟨_, _, state, rfl, hsignal, rfl, rfl, rfl, rfl, hknown, haway.2⟩

/-- The location of no device jumps exactly if no remove event moves a device that is down. -/
theorem staysInPlace_iff [LawfulBEq R] (packets : List (List (PointerData R)))
    (h : convertAll packets = some (c, output)) :
    Throughout StaysInPlace output ↔
      Run step (fun s x => KeepsLocation s.1 x) (init, []) packets.flatten (c, output) := by
  rw [convertAll_eq_some] at h
  constructor
  · intro hstays
    refine (h.guarded_or).resolve_right ?_
    rintro ⟨before, x, after, ⟨c₁, output₁⟩, ⟨c₂, output₂⟩, -, hbefore, hkeeps, hstep, hafter⟩
    rw [KeepsLocation, Classical.not_imp, Classical.not_imp, Bool.not_eq_false] at hkeeps
    obtain ⟨xs, hconvert, rfl⟩ := step_eq_some.mp hstep
    obtain ⟨y, ys, state, rfl, hsignal, hchange, hdevice, hx, hy, hstate, hneeded⟩ :=
      convertPointerData_of_remove hkeeps.1 hkeeps.2.1 hkeeps.2.2 hconvert
    have hemits : EmitsAll False True init output₁ c₁ :=
      emitsAll_of_run nofun (fun _ => ⟨inferInstance, fun _ _ hkeeps => hkeeps⟩) hbefore
    obtain ⟨rest, hrest⟩ := output_prefix_of_run hafter
    have houtput : output = output₁ ++ y :: (ys ++ rest) := by
      rw [← show output₁ ++ y :: ys ++ rest = output from hrest, List.append_assoc,
        List.cons_append]
    -- The cancel event is where the device was, and where the remove event is.
    obtain ⟨z, hz, hyz⟩ := hstays output₁ y (ys ++ rest) houtput (by simp [hchange])
    rw [if_neg (by simp [hchange])] at hyz
    obtain ⟨z', hz', hat⟩ := hemits.located _ _ hstate
    rw [hdevice] at hz
    obtain rfl : z = z' := some.inj (hz.symm.trans hz')
    rw [locationNeedsUpdate, hat.1, hat.2, ← hyz.1, ← hyz.2, hx, hy] at hneeded
    simp at hneeded
  · intro hrun
    have hemits : EmitsAll False True init output c :=
      emitsAll_of_run nofun (fun _ => ⟨inferInstance, fun _ _ hkeeps => hkeeps⟩) hrun
    exact hemits.throughout_staysInPlace

instance (c : PointerDataPacketConverter R) (x : PointerData R) : Decidable (KeepsLocation c x) :=
  inferInstanceAs (Decidable (x.signalKind = .none → x.change = .remove → isAway c x = false))

end Runs

/-- The scroll event moves the device, and then it is removed in place. -/
theorem staysInPlace_iff_scrollPackets : ∃ c output,
    convertAll scrollPackets = some (c, output) ∧ Throughout StaysInPlace output :=
  ⟨_, _, rfl, (staysInPlace_iff scrollPackets rfl).mpr (run_iff_exec.mpr rfl)⟩

/-- A device that is removed while it is down, and somewhere else. -/
def removePackets : List (List (PointerData ℤ)) :=
  [[rawEvent .none .down 1 0 0], [rawEvent .none .remove 1 3 4]]

/-- The cancel event is at `(3, 4)`, while the device is at `(0, 0)`. -/
theorem removePackets_not_staysInPlace : ∃ c output,
    convertAll removePackets = some (c, output) ∧
    (output.map fun x => (x.change, x.physicalX, x.physicalY, x.physicalDeltaX)) =
      [(.add, 0, 0, 0), (.down, 0, 0, 0), (.cancel, 3, 4, 0), (.hover, 3, 4, 3),
        (.remove, 3, 4, 0)] ∧
    ¬Throughout StaysInPlace output := by
  refine ⟨_, _, rfl, rfl, fun h => ?_⟩
  obtain ⟨y, hy, hat⟩ := h [_, _] _ [_, _] rfl (by decide)
  cases hy
  exact absurd hat (by decide)

end Flutter.PointerDataPacketConverter
