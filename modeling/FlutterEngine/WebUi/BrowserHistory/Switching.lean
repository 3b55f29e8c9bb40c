import FlutterEngine.WebUi.BrowserHistory

/-!
# Switching the location strategy

Without a location strategy the app is in the origin entry, or on its way back to it. A strategy
that is assigned before the browser has gone back finds the flutter entry of its predecessor, sets
up nothing, and takes the way back for the user's.

The module introduces:

* `SwitchingHistory`, the history with the strategy that is assigned, if any, and `step`, where
  strategies are assigned and the browser does what is pending;
* `Quiet`: no message was sent, no assertion fails, and at rest a strategy is in its flutter entry;
* `Waits`: strategies are assigned when there is none and nothing is pending;
* `Place`, where the app may be while all assignments wait.

Under `Waits` every run is quiet (`quiet_of_run`). The first assignment that does not wait leads to
a message (`popRoute_of_not_waits`).
-/

namespace WebUi

open Lib BrowserHistory

/-- `BrowserHistory` with its location strategy, if it has one; then it listens to `popstate`. -/
structure SwitchingHistory (ι : Type) where
  browser : BrowserHistory
  locationStrategy : Option ι

namespace SwitchingHistory

variable {ι : Type} [DecidableEq ι] (path : ι → String → String) (s : SwitchingHistory ι)

/-- No strategy has been assigned, on the entries the browser has. -/
def init (history : History) : SwitchingHistory ι := ⟨⟨history, none, [], [], []⟩, none⟩

/-- `_tearoffStrategy` -/
def tearoffStrategy : SwitchingHistory ι :=
  match s.locationStrategy with
  | none => s
  | some _ => { s with browser.pending := s.browser.pending ++ [.back] }

/-- `_setupStrategy` -/
def setupStrategy : SwitchingHistory ι :=
  match s.locationStrategy with
  | none => s
  | some strategy =>
    let browser := BrowserHistory.setupStrategy (path strategy) s.browser.history
    { s with browser.history := browser.history }

/-- The setter of `locationStrategy`. -/
def setLocationStrategy (strategy : Option ι) : SwitchingHistory ι :=
  if strategy ≠ s.locationStrategy then
    setupStrategy path { s.tearoffStrategy with locationStrategy := strategy }
  else s

/-- What can happen without the user. -/
inductive Action (ι : Type) where
  | assign (strategy : Option ι)
  /-- The browser does what is pending and fires `popstate`. -/
  | tick

/-- One action, if it is possible and no assertion fails. -/
def step : Action ι → Option (SwitchingHistory ι)
  | .assign strategy => some (s.setLocationStrategy path strategy)
  | .tick =>
    match s.locationStrategy, s.browser.pending with
    | some strategy, _ => do return { s with browser := ← s.browser.step (path strategy) .tick }
    | none, [] => none
    | none, event :: pending => do
      let history ← event.apply s.browser.history
      return { s with browser := { s.browser with history, pending } }

/-- Another strategy is assigned only when there is none and nothing is pending. -/
def Waits : Action ι → Prop
  | .assign (some strategy) => s.locationStrategy ≠ some strategy →
      s.locationStrategy = none ∧ s.browser.pending = []
  | _ => True

instance (action : Action ι) : Decidable (s.Waits action) := by
  cases action with
  | assign strategy => cases strategy <;> unfold Waits <;> infer_instance
  | tick => exact inferInstanceAs (Decidable True)

/-- The current entry is a flutter entry directly above an origin entry. -/
def AboveOrigin (history : History) : Prop :=
  history.current.state = .flutter ∧ ∃ origin ∈ history.back.head?, origin.state = .origin

/-- Entries the app may be started from; in a flutter entry the page has been reloaded. -/
def Fresh (history : History) : Prop :=
  history.current.state.isFlutter = true → AboveOrigin history

/-- No message has been sent, no assertion fails in the event loop, and at rest a strategy is in its
flutter entry. -/
structure Quiet : Prop where
  messages : s.browser.messages = []
  tick : s.browser.pending ≠ [] → (s.step path .tick).isSome
  entry : s.browser.pending = [] → s.locationStrategy ≠ none → AboveOrigin s.browser.history

/-- Where the app is. -/
inductive Place : Prop
  | active : s.locationStrategy ≠ none → s.browser.pending = [] → AboveOrigin s.browser.history →
      Place
  | leaving : s.locationStrategy = none → s.browser.pending = [.back] →
      AboveOrigin s.browser.history → Place
  | inactive : s.locationStrategy = none → s.browser.pending = [] → Fresh s.browser.history → Place

variable {path s} {t : SwitchingHistory ι} {history : History}

/-- A strategy that is set up on fresh entries is in its flutter entry. -/
lemma Fresh.aboveOrigin_setupStrategy (h : Fresh history) (path : String → String) :
    AboveOrigin (BrowserHistory.setupStrategy path history).history := by
  rw [BrowserHistory.setupStrategy]
  split
  · next hflutter => exact h hflutter
  · exact ⟨rfl, _, rfl, rfl⟩

/-- Below the current entry is an origin entry. -/
lemma AboveOrigin.exists_back (h : AboveOrigin history) :
    ∃ origin rest, history.back = origin :: rest ∧ origin.state = .origin := by
  obtain ⟨-, origin, hmem, horigin⟩ := h
  obtain ⟨rest, hback⟩ := List.head?_eq_some_iff.mp hmem
  exact ⟨origin, rest, hback, horigin⟩

/-- The browser goes back to the origin while there is no strategy. -/
theorem tick_of_leaving (hstrategy : s.locationStrategy = none)
    (hpending : s.browser.pending = [.back]) (habove : AboveOrigin s.browser.history) :
    ∃ t, s.step path .tick = some t ∧ t.browser.messages = s.browser.messages ∧ t.Place := by
  obtain ⟨origin, rest, hback, horigin⟩ := habove.exists_back
  rw [step, hstrategy, hpending]
  simp only [HistoryEvent.apply, History.goBack, hback, Option.bind_eq_bind, Option.bind_some]
  refine ⟨_, rfl, rfl, .inactive rfl rfl fun hflutter => ?_⟩
  rw [horigin] at hflutter
  cases hflutter

/-- An assignment that waits leads from place to place. -/
lemma Place.assign (h : s.Place) {strategy : Option ι} (hwaits : s.Waits (.assign strategy)) :
    (s.setLocationStrategy path strategy).Place := by
  rw [setLocationStrategy]
  split
  · next hne =>
    cases strategy with
    | none =>
      obtain ⟨i, hi⟩ := Option.ne_none_iff_exists'.mp hne.symm
      cases h with
      | active _ hpending habove =>
        refine .leaving rfl ?_ ?_
        · simp [setupStrategy, tearoffStrategy, hi, hpending]
        · simpa [setupStrategy, tearoffStrategy, hi] using habove
      | leaving hnone => exact absurd hnone hne.symm
      | inactive hnone => exact absurd hnone hne.symm
    | some strategy =>
      obtain ⟨hnone, hpending⟩ := hwaits hne.symm
      have htearoff : s.tearoffStrategy = s := by rw [tearoffStrategy, hnone]
      rw [htearoff]
      cases h with
      | active hsome => exact absurd hnone hsome
      | leaving _ hback => cases hpending.symm.trans hback
      | inactive _ _ hfresh =>
        exact .active (Option.some_ne_none _) hpending (hfresh.aboveOrigin_setupStrategy _)
  · exact h

/-- An assignment sends no message itself. -/
lemma messages_setLocationStrategy (strategy : Option ι) :
    (s.setLocationStrategy path strategy).browser.messages = s.browser.messages := by
  rw [setLocationStrategy]
  split
  · cases strategy <;> cases hs : s.locationStrategy <;>
      simp [setupStrategy, tearoffStrategy, hs]
  · rfl

/-- While all assignments wait, the app goes from place to place and sends no message. -/
lemma Place.step (h : s.Place) {action : Action ι} (hwaits : s.Waits action)
    (hstep : s.step path action = some t) :
    t.browser.messages = s.browser.messages ∧ t.Place := by
  cases action with
  | assign strategy =>
    cases hstep
    exact ⟨messages_setLocationStrategy strategy, h.assign hwaits⟩
  | tick =>
    cases h with
    | active hsome hpending =>
      obtain ⟨i, hi⟩ := Option.ne_none_iff_exists'.mp hsome
      simp [SwitchingHistory.step, hi, BrowserHistory.step, hpending] at hstep
    | leaving hstrategy hpending habove =>
      obtain ⟨t', ht', hresult⟩ := tick_of_leaving hstrategy hpending habove
      cases ht'.symm.trans hstep
      exact hresult
    | inactive hstrategy hpending =>
      simp [SwitchingHistory.step, hstrategy, hpending] at hstep

/-- The way back from the entry of a strategy, once another one listens, is reported as the
user's. -/
lemma popRoute_of_back {strategy : ι} (hstrategy : s.locationStrategy = some strategy)
    (hpending : s.browser.pending = [.back]) (habove : AboveOrigin s.browser.history) :
    ∃ t, s.step path .tick = some t ∧ t.browser.messages = s.browser.messages ++ [.popRoute] := by
  obtain ⟨origin, rest, hback, horigin⟩ := habove.exists_back
  rw [step, hstrategy]
  simp only [BrowserHistory.step, hpending, HistoryEvent.apply, History.goBack, hback,
    Option.bind_eq_bind, Option.bind_some, popStateListener, horigin, EntryState.origin, if_true]
  exact ⟨_, rfl, rfl⟩

/-- An assignment that does not wait leads to a message, though no user has done anything. -/
theorem popRoute_of_not_waits (h : s.Place) {action : Action ι} (hwaits : ¬s.Waits action)
    (hstep : s.step path action = some t) :
    ∃ u, t.step path .tick = some u ∧ u.browser.messages = s.browser.messages ++ [.popRoute] := by
  match action with
  | .tick | .assign none => exact absurd trivial hwaits
  | .assign (some strategy) =>
    obtain ⟨hne, hbusy⟩ := Classical.not_imp.mp hwaits
    cases hstep
    -- the new strategy finds the flutter entry, from which the browser is about to go back
    have hkept : AboveOrigin s.browser.history → s.setLocationStrategy path (some strategy) =
        { s.tearoffStrategy with locationStrategy := some strategy } := by
      intro habove
      have htearoff : s.tearoffStrategy.browser.history = s.browser.history := by
        rw [tearoffStrategy]
        split <;> rfl
      rw [setLocationStrategy, if_pos (Ne.symm hne), setupStrategy]
      simp only [BrowserHistory.setupStrategy, htearoff, habove.1, EntryState.flutter, if_true]
      rw [← htearoff]
    have hmessages : (s.setLocationStrategy path (some strategy)).browser.messages =
        s.browser.messages := messages_setLocationStrategy _
    rw [← hmessages]
    cases h with
    | active hsome hpending habove =>
      obtain ⟨i, hi⟩ := Option.ne_none_iff_exists'.mp hsome
      rw [hkept habove, tearoffStrategy, hi]
      exact popRoute_of_back rfl (by rw [hpending]; rfl) habove
    | leaving hnone hpending habove =>
      rw [hkept habove, tearoffStrategy, hnone]
      exact popRoute_of_back rfl hpending habove
    | inactive hnone hpending => exact absurd ⟨hnone, hpending⟩ hbusy

/-- If strategies are assigned when there is none and nothing is pending, then no message is ever
sent and no assertion fails, and at rest the current entry is a flutter entry directly above an
origin entry. -/
theorem quiet_of_run (hfresh : Fresh history) {actions : List (Action ι)}
    (hrun : Run (step path) Waits (init history) actions s) : s.Quiet path := by
  have hinvariant : s.browser.messages = [] ∧ s.Place := by
    refine hrun.invariant (P := fun s => s.browser.messages = [] ∧ s.Place)
      ⟨rfl, .inactive rfl rfl hfresh⟩ ?_
    rintro s action t ⟨hmessages, hplace⟩ hwaits hstep
    obtain ⟨heq, hplace⟩ := hplace.step hwaits hstep
    exact ⟨heq.trans hmessages, hplace⟩
  obtain ⟨hmessages, hplace⟩ := hinvariant
  cases hplace with
  | active _ hpending habove => exact ⟨hmessages, (absurd hpending ·), fun _ _ => habove⟩
  | leaving hstrategy hpending habove =>
    have htick : (s.step path .tick).isSome := by
      obtain ⟨t, ht, -⟩ := tick_of_leaving hstrategy hpending habove
      rw [ht]
      rfl
    exact ⟨hmessages, fun _ => htick, fun _ hsome => absurd hstrategy hsome⟩
  | inactive hstrategy hpending _ =>
    exact ⟨hmessages, (absurd hpending ·), fun _ hsome => absurd hstrategy hsome⟩

/-- A strategy is taken off, the browser goes back, and another strategy is assigned. -/
theorem quiet_of_run_switch : ∃ s : SwitchingHistory ℕ,
    Run (step fun _ => id) Waits (init ⟨[], ⟨.null, "/"⟩, []⟩)
      [.assign (some 0), .assign none, .tick, .assign (some 1)] s ∧
    s.locationStrategy = some 1 ∧ s.Quiet fun _ => id := by
  have hrun := run_iff_exec.mpr (show exec (step fun _ => id) Waits
    (init ⟨[], ⟨.null, "/"⟩, []⟩)
    [.assign (some 0), .assign none, .tick, .assign (some 1)] = some _ from rfl)
  exact ⟨_, hrun, rfl, quiet_of_run (absurd · (by decide)) hrun⟩

/-- One strategy is replaced by another: the browser goes back from the entry of the first one, and
the second one reports that the user has gone back. -/
theorem popRoute_of_switch : ∃ s : SwitchingHistory ℕ,
    Run (step fun _ => id) unguarded (init ⟨[], ⟨.null, "/"⟩, []⟩)
      [.assign (some 0), .assign (some 1), .tick] s ∧
    s.browser.messages = [.popRoute] :=
  ⟨_, run_iff_exec.mpr rfl, rfl⟩

end SwitchingHistory

end WebUi
