import FlutterEngine.Lib.Run
import Mathlib.Data.Int.Order.Basic
import Mathlib.Logic.Function.Basic

/-!
# Input connections of Android platform views

`TextInputPlugin` makes the input connection for the current target: a text field of the framework,
or a platform view, which makes the connection itself. While `PlatformViewsController` moves a view
to a new virtual display, the connection is locked and the last one is returned again.

The module introduces:

* `TextInputPlugin`, the target, the lock, the last connection and the views with their resizes, and
  `step`, with an event for each call of the framework or of Android;
* `Belongs`, what is expected of the connection that is created next: none without a target, one of
  the client, or one of the view, which is the last one during a resize of the view;
* `Allowed`, the events after which this is so.

There is one lock and one last connection for all views. They do what they are for as long as a
resize starts with a connection of the target and the resizes of the target do not overlap with
others (`belongs_of_run`). Nothing tells the plugin of the views that a restart of the engine
disposes of (`createInputConnection_after_restart`).
-/

namespace Flutter

open Lib

/-- `InputTarget` -/
inductive InputTarget where
  | noTarget
  | frameworkClient (id : ℤ)
  | platformView (id : ℤ)
deriving DecidableEq, Repr

/-- Input connections, told apart by a number; one of a platform view names the view. -/
inductive InputConnection where
  | framework (client : ℤ) (object : ℕ)
  | view (view object : ℕ)
deriving DecidableEq, Repr

/-- `TextInputPlugin` and the views of `PlatformViewsController`. A view is a new object each time
it is created; `resizing` has the views whose resize is to be completed. -/
structure TextInputPlugin where
  inputTarget : InputTarget := .noTarget
  lastInputConnection : Option InputConnection := none
  isInputConnectionLocked : Bool := false
  vdControllers : ℤ → Option ℕ := fun _ => none
  resizing : List ℕ := []
  nextObject : ℕ := 0

namespace TextInputPlugin

/-- What happens to the plugin and the controller. -/
inductive Event where
  | setClient (client : ℤ)
  | setPlatformViewClient (viewId : ℤ)
  | clearClient
  | createPlatformView (viewId : ℤ)
  | disposePlatformView (viewId : ℤ)
  | resizePlatformView (viewId : ℤ)
  | resizeCompleted (view : ℕ)
  | onPreEngineRestart
  | createInputConnection
deriving DecidableEq, Repr

variable (self : TextInputPlugin)

/-- `createInputConnection`; nothing for the exception when there is no view of the id -/
def createInputConnection : Option (Option InputConnection × TextInputPlugin) :=
  match self.inputTarget with
  | .noTarget => some (none, { self with lastInputConnection := none })
  | .platformView id =>
    if self.isInputConnectionLocked then
      some (self.lastInputConnection, self)
    else
      (self.vdControllers id).map fun view =>
        let connection := some (.view view self.nextObject)
        (connection, { self with
          lastInputConnection := connection, nextObject := self.nextObject + 1 })
  | .frameworkClient id =>
    let connection := some (.framework id self.nextObject)
    some (connection, { self with
      lastInputConnection := connection, nextObject := self.nextObject + 1 })

/-- `lockPlatformViewInputConnection` -/
def lockPlatformViewInputConnection : TextInputPlugin :=
  match self.inputTarget with
  | .platformView _ => { self with isInputConnectionLocked := true }
  | _ => self

/-- `clearPlatformViewClient` -/
def clearPlatformViewClient (viewId : ℤ) : TextInputPlugin :=
  if self.inputTarget = .platformView viewId then { self with inputTarget := .noTarget } else self

/-- `clearTextInputClient` -/
def clearTextInputClient : TextInputPlugin :=
  match self.inputTarget with
  | .platformView _ => self
  | _ => { self with inputTarget := .noTarget, isInputConnectionLocked := false }

/-- One event. A view that exists already is not created, and one that does not is neither disposed
of nor resized: the controller throws, and the state stays. -/
def step : Event → Option TextInputPlugin
  | .setClient client =>
    some { self with inputTarget := .frameworkClient client, isInputConnectionLocked := false }
  | .setPlatformViewClient viewId => some { self with inputTarget := .platformView viewId }
  | .clearClient => some self.clearTextInputClient
  | .createPlatformView viewId =>
    match self.vdControllers viewId with
    | some _ => some self
    | none => some { self with
        vdControllers := Function.update self.vdControllers viewId (some self.nextObject)
        nextObject := self.nextObject + 1 }
  | .disposePlatformView viewId =>
    match self.vdControllers viewId with
    | none => some self
    | some _ =>
      let self := self.clearPlatformViewClient viewId
      some { self with vdControllers := Function.update self.vdControllers viewId none }
  | .resizePlatformView viewId =>
    match self.vdControllers viewId with
    | none => some self
    | some view =>
      let self := self.lockPlatformViewInputConnection
      some { self with resizing := view :: self.resizing }
  | .resizeCompleted view =>
    if view ∈ self.resizing then
      some { self with resizing := self.resizing.erase view, isInputConnectionLocked := false }
    else
      none
  | .onPreEngineRestart => some { self with vdControllers := fun _ => none }
  | .createInputConnection => self.createInputConnection.map Prod.snd

/-! ## Whose connection it is -/

/-- The connection that is created next belongs to the target: none without a target, a new one of
the client, or one that the view created, the last one while the view is resized. -/
def Belongs : Prop :=
  ∃ connection, self.createInputConnection.map Prod.fst = some connection ∧
    match self.inputTarget with
    | .noTarget => connection = none
    | .frameworkClient id => ∃ object, connection = some (.framework id object)
    | .platformView id => ∃ view object, self.vdControllers id = some view ∧
        connection = some (.view view object) ∧
        (view ∈ self.resizing → connection = self.lastInputConnection)

/-- The last connection is one that the view created. -/
def LastIsOf (view : ℕ) : Prop := ∃ object, self.lastInputConnection = some (.view view object)

/-- An event keeps the connection with the target. A view that becomes the target is live and not
being resized, and the lock, if it is on, is on a connection of it. A resize starts with a
connection of the view that is the target, which is not being resized; if it is the view itself, no
other one is. The engine does not restart while a view is the target. -/
def Allowed : Event → Prop
  | .setPlatformViewClient viewId => ∃ view, self.vdControllers viewId = some view ∧
      view ∉ self.resizing ∧ (self.isInputConnectionLocked → self.LastIsOf view)
  | .resizePlatformView viewId => ∀ id view, self.inputTarget = .platformView id →
      self.vdControllers id = some view → self.LastIsOf view ∧ view ∉ self.resizing ∧
        (self.vdControllers viewId = some view → self.resizing = [])
  | .onPreEngineRestart => ∀ id, self.inputTarget ≠ .platformView id
  | _ => True

/-- A view that is the target is live, the lock is on a connection of it, and during a resize of it,
the only one then, the lock is on. -/
def Kept (s : TextInputPlugin) : Prop :=
  ∀ id, s.inputTarget = .platformView id → ∃ view, s.vdControllers id = some view ∧
    (s.isInputConnectionLocked → s.LastIsOf view) ∧
    (view ∈ s.resizing → s.isInputConnectionLocked ∧ s.resizing = [view])

variable {self} {s t : TextInputPlugin}

/-- The connection of the target, if what the lock is for holds. -/
theorem Kept.belongs (h : s.Kept) : s.Belongs := by
  unfold Belongs createInputConnection
  cases htarget : s.inputTarget with
  | noTarget => exact ⟨_, rfl, rfl⟩
  | frameworkClient id => exact ⟨_, rfl, _, rfl⟩
  | platformView id =>
    obtain ⟨view, hview, hlast, hresizing⟩ := h id htarget
    by_cases hlocked : s.isInputConnectionLocked
    · obtain ⟨object, hobject⟩ := hlast hlocked
      exact ⟨_, by simp [hlocked], view, object, hview, hobject, fun _ => rfl⟩
    · refine ⟨some (.view view s.nextObject), by simp [hlocked, hview], view, _, hview, rfl, ?_⟩
      exact fun hmem => absurd (hresizing hmem).1 hlocked

/-- Without a view as the target there is nothing to keep. -/
lemma Kept.of_no_view (htarget : ∀ id, t.inputTarget ≠ .platformView id) : t.Kept :=
  fun id hid => absurd hid (htarget id)

/-- Another view is created or disposed of. -/
lemma Kept.update (h : s.Kept) {viewId : ℤ} (hother : s.inputTarget ≠ .platformView viewId)
    (view : Option ℕ) (object : ℕ) :
    Kept { s with
      vdControllers := Function.update s.vdControllers viewId view, nextObject := object } := by
  intro id hid
  have hne : id ≠ viewId := fun heq => hother (heq ▸ hid)
  simpa only [Function.update_of_ne hne, LastIsOf] using h id hid

/-- A view that is the target makes a connection of its own, or there is a lock. -/
theorem Kept.createInputConnection (h : s.Kept)
    (hstep : s.createInputConnection.map Prod.snd = some t) : t.Kept := by
  unfold TextInputPlugin.createInputConnection at hstep
  cases htarget : s.inputTarget with
  | noTarget =>
    simp only [htarget] at hstep
    cases hstep
    exact .of_no_view nofun
  | frameworkClient id =>
    simp only [htarget] at hstep
    cases hstep
    exact .of_no_view nofun
  | platformView id =>
    obtain ⟨view, hview, hlast, hresizing⟩ := h id htarget
    by_cases hlocked : s.isInputConnectionLocked
    · simp only [htarget, hlocked] at hstep
      cases hstep
      exact h
    · simp only [htarget, hlocked, hview] at hstep
      cases hstep
      intro id' hid'
      cases hid'
      exact ⟨view, hview, nofun, fun hmem => absurd (hresizing hmem).1 hlocked⟩

/-- A resize of some view locks the connection of the target. -/
theorem Kept.resizePlatformView (h : s.Kept) {viewId : ℤ} {view : ℕ}
    (hview : s.vdControllers viewId = some view)
    (hallowed : s.Allowed (.resizePlatformView viewId)) :
    Kept { s.lockPlatformViewInputConnection with
      resizing := view :: s.lockPlatformViewInputConnection.resizing } := by
  unfold lockPlatformViewInputConnection
  split
  · next id htarget =>
    obtain ⟨target, hlive, -, -⟩ := h id htarget
    obtain ⟨hlast, hnot, honly⟩ := hallowed id target htarget hlive
    intro id' hid'
    cases hid'.symm.trans htarget
    refine ⟨target, hlive, fun _ => hlast, fun hmem => ⟨rfl, ?_⟩⟩
    -- it is the target itself that is resized, and no other view is
    obtain rfl := (List.mem_cons.mp hmem).resolve_right hnot
    exact congrArg _ (honly hview)
  · next hno => exact .of_no_view fun id hid => hno id hid

/-- Each allowed event keeps the connection with the target. -/
theorem Kept.step (h : s.Kept) {event : Event} (hallowed : s.Allowed event)
    (hstep : s.step event = some t) : t.Kept := by
  cases event with
  | setClient client =>
    cases hstep
    exact .of_no_view nofun
  | setPlatformViewClient viewId =>
    cases hstep
    obtain ⟨view, hview, hnot, hlast⟩ := hallowed
    intro id hid
    cases hid
    exact ⟨view, hview, hlast, fun hmem => absurd hmem hnot⟩
  | clearClient =>
    cases hstep
    unfold clearTextInputClient
    split
    · exact h
    · exact .of_no_view nofun
  | createPlatformView viewId =>
    simp only [TextInputPlugin.step] at hstep
    split at hstep <;> cases hstep
    · exact h
    · next hnone =>
      refine h.update (fun htarget => ?_) _ _
      obtain ⟨view, hview, -⟩ := h viewId htarget
      simp [hnone] at hview
  | disposePlatformView viewId =>
    simp only [TextInputPlugin.step, clearPlatformViewClient] at hstep
    split at hstep
    · cases hstep
      exact h
    · split at hstep <;> cases hstep
      · exact .of_no_view nofun
      · exact h.update ‹_› _ _
  | resizePlatformView viewId =>
    simp only [TextInputPlugin.step] at hstep
    split at hstep <;> cases hstep
    · exact h
    · exact h.resizePlatformView ‹_› hallowed
  | resizeCompleted view =>
    simp only [TextInputPlugin.step] at hstep
    split at hstep <;> cases hstep
    next hmem =>
    intro id hid
    obtain ⟨target, hlive, -, hresizing⟩ := h id hid
    refine ⟨target, hlive, nofun, fun hmem' => ?_⟩
    -- a resize of the target is the only one, and it is this one that is completed
    have hone := (hresizing (List.mem_of_mem_erase hmem')).2
    rw [hone, List.mem_singleton] at hmem
    simp [hone, hmem] at hmem'
  | onPreEngineRestart =>
    cases hstep
    exact .of_no_view hallowed
  | createInputConnection => exact h.createInputConnection hstep

/-- Whatever allowed events happen, the connection belongs to the target. -/
theorem belongs_of_run {events : List Event} (h : Run step Allowed {} events s) : s.Belongs := by
  refine Kept.belongs (h.invariant (.of_no_view fun _ hid => by cases hid) ?_)
  exact fun _ _ _ hs hallowed hstep => hs.step hallowed hstep

/-- The state that events lead to. -/
def after (events : List Event) : Option TextInputPlugin := events.foldlM step {}

/-- A view is the target, makes a connection and is resized: the connection is locked, and it is the
one that is returned. -/
theorem belongs_of_run_resized :
    let s : TextInputPlugin := {
      inputTarget := .platformView 1, lastInputConnection := some (.view 0 1)
      isInputConnectionLocked := true, resizing := [0], nextObject := 2
      vdControllers := Function.update (fun _ => none) 1 (some 0) }
    Run step Allowed {} [.createPlatformView 1, .setPlatformViewClient 1, .createInputConnection,
      .resizePlatformView 1] s ∧ s.createInputConnection.map Prod.fst = some (some (.view 0 1)) ∧
      s.Belongs := by
  intro s
  have hresize : Allowed {
      inputTarget := .platformView 1, lastInputConnection := some (.view 0 1), nextObject := 2
      vdControllers := Function.update (fun _ => none) 1 (some 0) } (.resizePlatformView 1) := by
    intro id view hid hview
    cases hid
    cases hview
    exact ⟨⟨1, rfl⟩, List.not_mem_nil, fun _ => rfl⟩
  have hrun : Run step Allowed {} [.createPlatformView 1, .setPlatformViewClient 1,
      .createInputConnection, .resizePlatformView 1] s :=
    .snoc (.snoc (.snoc (.snoc .nil trivial rfl) ⟨0, rfl, List.not_mem_nil, nofun⟩ rfl) trivial rfl)
      hresize rfl
  exact ⟨hrun, rfl, belongs_of_run hrun⟩

/-- After a restart the view that is the target is gone, and creating a connection throws. A resize
that starts before the view has made a connection locks the connection of nobody. -/
theorem createInputConnection_after_restart :
    ((after [.createPlatformView 1, .setPlatformViewClient 1, .onPreEngineRestart]).map
        fun s => s.createInputConnection.isNone) = some true ∧
      ((after [.createPlatformView 1, .setPlatformViewClient 1, .resizePlatformView 1]).bind
        fun s => s.createInputConnection.map Prod.fst) = some none := by
  decide

end TextInputPlugin

end Flutter
