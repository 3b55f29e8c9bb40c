import FlutterEngine.Lib.Run

/-!
# Presenting frames on Fuchsia

While `SessionConnection` waits for a presentation callback, a frame is presented with the next one.
Only then the operation that detaches the children of the root node is enqueued, so frames get mixed
unless none is presented while the vsync signal is low (`separated_of_run`). No operation is lost or
presented twice, and no frame waits for more than two callbacks (`flushed_of_run`).
-/

namespace FlutterRunner

open Lib List

structure SessionConnection (α : Type) where
  presentationCallbackPending : Bool
  presentSessionPending : Bool
  /-- Whether the vsync signal is high. -/
  signal : Bool
  /-- How many presents of the session wait for their callback. -/
  awaiting : ℕ
  /-- The number of frames so far. -/
  frames : ℕ
  /-- The node operations since the last detach operation, each with its frame. -/
  operations : List (ℕ × α)
  /-- The node operations before each detach operation. -/
  scenes : List (List (ℕ × α))

namespace SessionConnection

variable {α : Type} (s : SessionConnection α)

/-- `EnqueueClearOps` -/
def enqueueClearOps : SessionConnection α :=
  { s with operations := [], scenes := s.operations :: s.scenes }

/-- `PresentSession` -/
def presentSession : SessionConnection α :=
  enqueueClearOps { s with presentationCallbackPending := true, awaiting := s.awaiting + 1 }

/-- The constructor. -/
def init : SessionConnection α := presentSession ⟨false, false, true, 0, 0, [], []⟩

inductive Action (α : Type) where
  /-- The node operations of a frame are enqueued, and `Present` is called. -/
  | present (nodes : List α)
  /-- The callback of `PresentSession`. -/
  | callback

/-- The node operations of the frame that an action presents. -/
def Action.nodes : Action α → Option (List α)
  | .present nodes => some nodes
  | .callback => none

def step : Action α → Option (SessionConnection α)
  | .present nodes =>
    let operations := s.operations ++ nodes.map (s.frames, ·)
    let s := { s with frames := s.frames + 1, operations }
    if s.presentationCallbackPending then
      some { s with presentSessionPending := true, signal := false }
    else some s.presentSession
  | .callback =>
    if s.awaiting = 0 then none
    else
      let s := { s with awaiting := s.awaiting - 1, presentationCallbackPending := false }
      let s := if s.presentSessionPending then
        presentSession { s with presentSessionPending := false } else s
      some { s with signal := true }

/-- No frame is presented while the signal is low. -/
def Throttled : Action α → Prop
  | .present _ => s.signal = true
  | .callback => True

/-- Between two detach operations there are the operations of at most one frame. -/
def Separated : Prop := ∀ scene ∈ s.operations :: s.scenes, ∀ a ∈ scene, ∀ b ∈ scene, a.1 = b.1

/-- The states between the events. -/
inductive Reached : SessionConnection α → Prop
  | idle {frames scenes} : Reached ⟨false, false, true, 0, frames, [], scenes⟩
  | presenting {frames scenes} : Reached ⟨true, false, true, 1, frames, [], scenes⟩
  | throttled {frames operations scenes} :
      Reached ⟨true, true, false, 1, frames, operations, scenes⟩

variable {s} {t : SessionConnection α} {action : Action α} {actions : List (Action α)}

lemma Reached.step (h : s.Reached) (hstep : s.step action = some t) : t.Reached := by
  cases h <;> cases action <;> cases hstep <;> constructor

lemma reached_of_run {guard} (hrun : Run step guard init actions s) : s.Reached :=
  hrun.invariant .presenting fun _ _ _ h _ hstep => h.step hstep

lemma Separated.step (hseparated : s.Separated) (h : s.Reached) (hthrottled : s.Throttled action)
    (hstep : s.step action = some t) : t.Separated := by
  have hone : ∀ (frame : ℕ) (nodes : List α), ∀ a ∈ nodes.map (frame, ·),
      ∀ b ∈ nodes.map (frame, ·), a.1 = b.1 := by
    simp
  have hscenes := (forall_mem_cons.mp hseparated).2
  cases h with
  | idle =>
    cases action <;> cases hstep
    exact forall_mem_cons.mpr ⟨nofun, forall_mem_cons.mpr ⟨hone _ _, hscenes⟩⟩
  | presenting =>
    cases action <;> cases hstep
    · exact forall_mem_cons.mpr ⟨hone _ _, hscenes⟩
    · exact hseparated
  | throttled =>
    cases action with
    | present nodes => cases hthrottled
    | callback =>
      cases hstep
      exact forall_mem_cons.mpr ⟨nofun, hseparated⟩

lemma separated_of_throttled (hrun : Run step Throttled init actions s) : s.Separated := by
  induction hrun with
  | nil => simp [Separated, init, presentSession, enqueueClearOps]
  | snoc hrun hguard hstep ih => exact ih.step (reached_of_run hrun) hguard hstep

/-- At most one callback is awaited, and the signal is low iff a frame waits for it. The frames are
separated if none is presented while the signal is low. -/
theorem separated_of_run (hrun : Run step unguarded init actions s) :
    s.awaiting ≤ 1 ∧ (s.signal = false ↔ s.presentSessionPending = true) ∧
      (Run step Throttled init actions s → s.Separated) := by
  refine ⟨?_, ?_, separated_of_throttled⟩ <;> cases reached_of_run hrun <;> simp

/-- A frame waits for the callback of the constructor, and another one for its own. -/
theorem separated_of_run_two : ∃ s : SessionConnection Unit,
    Run step Throttled init [.present [()], .callback, .present [()]] s ∧ s.Separated := by
  have hrun : Run step Throttled init [.present [()], .callback, .present [()]] _ :=
    .cons rfl rfl (.cons trivial rfl (.cons rfl rfl .nil))
  exact ⟨_, hrun, (separated_of_run (hrun.mono fun _ _ _ => trivial)).2.2 hrun⟩

/-- Two frames are presented before the callback of the constructor. -/
theorem not_separated : ∃ s : SessionConnection Unit,
    Run step unguarded init [.present [()], .present [()], .callback] s ∧ ¬s.Separated := by
  refine ⟨_, run_iff_exec.mpr rfl, fun h => ?_⟩
  have hsame := h [(0, ()), (1, ())] (by decide) (0, ()) (by decide) (1, ()) (by decide)
  cases hsame

/-! ## No operation is lost -/

/-- The node operations of the frames that the actions present, each with the number of its
frame. -/
def enqueued (actions : List (Action α)) : List (ℕ × α) :=
  (actions.filterMap Action.nodes).zipIdx.flatMap fun frame => frame.1.map (frame.2, ·)

/-- All node operations so far, in their order. -/
def history (s : SessionConnection α) : List (ℕ × α) := (s.operations :: s.scenes).reverse.flatten

/-- Presenting the session moves operations and drops none. -/
lemma history_presentSession : s.presentSession.history = s.history := by
  simp [history, presentSession, enqueueClearOps]

/-- The operations of a frame come behind those of all frames before it. -/
lemma enqueued_append_present (actions : List (Action α)) (nodes : List α) :
    enqueued (actions ++ [.present nodes]) =
      enqueued actions ++ nodes.map ((actions.filterMap Action.nodes).length, ·) := by
  have hframes : (actions ++ [Action.present nodes]).filterMap Action.nodes =
      actions.filterMap Action.nodes ++ [nodes] := by
    rw [filterMap_append]
    rfl
  rw [enqueued, hframes, zipIdx_append, flatMap_append, Nat.zero_add]
  exact congrArg _ (append_nil _)

/-- The connection has the operations of all frames that were presented, and has counted these. -/
def Accounts (actions : List (Action α)) (s : SessionConnection α) : Prop :=
  s.frames = (actions.filterMap Action.nodes).length ∧ s.history = enqueued actions

/-- A frame is added to the history, and a callback leaves it as it is. -/
lemma Accounts.step (h : Accounts actions s) (hstep : s.step action = some t) :
    Accounts (actions ++ [action]) t := by
  obtain ⟨hframes, hhistory⟩ := h
  cases action with
  | present nodes =>
    have hnew : ((s.operations ++ nodes.map (s.frames, ·)) :: s.scenes).reverse.flatten =
        enqueued (actions ++ [.present nodes]) := by
      rw [enqueued_append_present, ← hhistory, ← hframes, history]
      simp
    have hcount : s.frames + 1 =
        ((actions ++ [Action.present nodes]).filterMap Action.nodes).length := by
      rw [hframes, filterMap_append, length_append]
      rfl
    rw [SessionConnection.step] at hstep
    split at hstep <;> cases hstep
    · exact ⟨hcount, hnew⟩
    · exact ⟨hcount, history_presentSession.trans hnew⟩
  | callback =>
    have hsame : Accounts (actions ++ [.callback]) s := by
      have hframes' : (actions ++ [Action.callback]).filterMap Action.nodes =
          actions.filterMap Action.nodes := by
        rw [filterMap_append]
        exact append_nil _
      rw [Accounts, enqueued, hframes']
      exact ⟨hframes, hhistory⟩
    rw [SessionConnection.step] at hstep
    split at hstep <;> cases hstep
    split
    · exact ⟨hsame.1, history_presentSession.trans hsame.2⟩
    · exact hsame

lemma accounts_of_run (hrun : Run step unguarded init actions s) : Accounts actions s :=
  hrun.invariant_history ⟨rfl, rfl⟩ fun _ _ _ _ h _ hstep => h.step hstep

/-- Once the awaited callbacks have come, at most two, no frame waits any more: the node operations
of all frames, and no others, have been presented in their order, and the signal is high. -/
theorem flushed_of_run (hrun : Run step unguarded init actions s) :
    ∃ n t, n ≤ 2 ∧ Run step unguarded s (replicate n .callback) t ∧ t.awaiting = 0 ∧
      t.signal = true ∧ t.operations = [] ∧ t.scenes.reverse.flatten = enqueued actions := by
  have hhistory := (accounts_of_run hrun).2
  rw [history] at hhistory
  cases reached_of_run hrun with
  | idle => exact ⟨0, _, by decide, .nil, rfl, rfl, rfl, by simpa using hhistory⟩
  | presenting =>
    exact ⟨1, _, by decide, run_iff_exec.mpr rfl, rfl, rfl, rfl, by simpa using hhistory⟩
  | throttled => exact ⟨2, _, by decide, run_iff_exec.mpr rfl, rfl, rfl, rfl, hhistory⟩

/-- Two frames that wait for the callback of the constructor are presented by two callbacks. -/
theorem flushed_of_run_throttled : ∃ s : SessionConnection ℕ,
    Run step unguarded init [.present [7, 8], .present [9]] s ∧ s.signal = false ∧ ∃ n t, n ≤ 2 ∧
      Run step unguarded s (replicate n .callback) t ∧ t.signal = true ∧
        t.scenes.reverse.flatten = [(0, 7), (0, 8), (1, 9)] := by
  have hrun := run_iff_exec.mpr
    (rfl : exec step unguarded (init (α := ℕ)) [.present [7, 8], .present [9]] = some _)
  obtain ⟨n, t, hn, hcallbacks, -, hsignal, -, hscenes⟩ := flushed_of_run hrun
  exact ⟨_, hrun, rfl, n, t, hn, hcallbacks, hsignal, hscenes⟩

end SessionConnection

end FlutterRunner
