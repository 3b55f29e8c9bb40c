import FlutterEngine.Lib.Run
import Mathlib.Data.Int.Notation

/-!
# Reporting frame timings

`Shell` collects the times of the phases of each frame and reports them in batches: after the first
frame, as soon as there are a hundred frames, and from a task that is scheduled for the others. The
flag `frame_timings_report_scheduled_` outlives a full batch, so that its task may find nothing to
report. What `Shell` posts to the UI thread is taken to arrive.

* `recorded` are the times of the frames that were rasterized while reporting was on, as the calls
  determine them.
* `Timely` is what holds between any two calls: the batches and what is not reported are what was
  recorded, and a task is to come for what is not reported. Every call keeps it.
* `batches_append_unreported` is this for every run.
-/

namespace Flutter

open Lib

/-- What `Shell` knows of timings. -/
structure FrameTimings where
  needsReportTimings : Bool
  firstFrameRasterized : Bool
  reportScheduled : Bool
  unreportedTimings : List ℤ
  /-- How many report tasks were posted and have not run. -/
  reportTasks : ℕ
  /-- What was passed to the engine. -/
  batches : List (List ℤ)

namespace FrameTimings

def init : FrameTimings := ⟨false, false, false, [], 0, []⟩

/-- The number of `FrameTiming::kPhases` -/
def kCount : ℕ := 4

/-- `ReportTimings` -/
def reportTimings (s : FrameTimings) : FrameTimings :=
  { s with unreportedTimings := [], batches := s.batches ++ [s.unreportedTimings] }

/-- `UnreportedFramesCount`, which asserts that nothing remains. -/
def unreportedFramesCount (s : FrameTimings) : ℕ := s.unreportedTimings.length / kCount

/-- `OnFrameRasterized`, with the microseconds of the phases -/
def onFrameRasterized (s : FrameTimings) (timing : Vector ℤ kCount) : FrameTimings :=
  if s.needsReportTimings then
    let s := { s with unreportedTimings := s.unreportedTimings ++ timing.toList }
    if s.firstFrameRasterized = false ∨ s.unreportedFramesCount ≥ 100 then
      { s with firstFrameRasterized := true }.reportTimings
    else if s.reportScheduled = false then
      { s with reportScheduled := true, reportTasks := s.reportTasks + 1 }
    else
      s
  else
    s

/-- The task that `OnFrameRasterized` posts -/
def reportTask (s : FrameTimings) : FrameTimings :=
  let s := { s with reportScheduled := false }
  if s.unreportedFramesCount > 0 then s.reportTimings else s

/-- What can happen. -/
inductive Action where
  | setNeedsReportTimings (value : Bool)
  | onFrameRasterized (timing : Vector ℤ kCount)
  | reportTask

def step (s : FrameTimings) : Action → Option FrameTimings
  | .setNeedsReportTimings value => some { s with needsReportTimings := value }
  | .onFrameRasterized timing => some (s.onFrameRasterized timing)
  | .reportTask =>
    match s.reportTasks with
    | 0 => none
    | reportTasks + 1 => some { s with reportTasks }.reportTask

/-- Whether reporting is on after the calls. -/
def reporting (needsReportTimings : Bool) : List Action → Bool
  | [] => needsReportTimings
  | .setNeedsReportTimings value :: actions => reporting value actions
  | _ :: actions => reporting needsReportTimings actions

/-- The times of the frames that were rasterized while reporting was on, in order. -/
def recorded (needsReportTimings : Bool) : List Action → List ℤ
  | [] => []
  | .setNeedsReportTimings value :: actions => recorded value actions
  | .onFrameRasterized timing :: actions =>
    (if needsReportTimings then timing.toList else []) ++ recorded needsReportTimings actions
  | .reportTask :: actions => recorded needsReportTimings actions

variable {s t : FrameTimings} {action : Action} {actions : List Action}

/-- Whether reporting is on after some calls and some more. -/
lemma reporting_append (needsReportTimings : Bool) (actions actions' : List Action) :
    reporting needsReportTimings (actions ++ actions') =
      reporting (reporting needsReportTimings actions) actions' := by
  induction actions generalizing needsReportTimings with
  | nil => rfl
  | cons action actions ih => cases action <;> exact ih _

/-- What is recorded by some calls and some more. -/
lemma recorded_append (needsReportTimings : Bool) (actions actions' : List Action) :
    recorded needsReportTimings (actions ++ actions') =
      recorded needsReportTimings actions ++
        recorded (reporting needsReportTimings actions) actions' := by
  induction actions generalizing needsReportTimings with
  | nil => rfl
  | cons action actions ih =>
    cases action with
    | setNeedsReportTimings value => exact ih value
    | onFrameRasterized timing =>
      rw [List.cons_append, recorded, recorded, ih, List.append_assoc]
      rfl
    | reportTask => exact ih needsReportTimings

/-- What holds between any two calls. -/
structure Timely (actions : List Action) (s : FrameTimings) : Prop where
  complete : s.batches.flatten ++ s.unreportedTimings = recorded false actions
  needsReportTimings_eq : s.needsReportTimings = reporting false actions
  whole : s.unreportedTimings.length % kCount = 0
  lt : s.unreportedFramesCount < 100
  scheduled : s.unreportedTimings ≠ [] → s.reportScheduled = true
  reportTasks_eq : s.reportTasks = s.reportScheduled.toNat

/-- After a report, nothing is left to report. -/
lemma timely_reportTimings
    (hcomplete : s.batches.flatten ++ s.unreportedTimings = recorded false actions)
    (hneeds : s.needsReportTimings = reporting false actions)
    (htasks : s.reportTasks = s.reportScheduled.toNat) : Timely actions s.reportTimings :=
  ⟨by simpa [reportTimings] using hcomplete, hneeds, rfl,
    by simp [reportTimings, unreportedFramesCount], absurd rfl, htasks⟩

/-- A frame is recorded if reporting is on, and reported now or later. -/
theorem Timely.onFrameRasterized (h : Timely actions s) (timing : Vector ℤ kCount) :
    Timely (actions ++ [.onFrameRasterized timing]) (s.onFrameRasterized timing) := by
  have hneeds : s.needsReportTimings =
      reporting false (actions ++ [.onFrameRasterized timing]) := by
    rw [reporting_append, ← h.needsReportTimings_eq]
    rfl
  have hrecorded : recorded false (actions ++ [.onFrameRasterized timing]) =
      recorded false actions ++ if s.needsReportTimings then timing.toList else [] := by
    rw [recorded_append, ← h.needsReportTimings_eq, recorded, recorded, List.append_nil]
  rw [FrameTimings.onFrameRasterized]
  by_cases hon : s.needsReportTimings = true
  · rw [if_pos hon] at hrecorded
    have hcomplete : s.batches.flatten ++ (s.unreportedTimings ++ timing.toList) =
        recorded false (actions ++ [.onFrameRasterized timing]) := by
      rw [hrecorded, ← List.append_assoc, h.complete]
    have hwhole : (s.unreportedTimings ++ timing.toList).length % kCount = 0 := by
      rw [List.length_append, Vector.length_toList, Nat.add_mod_right, h.whole]
    rw [if_pos hon]
    dsimp only
    split
    · exact timely_reportTimings hcomplete hneeds h.reportTasks_eq
    · next hfew =>
      have hlt := Nat.lt_of_not_le (not_or.mp hfew).2
      split
      · next hscheduled =>
        refine ⟨hcomplete, hneeds, hwhole, hlt, fun _ => rfl, ?_⟩
        rw [h.reportTasks_eq, hscheduled]
        rfl
      · next hscheduled =>
        -- the task that is scheduled already will report this frame, too
        exact ⟨hcomplete, hneeds, hwhole, hlt, fun _ => (Bool.not_eq_false _).mp hscheduled,
          h.reportTasks_eq⟩
  · rw [if_neg hon, List.append_nil] at hrecorded
    rw [if_neg hon]
    exact ⟨hrecorded ▸ h.complete, hneeds, h.whole, h.lt, h.scheduled, h.reportTasks_eq⟩

/-- The task reports what there is. -/
lemma Timely.reportTask {reportTasks : ℕ} (h : Timely actions s)
    (htasks : s.reportTasks = reportTasks + 1) :
    Timely actions { s with reportTasks }.reportTask := by
  have hnone : reportTasks = 0 := by
    have hle := h.reportTasks_eq ▸ Bool.toNat_le s.reportScheduled
    omega
  rw [FrameTimings.reportTask]
  split
  · exact timely_reportTimings h.complete h.needsReportTimings_eq hnone
  · next hzero =>
    have hwhole := h.whole
    rw [unreportedFramesCount] at hzero
    dsimp only [kCount] at hzero hwhole
    have hempty : s.unreportedTimings = [] := List.length_eq_zero_iff.mp (by omega)
    exact ⟨h.complete, h.needsReportTimings_eq, h.whole, h.lt, fun hne => absurd hempty hne, hnone⟩

/-- Each call keeps what holds between two calls. -/
theorem Timely.step (h : Timely actions s) (hstep : s.step action = some t) :
    Timely (actions ++ [action]) t := by
  cases action with
  | setNeedsReportTimings value =>
    cases hstep
    refine ⟨?_, ?_, h.whole, h.lt, h.scheduled, h.reportTasks_eq⟩
    · rw [recorded_append, h.complete, recorded, recorded, List.append_nil]
    · rw [reporting_append, reporting, reporting]
  | onFrameRasterized timing =>
    cases hstep
    exact h.onFrameRasterized timing
  | reportTask =>
    have hrecorded : recorded false (actions ++ [.reportTask]) = recorded false actions := by
      rw [recorded_append, recorded, recorded, List.append_nil]
    have hreporting : reporting false (actions ++ [.reportTask]) = reporting false actions := by
      rw [reporting_append]
      rfl
    rw [FrameTimings.step] at hstep
    split at hstep
    · cases hstep
    · next htasks =>
      cases hstep
      have hreport := h.reportTask htasks
      exact ⟨hrecorded ▸ hreport.complete, hreporting ▸ hreport.needsReportTimings_eq,
        hreport.whole, hreport.lt, hreport.scheduled, hreport.reportTasks_eq⟩

/-- The batches and what is not reported yet are the times that were recorded, in order. Fewer than
a hundred frames are not reported, and while there are any, a report task is to come. -/
theorem batches_append_unreported (h : Run step unguarded init actions s) :
    s.batches.flatten ++ s.unreportedTimings = recorded false actions ∧
      s.unreportedTimings.length % kCount = 0 ∧ s.unreportedFramesCount < 100 ∧
      (s.unreportedTimings ≠ [] → s.reportScheduled = true ∧ s.reportTasks = 1) := by
  have hs : Timely actions s := h.invariant_history ⟨rfl, rfl, rfl, by decide, absurd rfl, rfl⟩
    fun _ _ _ _ hs _ hstep => hs.step hstep
  refine ⟨hs.complete, hs.whole, hs.lt, fun hne => ⟨hs.scheduled hne, ?_⟩⟩
  rw [hs.reportTasks_eq, hs.scheduled hne]
  rfl

/-- The first frame is reported at once, the second one by the task, and the third one not at all,
since reporting is off. -/
theorem batches_append_unreported_three : ∃ s,
    Run step unguarded init [.setNeedsReportTimings true, .onFrameRasterized #v[1, 2, 3, 4],
      .onFrameRasterized #v[5, 6, 7, 8], .setNeedsReportTimings false,
      .onFrameRasterized #v[9, 10, 11, 12], .reportTask] s ∧
    s.batches = [[1, 2, 3, 4], [5, 6, 7, 8]] ∧
    s.batches.flatten ++ s.unreportedTimings = [1, 2, 3, 4, 5, 6, 7, 8] := by
  have hrun := run_iff_exec.mpr (show exec step unguarded init [.setNeedsReportTimings true,
    .onFrameRasterized #v[1, 2, 3, 4], .onFrameRasterized #v[5, 6, 7, 8],
    .setNeedsReportTimings false, .onFrameRasterized #v[9, 10, 11, 12], .reportTask] = some _
      from rfl)
  exact ⟨_, hrun, rfl, (batches_append_unreported hrun).1⟩

end FrameTimings

end Flutter
