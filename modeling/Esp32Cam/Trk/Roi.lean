/-
  Esp32Cam.Trk.Roi — the tracker's rectangle between its API, the frames and the updates.

  A rectangle is written in pixels, kept as parts of the frame's sides, and is in pixels
  again when the tracker is initialized with it; in between the frames may have got another
  size. `Trk.Tracking` has the same state machine over the camera there is; here the
  camera's answers are whatever the environment has them be, each on its own, and what is
  kept of the rectangle and of the quality is kept.

  `onFrameTrackerInit` compares the rows with the frame's width and the columns with its
  height, and an update reports the number of columns for the height: `roi_respected_iff`,
  `a_rectangle_below_the_frame`.
-/

import Esp32Cam.Lib.PartialRun
import Esp32Cam.Trk.Tracking

namespace Esp32Cam.Trk.Roi

open Esp32Cam.Cam Esp32Cam.Lib.PartialRun

/-- `float`, as far as the tracker computes with it. -/
class Reckoning (F : Type) where
  /-- `static_cast<float>(n) / static_cast<float>(size)` -/
  quotient : Int → Int → F
  /-- `static_cast<Eigen::Index>(size * part)` -/
  scaled : Int → F → Int
  zero : F
  /-- `Ut::Al::clamp` to the numbers that are not negative. -/
  clampPsr : F → F
  /-- Less than `lowerThreshold()`. -/
  belowThreshold : F → Bool

/-- A quotient is its two numbers, and the product with a number is cut towards zero. -/
instance : Reckoning (Int × Int) where
  quotient n size := (n, size)
  scaled size part := (size * part.1).tdiv part.2
  zero := (0, 1)
  clampPsr psr := if psr.1 < 0 then (0, 1) else psr
  belowThreshold psr := psr.1 * 10 < psr.2

/-- `Mosse::Tp::Roi`: the origin and the size, each with the row first. -/
structure Rect where
  row : Int
  col : Int
  nrows : Int
  ncols : Int
  deriving DecidableEq, Repr

structure Normalized (F : Type) where
  row : F
  col : F
  nrows : F
  ncols : F
  deriving DecidableEq, Repr

structure Quality (F : Type) where
  psr : F
  ok : Bool
  deriving DecidableEq, Repr

structure MosseTrackerUpdate where
  frameHeight : Int
  frameWidth : Int
  roiX : Int
  roiY : Int
  roiWidth : Int
  roiHeight : Int
  stateOk : Bool
  deriving DecidableEq, Repr

/-- A closure on the work queue. The last one carries the update, and with it the rectangle it has been made of. -/
inductive Task where
  | grayscale
  | update
  | notify (nextRoi : Rect) (u : MosseTrackerUpdate)
  deriving DecidableEq, Repr

structure Tracking (F : Type) where
  state : State := .disabled
  spinlock : Spinlock := .done
  roi : Normalized F
  snapshot : Snapshot := {}
  currentFrameSize : FrameSize := (0, 0)
  quality : Quality F
  queue : List Task := []
  /-- A frame waits for the spinlock. -/
  held : Bool := false
  deriving DecidableEq, Repr

/-- What the camera answers to the reads of `snapshotInit`. -/
structure Reads where
  initialized : Option Bool
  frameSize : Option FrameSize
  frameFormat : Option Pixformat
  deriving DecidableEq, Repr

/-- Whether the camera answers to the writes of `apply`, and whether it has accepted them. -/
structure Writes where
  frameFormat : Option Bool
  frameSize : Option Bool
  deriving DecidableEq, Repr

structure Frame where
  width : Int
  height : Int
  deriving DecidableEq, Repr

/-- `rect` and `psr` are the tracker's own, behind its update. -/
inductive Event (F : Type) where
  | frame (frame : Frame) (reads : Reads) (writes : Writes)
  | resume
  | task (i : Nat) (grayscale : Option Bool) (rect : Rect) (psr : F)
  | writeInitialized (initialized : Bool) (writes : Writes)
  /-- `rectXywh`; `frameSize` is what the camera answers to `normalizedInit`. -/
  | writeRoi (x y width height : UInt16) (reads : Reads) (frameSize : Option FrameSize)

/-- A step: the responses it sends, the rectangle it stores, and what it does outside the tracker. -/
structure Done (F : Type) where
  trk : Tracking F
  responses : List WriteResp := []
  stored : Option (Normalized F) := none
  /-- `tracker->init` -/
  inits : Option Rect := none
  /-- `OnMosseTrackerUpdate`, and the rectangle it is about. -/
  notified : Option (Rect × MosseTrackerUpdate) := none
  deriving DecidableEq, Repr

variable {F : Type} [Reckoning F]

/-! ## The rectangle -/

def Rect.normalizedInit (absolute : Rect) (frameSize : Option FrameSize) : Option (Normalized F) × Bool :=
  match frameSize with
  | none => (none, false)
  | some (width, height) =>
    if width ≠ 0 ∧ absolute.nrows ≠ 0 ∧ absolute.ncols ≠ 0 ∧ height ≠ 0 then
      (some { row := Reckoning.quotient absolute.row height
              col := Reckoning.quotient absolute.col width
              nrows := Reckoning.quotient absolute.nrows height
              ncols := Reckoning.quotient absolute.ncols width }, true)
    else (none, true)

def Normalized.asAbsolute (n : Normalized F) (frameSize : Option FrameSize) : Rect :=
  let frameSize := frameSize.getD (0, 0)
  if frameSize.1 ≠ 0 then
    { row := Reckoning.scaled frameSize.2 n.row
      col := Reckoning.scaled frameSize.1 n.col
      nrows := Reckoning.scaled frameSize.2 n.nrows
      ncols := Reckoning.scaled frameSize.1 n.ncols }
  else ⟨0, 0, 0, 0⟩

/-- The ROI has to fit the frame's size, the source says: the sum of the rows is held against the width. -/
def Frame.fits (frame : Frame) (r : Rect) : Bool :=
  0 < r.row && 0 < r.col && 0 < r.nrows && 0 < r.ncols && r.row + r.nrows < frame.width && r.col + r.ncols < frame.height

def Quality.update (q : Quality F) (psr : F) : Quality F :=
  let psr := Reckoning.clampPsr psr
  { psr, ok := q.ok && !Reckoning.belowThreshold psr }

def Quality.reset : Quality F := ⟨Reckoning.zero, true⟩

namespace Tracking

def init : Tracking F where
  roi := ⟨Reckoning.zero, Reckoning.zero, Reckoning.zero, Reckoning.zero⟩
  quality := Quality.reset

def push (t : Tracking F) (task : Task) : Tracking F := { t with queue := t.queue ++ [task] }

def stateIsCameraConfigured (t : Tracking F) : Bool := State.camConfFailed.ctorIdx < t.state.ctorIdx

/-! ## The camera -/

/-- All three fields are read, and the camera says that it is initialized. -/
def Complete (r : Reads) : Bool := r.initialized == some true && r.frameSize.isSome && r.frameFormat.isSome

def snapshotInit (t : Tracking F) (reads : Reads) : Tracking F × Bool :=
  if t.snapshot.initialized then (t, true)
  else
    let snapshot : Snapshot :=
      { pixformat := reads.frameFormat.or t.snapshot.pixformat
        frameSize := reads.frameSize.getD t.snapshot.frameSize
        initialized := Complete reads }
    ({ t with snapshot }, Complete reads)

def currentInit (t : Tracking F) (frameSize : Option FrameSize) : Tracking F :=
  { t with currentFrameSize := frameSize.getD t.currentFrameSize }

/-- A camera that does not answer has not refused. A format that has never been read is a
    null pointer, and the camera reads the string behind it. -/
def apply (t : Tracking F) (writes : Writes) : Option Bool :=
  if t.snapshot.pixformat = none ∧ writes.frameFormat ≠ none then none
  else some (writes.frameFormat.getD true && writes.frameSize.getD true)

/-! ## Frames -/

def onFrameCamConfStart (t : Tracking F) (reads : Reads) : Tracking F := (t.snapshotInit reads).1.push .grayscale

def onFrameTrackerInit (t : Tracking F) (frame : Frame) (reads : Reads) (writes : Writes) : Option (Done F) :=
  let r := t.roi.asAbsolute reads.frameSize
  if !frame.fits r then
    ({ t with state := .disabled }.apply writes).map fun _ => { trk := { t with state := .disabled } }
  else some { trk := { t with state := .trackerRunningFirst }, inits := some r }

/-- Behind the spinlock. -/
def cropAndPush (t : Tracking F) : Tracking F := { t with spinlock := .wait, held := false }.push .update

def onFrameTrackerRunning (t : Tracking F) : Tracking F :=
  match t.spinlock with
  | .wait => { t with held := true }
  | .done => t.cropAndPush

def onFrame (t : Tracking F) (frame : Frame) (reads : Reads) (writes : Writes) : Option (Done F) :=
  match t.state with
  | .camConfStart => some { trk := t.onFrameCamConfStart reads }
  | .trackerInitFirst => some { trk := { t with state := .trackerInit } }
  | .trackerInit => t.onFrameTrackerInit frame reads writes
  | .trackerRunningFirst =>
    some { trk := { t.currentInit reads.frameSize with state := .trackerRunning }.onFrameTrackerRunning }
  | .trackerRunning => some { trk := t.onFrameTrackerRunning }
  | .disabled | .camConfFailed => some { trk := t }

/-! ## Tasks -/

/-- The width of the rectangle is its number of columns, and so is its height. -/
def mosseTrackerUpdate (t : Tracking F) (nextRoi : Rect) : MosseTrackerUpdate where
  frameHeight := t.currentFrameSize.2
  frameWidth := t.currentFrameSize.1
  roiX := nextRoi.col
  roiY := nextRoi.row
  roiWidth := nextRoi.ncols
  roiHeight := nextRoi.ncols
  stateOk := t.quality.ok

def runTask (t : Tracking F) (grayscale : Option Bool) (rect : Rect) (psr : F) : Task → Done F
  | .grayscale =>
    match grayscale with
    | none => { trk := t }
    | some accepted => { trk := { t with state := if accepted then .trackerInit else .camConfFailed } }
  | .update =>
    let t := { t with spinlock := .done, quality := t.quality.update psr }
    { trk := t.push (.notify rect (t.mosseTrackerUpdate rect)) }
  | .notify nextRoi u => { trk := t, notified := some (nextRoi, u) }

/-! ## Writes -/

/-- A request to initialize is not answered; a stop is Ok whatever has become of the camera. -/
def setFieldValueInitialized (t : Tracking F) (initialized : Bool) (writes : Writes) : Option (Done F) :=
  if initialized then some { trk := t }
  else if t.state ≠ .disabled then
    ({ t with state := .disabled }.apply writes).map fun (success : Bool) =>
      { trk := { t with state := .disabled }
        responses := [⟨.ok, if success then none else some "Failed to restore camera state"⟩] }
  else some { trk := t, responses := [⟨.other, some "Ignoring tracking stop request, as it is already stopped"⟩] }

def setFieldValueRoi (t : Tracking F) (roiAbsoluteRchw : Rect) (reads : Reads) (frameSize : Option FrameSize) : Done F :=
  let (t, success) := t.snapshotInit reads
  let failed : List WriteResp := if success then [] else [⟨.other, some "Failed to get camera state"⟩]
  let (stored, success) : Option (Normalized F) × Bool := roiAbsoluteRchw.normalizedInit frameSize
  let t := { t with roi := stored.getD t.roi }
  let (t, resp) : Tracking F × WriteResp :=
    if success then ({ t with quality := Quality.reset }, ⟨.ok, some ""⟩) else (t, ⟨.other, some "ROI error"⟩)
  { trk := { t with state := if t.stateIsCameraConfigured then .trackerInit else .camConfStart }
    responses := failed ++ [resp]
    stored }

def roiAbsoluteRchw (x y width height : UInt16) : Rect := ⟨y.toNat, x.toNat, height.toNat, width.toNat⟩

/-! ## Steps -/

def step (t : Tracking F) : Event F → Option (Done F)
  | .frame frame reads writes => if t.held then none else t.onFrame frame reads writes
  | .resume => if t.held ∧ t.spinlock = .done then some { trk := t.cropAndPush } else none
  | .task i grayscale rect psr =>
    (t.queue[i]?).map fun task => { t with queue := t.queue.eraseIdx i }.runTask grayscale rect psr task
  | .writeInitialized initialized writes => t.setFieldValueInitialized initialized writes
  | .writeRoi x y width height reads frameSize =>
    some (t.setFieldValueRoi (roiAbsoluteRchw x y width height) reads frameSize)

def next (t : Tracking F) (e : Event F) : Option (Tracking F) := (t.step e).map Done.trk

end Tracking

/-! ## What the tracker sees, and what is reported -/

def Rect.Inside (r : Rect) (frame : Frame) : Prop :=
  0 ≤ r.row ∧ 0 ≤ r.col ∧ 0 < r.nrows ∧ 0 < r.ncols ∧ r.row + r.nrows ≤ frame.height ∧ r.col + r.ncols ≤ frame.width

def Rect.StrictlyInside (r : Rect) (frame : Frame) : Prop :=
  0 < r.row ∧ 0 < r.col ∧ 0 < r.nrows ∧ 0 < r.ncols ∧ r.row + r.nrows < frame.height ∧ r.col + r.ncols < frame.width

def MosseTrackerUpdate.Reports (u : MosseTrackerUpdate) (r : Rect) : Prop :=
  u.roiY = r.row ∧ u.roiX = r.col ∧ u.roiHeight = r.nrows ∧ u.roiWidth = r.ncols

/-- The tracker is initialized in the frame, if at all, with the rectangle inside it, and is where it is strictly inside. -/
structure Respects (t : Tracking F) (frame : Frame) (reads : Reads) (writes : Writes) : Prop where
  inside : ∀ d r, t.onFrame frame reads writes = some d → d.inits = some r → r.Inside frame
  accepted : t.state = .trackerInit → (t.roi.asAbsolute reads.frameSize).StrictlyInside frame →
    ∃ d, t.onFrame frame reads writes = some d ∧ d.inits = some (t.roi.asAbsolute reads.frameSize)

def RoiRespected (t : Tracking F) (e : Event F) : Prop :=
  (∀ frame reads writes, e = .frame frame reads writes → t.held = false → Respects t frame reads writes) ∧
    ∀ d r u, t.step e = some d → d.notified = some (r, u) → u.Reports r

/-- One of the rectangle's ends is before the shorter side's, the other one behind it and before the longer side's. -/
def Frame.Misjudges (frame : Frame) (r : Rect) : Prop :=
  (0 < r.row ∧ 0 < r.col ∧ 0 < r.nrows ∧ 0 < r.ncols) ∧
    ((r.col + r.ncols < frame.height ∧ frame.height < r.row + r.nrows ∧ r.row + r.nrows < frame.width) ∨
      (r.row + r.nrows < frame.height ∧ frame.height ≤ r.col + r.ncols ∧ r.col + r.ncols < frame.width) ∨
      (r.row + r.nrows < frame.width ∧ frame.width < r.col + r.ncols ∧ r.col + r.ncols < frame.height) ∨
      (r.col + r.ncols < frame.width ∧ frame.width ≤ r.row + r.nrows ∧ r.row + r.nrows < frame.height))

/-- No rectangle is misjudged, and only square ones are reported. -/
def Harmless (t : Tracking F) : Event F → Prop
  | .frame frame reads _ => t.held = false → t.state = .trackerInit → ¬ frame.Misjudges (t.roi.asAbsolute reads.frameSize)
  | .task i _ _ _ => ∀ r u, t.queue[i]? = some (.notify r u) → r.nrows = r.ncols
  | _ => True

/-! ## The frame's sides -/

theorem fits_iff (frame : Frame) (r : Rect) : frame.fits r = true ↔
    0 < r.row ∧ 0 < r.col ∧ 0 < r.nrows ∧ 0 < r.ncols ∧ r.row + r.nrows < frame.width ∧ r.col + r.ncols < frame.height := by
  simp [Frame.fits, and_assoc]

/-- The frame takes what is inside it, and all that is strictly so, exactly where it does not misjudge. -/
theorem judged_iff (frame : Frame) (r : Rect) :
    (frame.fits r = true → r.Inside frame) ∧ (r.StrictlyInside frame → frame.fits r = true) ↔ ¬ frame.Misjudges r := by
  rw [fits_iff]
  unfold Rect.Inside Rect.StrictlyInside Frame.Misjudges
  omega

/-! ## Steps -/

section
variable {t t' : Tracking F} {frame : Frame} {reads : Reads} {writes : Writes} {d : Done F}

theorem onFrameTrackerInit_of_fits (h : frame.fits (t.roi.asAbsolute reads.frameSize) = true) :
    t.onFrameTrackerInit frame reads writes =
      some { trk := { t with state := .trackerRunningFirst }, inits := some (t.roi.asAbsolute reads.frameSize) } := by
  simp only [Tracking.onFrameTrackerInit, h, Bool.not_true, Bool.false_eq_true, if_false]

theorem onFrameTrackerInit_of_not_fits (h : ¬ frame.fits (t.roi.asAbsolute reads.frameSize) = true)
    (hd : t.onFrameTrackerInit frame reads writes = some d) : d = { trk := { t with state := .disabled } } := by
  simp only [Tracking.onFrameTrackerInit, eq_false_of_ne_true h, Bool.not_false, if_true] at hd
  obtain ⟨success, -, rfl⟩ := Option.map_eq_some_iff.mp hd
  rfl

/-- The tracker is initialized in one state alone. -/
theorem onFrame_inits (hstate : t.state ≠ .trackerInit) (hd : t.onFrame frame reads writes = some d) : d.inits = none := by
  unfold Tracking.onFrame at hd
  cases hs : t.state <;> rw [hs] at hd <;> dsimp only at hd
  case trackerInit => exact absurd hs hstate
  all_goals
    obtain rfl := Option.some_inj.mp hd
    rfl

theorem onFrame_trackerInit (hstate : t.state = .trackerInit) :
    t.onFrame frame reads writes = t.onFrameTrackerInit frame reads writes := by
  rw [Tracking.onFrame, hstate]

theorem step_frame (hd : t.step (.frame frame reads writes) = some d) : t.onFrame frame reads writes = some d := by
  rw [Tracking.step] at hd
  split at hd
  · cases hd
  · exact hd

theorem step_resume (hd : t.step .resume = some d) : d = { trk := t.cropAndPush } := by
  rw [Tracking.step] at hd
  split at hd
  · exact (Option.some_inj.mp hd).symm
  · cases hd

omit [Reckoning F] in
/-- A write of the flag leaves the tracking as it was, or stops it. -/
theorem setFieldValueInitialized_cases {initialized : Bool} (hd : t.setFieldValueInitialized initialized writes = some d) :
    (d.trk = t ∨ d.trk = { t with state := .disabled }) ∧ d.notified = none := by
  unfold Tracking.setFieldValueInitialized at hd
  split at hd
  · obtain rfl := Option.some_inj.mp hd
    exact ⟨Or.inl rfl, rfl⟩
  · split at hd
    · obtain ⟨success, -, rfl⟩ := Option.map_eq_some_iff.mp hd
      exact ⟨Or.inr rfl, rfl⟩
    · obtain rfl := Option.some_inj.mp hd
      exact ⟨Or.inl rfl, rfl⟩

theorem respects_iff : Respects t frame reads writes ↔
    (t.state = .trackerInit → ¬ frame.Misjudges (t.roi.asAbsolute reads.frameSize)) := by
  by_cases hstate : t.state = .trackerInit
  · have hframe := @onFrame_trackerInit F _ t frame reads writes hstate
    simp only [hstate, forall_const]
    rw [← judged_iff]
    by_cases hfits : frame.fits (t.roi.asAbsolute reads.frameSize) = true
    · have hinit := hframe.trans (onFrameTrackerInit_of_fits hfits)
      constructor
      · intro h
        exact ⟨fun _ => h.inside _ _ hinit rfl, fun _ => hfits⟩
      · intro h
        refine ⟨?_, fun _ _ => ⟨_, hinit, rfl⟩⟩
        intro d r hd hr
        obtain rfl := Option.some_inj.mp (hinit.symm.trans hd)
        obtain rfl := Option.some_inj.mp hr
        exact h.1 hfits
    · have hnot : ∀ d, t.onFrame frame reads writes = some d → d.inits = none := by
        intro d hd
        rw [onFrameTrackerInit_of_not_fits hfits (hframe.symm.trans hd)]
      constructor
      · intro h
        refine ⟨fun hf => absurd hf hfits, fun hstrict => ?_⟩
        obtain ⟨d, hd, hinits⟩ := h.accepted hstate hstrict
        rw [hnot d hd] at hinits
        cases hinits
      · intro h
        refine ⟨fun d r hd hr => ?_, fun _ hstrict => absurd (h.2 hstrict) hfits⟩
        rw [hnot d hd] at hr
        cases hr
  · refine iff_of_true ⟨fun d r hd hr => ?_, fun h => absurd h hstate⟩ (fun h => absurd h hstate)
    rw [onFrame_inits hstate hd] at hr
    cases hr

end

/-! ## The updates on their way -/

/-- The updates on the queue are of the rectangles they are with. -/
def Made (t : Tracking F) : Prop := ∀ r u, Task.notify r u ∈ t.queue → ∃ t₁ : Tracking F, u = t₁.mosseTrackerUpdate r

section
variable {t t' : Tracking F}

omit [Reckoning F] in
theorem made_push {task : Task} (h : Made t)
    (htask : ∀ r u, task = .notify r u → ∃ t₁ : Tracking F, u = t₁.mosseTrackerUpdate r) : Made (t.push task) := by
  intro r u hmem
  rcases List.mem_append.mp hmem with hold | hnew
  · exact h r u hold
  · exact htask r u (List.mem_singleton.mp hnew).symm

omit [Reckoning F] in
theorem made_of_queue (h : Made t) (hqueue : t'.queue = t.queue) : Made t' := by
  intro r u hmem
  rw [hqueue] at hmem
  exact h r u hmem

omit [Reckoning F] in
theorem snapshotInit_queue (t : Tracking F) (reads : Reads) : (t.snapshotInit reads).1.queue = t.queue := by
  unfold Tracking.snapshotInit
  split <;> rfl

omit [Reckoning F] in
theorem onFrameTrackerRunning_made (h : Made t) : Made t.onFrameTrackerRunning := by
  unfold Tracking.onFrameTrackerRunning
  split
  · exact made_of_queue h rfl
  · exact made_push (made_of_queue h rfl) (fun _ _ htask => by cases htask)

theorem onFrame_made {frame : Frame} {reads : Reads} {writes : Writes} {d : Done F} (h : Made t)
    (hd : t.onFrame frame reads writes = some d) : Made d.trk := by
  unfold Tracking.onFrame at hd
  split at hd
  · obtain rfl := Option.some_inj.mp hd
    exact made_push (made_of_queue h (snapshotInit_queue t reads)) (fun _ _ htask => by cases htask)
  · obtain rfl := Option.some_inj.mp hd
    exact made_of_queue h rfl
  · by_cases hfits : frame.fits (t.roi.asAbsolute reads.frameSize) = true
    · obtain rfl := Option.some_inj.mp ((onFrameTrackerInit_of_fits hfits).symm.trans hd)
      exact made_of_queue h rfl
    · rw [onFrameTrackerInit_of_not_fits hfits hd]
      exact made_of_queue h rfl
  · obtain rfl := Option.some_inj.mp hd
    exact onFrameTrackerRunning_made (made_of_queue h rfl)
  · obtain rfl := Option.some_inj.mp hd
    exact onFrameTrackerRunning_made h
  all_goals
    obtain rfl := Option.some_inj.mp hd
    exact h

theorem runTask_made {grayscale : Option Bool} {rect : Rect} {psr : F} (task : Task) (h : Made t) :
    Made (t.runTask grayscale rect psr task).trk := by
  cases task with
  | grayscale => cases grayscale <;> exact made_of_queue h rfl
  | update =>
    apply made_push (made_of_queue h rfl)
    intro r u htask
    cases htask
    exact ⟨_, rfl⟩
  | notify nextRoi u => exact h

theorem next_made {e : Event F} (h : Made t) (hnext : t.next e = some t') : Made t' := by
  obtain ⟨d, hd, rfl⟩ := Option.map_eq_some_iff.mp hnext
  cases e with
  | frame frame reads writes => exact onFrame_made h (step_frame hd)
  | resume =>
    rw [step_resume hd]
    exact made_push (made_of_queue h rfl) (fun _ _ htask => by cases htask)
  | task i grayscale rect psr =>
    obtain ⟨task, -, rfl⟩ := Option.map_eq_some_iff.mp hd
    apply runTask_made
    intro r u hmem
    exact h r u (List.mem_of_mem_eraseIdx hmem)
  | writeInitialized initialized writes =>
    rcases (setFieldValueInitialized_cases hd).1 with hsame | hstopped
    · rw [hsame]
      exact h
    · rw [hstopped]
      exact made_of_queue h rfl
  | writeRoi x y width height reads frameSize =>
    obtain rfl := Option.some_inj.mp hd
    apply made_of_queue h
    unfold Tracking.setFieldValueRoi
    dsimp only
    split <;> exact snapshotInit_queue t reads

theorem onFrame_notified {frame : Frame} {reads : Reads} {writes : Writes} {d : Done F}
    (hd : t.onFrame frame reads writes = some d) : d.notified = none := by
  unfold Tracking.onFrame at hd
  split at hd
  case h_3 =>
    by_cases hfits : frame.fits (t.roi.asAbsolute reads.frameSize) = true
    · obtain rfl := Option.some_inj.mp ((onFrameTrackerInit_of_fits hfits).symm.trans hd)
      rfl
    · rw [onFrameTrackerInit_of_not_fits hfits hd]
  all_goals
    obtain rfl := Option.some_inj.mp hd
    rfl

theorem runTask_notified {grayscale : Option Bool} {rect r : Rect} {psr : F} {task : Task} {u : MosseTrackerUpdate} :
    (t.runTask grayscale rect psr task).notified = some (r, u) ↔ task = .notify r u := by
  cases task with
  | grayscale => cases grayscale <;> simp [Tracking.runTask]
  | update => simp [Tracking.runTask]
  | notify nextRoi u' => simp [Tracking.runTask]

/-- An update is published by the task that carries it. -/
theorem step_notified {e : Event F} {d : Done F} {r : Rect} {u : MosseTrackerUpdate} (hd : t.step e = some d)
    (hn : d.notified = some (r, u)) : ∃ i grayscale rect psr, e = .task i grayscale rect psr ∧
      t.queue[i]? = some (.notify r u) := by
  cases e with
  | frame frame reads writes =>
    rw [onFrame_notified (step_frame hd)] at hn
    cases hn
  | resume =>
    rw [step_resume hd] at hn
    cases hn
  | task i grayscale rect psr =>
    obtain ⟨task, htask, rfl⟩ := Option.map_eq_some_iff.mp hd
    exact ⟨i, grayscale, rect, psr, rfl, by rw [htask, runTask_notified.mp hn]⟩
  | writeInitialized initialized writes =>
    rw [(setFieldValueInitialized_cases hd).2] at hn
    cases hn
  | writeRoi x y width height reads frameSize =>
    obtain rfl := Option.some_inj.mp hd
    cases hn

omit [Reckoning F] in
/-- An update is about the rectangle's columns. -/
theorem reports_iff (t : Tracking F) (r : Rect) : (t.mosseTrackerUpdate r).Reports r ↔ r.nrows = r.ncols := by
  simp only [MosseTrackerUpdate.Reports, Tracking.mosseTrackerUpdate, true_and, and_true]
  exact eq_comm

theorem roiRespected_iff (h : Made t) (e : Event F) : RoiRespected t e ↔ Harmless t e := by
  cases e with
  | frame frame reads writes =>
    constructor
    · intro hr hheld
      exact respects_iff.mp (hr.1 frame reads writes rfl hheld)
    · intro hh
      refine ⟨?_, fun d r u hd hn => ?_⟩
      · intro frame' reads' writes' heq hheld
        cases heq
        exact respects_iff.mpr (hh hheld)
      · obtain ⟨i, grayscale, rect, psr, heq, -⟩ := step_notified hd hn
        cases heq
  | task i grayscale rect psr =>
    constructor
    · intro hr r u htask
      obtain ⟨t₁, rfl⟩ := h r u (List.mem_of_getElem? htask)
      have hstep : t.step (.task i grayscale rect psr) =
          some ({ t with queue := t.queue.eraseIdx i }.runTask grayscale rect psr (.notify r (t₁.mosseTrackerUpdate r))) := by
        rw [Tracking.step, htask, Option.map_some]
      exact (reports_iff t₁ r).mp (hr.2 _ r _ hstep rfl)
    · intro hh
      refine ⟨(fun _ _ _ heq => nomatch heq), fun d r u hd hn => ?_⟩
      obtain ⟨i', grayscale', rect', psr', heq, htask⟩ := step_notified hd hn
      cases heq
      obtain ⟨t₁, rfl⟩ := h r u (List.mem_of_getElem? htask)
      exact (reports_iff t₁ r).mpr (hh r _ htask)
  | resume | writeInitialized | writeRoi =>
    refine iff_of_true ⟨(fun _ _ _ heq => nomatch heq), fun d r u hd hn => ?_⟩ trivial
    obtain ⟨i, grayscale, rect, psr, heq, -⟩ := step_notified hd hn
    cases heq

/-- From its start on, whatever is written, whatever the frames and the camera's answers
    and in whatever order the work queue comes to the closures: the tracker sees what is
    inside the frame, and its rectangle is reported, exactly as long as no rectangle is
    between the frame's sides and the tracker's own is square. -/
theorem roi_respected_iff (es : List (Event F)) :
    Allowed Tracking.next RoiRespected (Tracking.init (F := F)) es ↔ Allowed Tracking.next Harmless Tracking.init es := by
  apply allowed_iff_allowed (I := Made)
  · exact fun t e t' hnext hmade _ => next_made hmade hnext
  · exact fun t e hmade => roiRespected_iff hmade e
  · intro r u hmem
    cases hmem

end

/-! ## A frame of 160 columns and 120 rows -/

def qqvga : Frame := ⟨160, 120⟩

def qqvgaReads : Reads := ⟨some true, some (160, 120), some .grayscale⟩

/-- A rectangle is written, the camera reconfigured and the tracker asked to start. -/
def tracked (x y width height : UInt16) : List (Event (Int × Int)) :=
  [.writeRoi x y width height qqvgaReads (some (160, 120)), .frame qqvga qqvgaReads ⟨some true, some true⟩,
    .task 0 (some true) ⟨0, 0, 0, 0⟩ (0, 1), .frame qqvga qqvgaReads ⟨some true, some true⟩]

/-- The rectangle ends 30 rows below the frame, and the tracker is initialized with it. -/
theorem a_rectangle_below_the_frame : ¬ Allowed Tracking.next RoiRespected Tracking.init (tracked 10 20 40 130) := by
  intro h
  have hlast := (((h.2 _ rfl).2 _ rfl).2 _ rfl).1.1 qqvga qqvgaReads ⟨some true, some true⟩ rfl rfl
  have hinside := hlast.inside _ ⟨20, 10, 130, 40⟩ rfl rfl
  revert hinside
  unfold Rect.Inside
  decide

end Esp32Cam.Trk.Roi
