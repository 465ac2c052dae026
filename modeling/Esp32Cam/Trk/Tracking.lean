/-
  Esp32Cam.Trk.Tracking — the tracker between the camera, the work queue and its API.

  The tracker's state is written from three sides: by the frames, which come one by one
  from the camera's thread; by the writes of the fields `Roi` and `Initialized`; and by the
  closures the frames have pushed onto the work queue, which run at any later time and in
  any order. A frame may also have to wait, inside the callback, for an update to be done
  (`held`).

  What the tracker is asked to do and reports is kept in `log`. The rectangle itself is
  left out: whether it fits the frame is an answer of the environment.

  A callback, a closure and a write are one step each. Nothing locks them against one
  another in the source: `Trk.Threads` has the steps in between.
-/

import Esp32Cam.Cam.Ov2640

namespace Esp32Cam.Trk

open Esp32Cam.Cam

inductive State where
  | disabled
  | camConfStart
  | camConfFailed
  | trackerInitFirst
  | trackerInit
  | trackerRunningFirst
  | trackerRunning
  deriving DecidableEq, Repr

inductive Spinlock where
  | wait
  | done
  deriving DecidableEq, Repr

/-- The camera's state behind the end of tracking; `pixformat` is the null pointer first. -/
structure Snapshot where
  pixformat : Option Pixformat := none
  frameSize : FrameSize := (0, 0)
  initialized : Bool := false
  deriving DecidableEq, Repr

inductive Task where
  | grayscale
  | update
  | notify
  deriving DecidableEq, Repr

/-- What is done with the tracker, and `OnMosseTrackerUpdate`. -/
inductive Effect where
  | init
  | update
  | notify
  deriving DecidableEq, Repr

structure WriteResp where
  result : RequestResult
  errorMessage : Option String := some ""
  deriving DecidableEq, Repr

structure Tracking where
  tracker : Bool := false
  state : State := .disabled
  spinlock : Spinlock := .done
  snapshot : Snapshot := {}
  currentFrameSize : FrameSize := (0, 0)
  camera : Ov2640
  queue : List Task := []
  /-- A frame waits for the spinlock. -/
  held : Bool := false
  log : List Effect := []
  deriving DecidableEq, Repr

inductive Event where
  | frame (roiFits : Bool) (os : Os × Os)
  /-- The frame that has been held goes on. -/
  | resume
  /-- The work queue comes to one of the tasks. -/
  | task (i : Nat) (os : Os)
  | writeInitialized (initialized : Bool) (os : Os × Os)
  | writeRoi
  | writeFrameSize (frameSize : FrameSize) (os : Os)
  | writeFrameFormat (frameFormat : Option Pixformat) (os : Os)
  deriving DecidableEq, Repr

namespace Tracking

def stateIsCameraConfigured (t : Tracking) : Bool := State.camConfFailed.ctorIdx < t.state.ctorIdx

def push (t : Tracking) (task : Task) : Tracking := { t with queue := t.queue ++ [task] }

/-! ## The camera's state -/

def snapshotInit (t : Tracking) : Tracking × Bool :=
  if t.snapshot.initialized then (t, true)
  else
    let s := t.snapshot
    let s := match t.camera.getFrameSize with
      | some frameSize => { s with frameSize }
      | none => s
    let s := match t.camera.getFrameFormat with
      | some pixformat => { s with pixformat := some pixformat }
      | none => s
    let nfields := t.camera.initialized.toNat + t.camera.getFrameSize.isSome.toNat + t.camera.getFrameFormat.isSome.toNat
    let success := nfields == 3
    ({ t with snapshot := { s with initialized := success } }, success)

def currentInit (t : Tracking) : Tracking :=
  match t.camera.getFrameSize with
  | some frameSize => { t with currentFrameSize := frameSize }
  | none => t

/-- The format is written, then the size. A format that has never been read is a null pointer. -/
def apply (t : Tracking) (os : Os × Os) : Option (Tracking × Bool) :=
  match t.snapshot.pixformat with
  | none => none
  | some pixformat =>
    let (camera, formatResult) := t.camera.setFrameFormat os.1 (some pixformat)
    (camera.setFrameSize os.2 t.snapshot.frameSize).map fun (camera, sizeResult) =>
      ({ t with camera }, formatResult == .ok && sizeResult == .ok)

/-! ## Frames -/

def onFrameCamConfStart (t : Tracking) : Tracking := t.snapshotInit.1.push .grayscale

/-- `roiFits`: the rectangle is within the frame. -/
def onFrameTrackerInit (t : Tracking) (roiFits : Bool) (os : Os × Os) : Option Tracking :=
  let t := { t with tracker := true }
  if roiFits then some { t with log := t.log ++ [.init], state := .trackerRunningFirst }
  else ({ t with state := .disabled }.apply os).map Prod.fst

/-- Behind the spinlock. -/
def cropAndPush (t : Tracking) : Tracking := { t with spinlock := .wait, held := false }.push .update

def onFrameTrackerRunning (t : Tracking) : Tracking :=
  match t.spinlock with
  | .wait => { t with held := true }
  | .done => t.cropAndPush

def onFrame (t : Tracking) (roiFits : Bool) (os : Os × Os) : Option Tracking :=
  match t.state with
  | .camConfStart => some t.onFrameCamConfStart
  | .trackerInitFirst => some { t with state := .trackerInit }
  | .trackerInit => t.onFrameTrackerInit roiFits os
  | .trackerRunningFirst => some { t.currentInit with state := .trackerRunning }.onFrameTrackerRunning
  | .trackerRunning => some t.onFrameTrackerRunning
  | .disabled | .camConfFailed => some t

/-! ## Tasks -/

def runTask (t : Tracking) (os : Os) : Task → Tracking
  | .grayscale =>
    let (camera, result) := t.camera.setFrameFormat os (some .grayscale)
    { t with camera, state := if result = .ok then .trackerInit else .camConfFailed }
  | .update =>
    let t : Tracking := { t with log := t.log ++ [.update], spinlock := .done }
    t.push .notify
  | .notify => { t with log := t.log ++ [.notify] }

/-! ## Writes -/

def setFieldValueInitialized (t : Tracking) (initialized : Bool) (os : Os × Os) : Option (Tracking × List WriteResp) :=
  if initialized then some (t, [])
  else if t.state ≠ .disabled then
    ({ t with state := .disabled }.apply os).map fun ((t, success) : Tracking × Bool) =>
      (t, [⟨.ok, if success then none else some "Failed to restore camera state"⟩])
  else some (t, [⟨.other, some "Ignoring tracking stop request, as it is already stopped"⟩])

/-- The rectangle is normalized with the camera's frame size, where it answers with one. -/
def setFieldValueRoi (t : Tracking) : Tracking × List WriteResp :=
  let (t, snapped) := t.snapshotInit
  let failed := if snapped then [] else [⟨.other, some "Failed to get camera state"⟩]
  let resp : WriteResp := if t.camera.getFrameSize.isSome then ⟨.ok, some ""⟩ else ⟨.other, some "ROI error"⟩
  let state := if t.stateIsCameraConfigured then State.trackerInit else .camConfStart
  ({ t with state }, failed ++ [resp])

/-! ## Steps -/

def step (t : Tracking) : Event → Option (Tracking × List WriteResp)
  | .frame roiFits os => if t.held then none else (t.onFrame roiFits os).map (·, [])
  | .resume => if t.held ∧ t.spinlock = .done then some (t.cropAndPush, []) else none
  | .task i os => (t.queue[i]?).map fun task => ({ t with queue := t.queue.eraseIdx i }.runTask os task, [])
  | .writeInitialized initialized os => t.setFieldValueInitialized initialized os
  | .writeRoi => some t.setFieldValueRoi
  | .writeFrameSize frameSize os => (t.camera.setFrameSize os frameSize).map fun (camera, _) => ({ t with camera }, [])
  | .writeFrameFormat frameFormat os => some ({ t with camera := (t.camera.setFrameFormat os frameFormat).1 }, [])

/-! ## What a part of a step can do -/

section
variable {t t' : Tracking} {os : Os × Os} {success : Bool}

/-- The snapshot is taken once, of the camera as it is. -/
theorem snapshotInit_cases (t : Tracking) :
    (t.snapshotInit = (t, t.snapshot.initialized) ∧ (t.snapshot.initialized = true ∨ t.camera.initialized = false)) ∨
    (t.snapshot.initialized = false ∧ t.camera.initialized = true ∧
      t.snapshotInit = ({ t with snapshot := ⟨some t.camera.pixformat, t.camera.frame, true⟩ }, true)) := by
  unfold snapshotInit
  cases hs : t.snapshot.initialized with
  | true => exact Or.inl ⟨rfl, Or.inl rfl⟩
  | false =>
    cases hc : t.camera.initialized with
    | true =>
      refine Or.inr ⟨rfl, rfl, ?_⟩
      simp [Ov2640.getFrameSize, Ov2640.getFrameFormat, hc]
    | false =>
      refine Or.inl ⟨?_, Or.inr rfl⟩
      obtain ⟨tracker, state, spinlock, ⟨pixformat, frameSize, initialized⟩, rest⟩ := t
      obtain rfl : initialized = false := hs
      dsimp only at hc
      simp [Ov2640.getFrameSize, Ov2640.getFrameFormat, hc]

theorem writeRoi_cases {resps : List WriteResp} (h : t.step .writeRoi = some (t', resps)) :
    ∃ state, t' = { t.snapshotInit.1 with state } := ⟨_, (congrArg Prod.fst (Option.some_inj.mp h)).symm⟩

theorem currentInit_cases (t : Tracking) : ∃ frameSize, t.currentInit = { t with currentFrameSize := frameSize } := by
  unfold currentInit
  split
  · exact ⟨_, rfl⟩
  · exact ⟨t.currentFrameSize, rfl⟩

/-- Only the camera is written; if successfully, it is as the snapshot has it. -/
theorem apply_cases (h : t.apply os = some (t', success)) :
    ∃ camera, t' = { t with camera } ∧
      (success = true → camera.config = (camera.pixformat, t.snapshot.frameSize) ∧
        t.snapshot.pixformat = some camera.pixformat) := by
  unfold apply at h
  split at h
  · cases h
  · rename_i pixformat hpixformat
    rcases hformat : t.camera.setFrameFormat os.1 (some pixformat) with ⟨camera, formatResult⟩
    rw [hformat] at h
    obtain ⟨⟨camera', sizeResult⟩, hsize, heq⟩ := Option.map_eq_some_iff.mp h
    obtain ⟨rfl, rfl⟩ := Prod.mk.inj heq
    refine ⟨camera', rfl, fun hok => ?_⟩
    rw [Bool.and_eq_true, beq_iff_eq, beq_iff_eq] at hok
    obtain ⟨rfl, rfl⟩ := hok
    obtain ⟨hframe, hpix, -⟩ := Ov2640.setFrameSize_ok hsize
    have hformat' := Ov2640.setFrameFormat_ok hformat
    refine ⟨congrArg _ hframe, ?_⟩
    rw [hpixformat, hformat', hpix]

end

end Tracking

end Esp32Cam.Trk
