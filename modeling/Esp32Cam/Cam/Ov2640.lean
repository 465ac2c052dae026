/-
  Esp32Cam.Cam.Ov2640 — the camera and the two fields of it that others write.

  The frame size is kept as an index of `kFrameSizeModeMap` in the non-volatile storage;
  the camera is initialized anew after every write, with the stored index, if it is below
  the limit of the pixel format, else with the greatest one below it. A frame size that is
  not in the table is searched for one place behind its end: there the model ends
  (`none`).

  `setFrameSize_ok` and `setFrameFormat_ok` say what an accepted write leaves.
-/

import Mathlib.Data.List.Basic

namespace Esp32Cam.Cam

inductive Pixformat where
  | jpeg
  | grayscale
  deriving DecidableEq, Repr

abbrev FrameSize := Int × Int

/-- The index of the first frame size that is too large for the format. -/
def pixformatToResolutionLimit : Pixformat → Nat
  | .jpeg => 10
  | .grayscale => 5

def kFrameSizeModeMap : List FrameSize :=
  [(96, 96), (160, 120), (176, 144), (240, 176), (240, 240), (320, 240), (400, 296), (480, 320), (640, 480), (800, 600),
    (1024, 768), (1280, 720), (1280, 1024), (1600, 1200), (1920, 1080), (720, 1280), (864, 1536), (2048, 1536),
    (2560, 1440), (2560, 1600), (1080, 1920), (2560, 1920)]

/-- `FRAMESIZE_HVGA`, where nothing is stored. -/
def kFramesizeDefault : Nat := 7

inductive RequestResult where
  | ok
  | storageError
  | outOfRange
  | other
  deriving DecidableEq, Repr

/-- What the system answers in a write: storing the frame size, initializing the camera. Behind an accepted write the
    field is mirrored as a parameter, which changes no answer: no parameter is a field of the camera. -/
structure Os where
  nvsSet : Bool := true
  init : Bool := true
  deriving DecidableEq, Repr

structure Ov2640 where
  initialized : Bool := false
  frame : FrameSize := (-1, -1)
  pixformat : Pixformat := .jpeg
  /-- `cameraConfig.frame_size`. -/
  frameSize : Nat := kFramesizeDefault
  /-- The index in the non-volatile storage. -/
  stored : Option Nat := none
  deriving DecidableEq, Repr

/-- What is compared when a configuration is restored. -/
abbrev Config := Pixformat × FrameSize

namespace Ov2640

def config (c : Ov2640) : Config := (c.pixformat, c.frame)

def cameraConfigLoad (c : Ov2640) : Ov2640 :=
  match c.stored with
  | some frame =>
    { c with frameSize := if frame < pixformatToResolutionLimit c.pixformat then frame else pixformatToResolutionLimit c.pixformat }
  | none => { c with frameSize := kFramesizeDefault }

def init (c : Ov2640) (os : Os) : Ov2640 :=
  let c := c.cameraConfigLoad
  let resolutionLimit := pixformatToResolutionLimit c.pixformat
  let frameSize := if c.frameSize ≥ resolutionLimit then resolutionLimit - 1 else c.frameSize
  { c with frameSize, initialized := os.init, frame := kFrameSizeModeMap.getD frameSize (-1, -1) }

def getFrameSize (c : Ov2640) : Option FrameSize := if c.initialized then some c.frame else none

def getFrameFormat (c : Ov2640) : Option Pixformat := if c.initialized then some c.pixformat else none

def setFrameSize (c : Ov2640) (os : Os) (frameSize : FrameSize) : Option (Ov2640 × RequestResult) :=
  match kFrameSizeModeMap.findIdx? (· == frameSize) with
  | some mode =>
    if mode < pixformatToResolutionLimit c.pixformat then
      if os.nvsSet then some ({ c with stored := some mode }.init os, .ok)
      else some (c, .storageError)
    else some (c, .outOfRange)
  | none => none

/-- `none` is the name of a format the camera does not have. -/
def setFrameFormat (c : Ov2640) (os : Os) (frameFormat : Option Pixformat) : Ov2640 × RequestResult :=
  match frameFormat with
  | some pixformat => ({ c with pixformat }.init os, .ok)
  | none => (c, .other)

/-! ## Accepted writes -/

@[simp] theorem init_pixformat (c : Ov2640) (os : Os) : (c.init os).pixformat = c.pixformat := by
  unfold init cameraConfigLoad
  cases c.stored <;> rfl

/-- A stored frame size below the limit is the one the camera comes up with. -/
theorem init_frame {c : Ov2640} {mode : Nat} (hstored : c.stored = some mode)
    (hlimit : mode < pixformatToResolutionLimit c.pixformat) (os : Os) :
    (c.init os).frame = kFrameSizeModeMap.getD mode (-1, -1) := by
  have hload : c.cameraConfigLoad = { c with frameSize := mode } := by
    rw [cameraConfigLoad, hstored]
    dsimp only
    rw [if_pos hlimit]
  rw [init, hload]
  dsimp only
  rw [if_neg (Nat.not_le.mpr hlimit)]

variable {c c' : Ov2640} {os : Os} {frameSize : FrameSize}

theorem setFrameSize_ok (h : c.setFrameSize os frameSize = some (c', .ok)) :
    c'.frame = frameSize ∧ c'.pixformat = c.pixformat ∧ c'.initialized = os.init := by
  unfold setFrameSize at h
  split at h
  · rename_i mode hmode
    obtain ⟨hlt, hget, -⟩ := List.findIdx?_eq_some_iff_getElem.mp hmode
    split at h
    · rename_i hlimit
      split at h
      · obtain ⟨rfl, -⟩ := Prod.mk.inj (Option.some_inj.mp h)
        refine ⟨?_, by rw [init_pixformat], rfl⟩
        rw [init_frame (c := { c with stored := some mode }) rfl hlimit, List.getD_eq_getElem?_getD,
          List.getElem?_eq_getElem hlt, Option.getD_some]
        exact beq_iff_eq.mp hget
      · cases (Prod.mk.inj (Option.some_inj.mp h)).2
    · cases (Prod.mk.inj (Option.some_inj.mp h)).2
  · cases h

theorem setFrameFormat_ok {frameFormat : Option Pixformat} (h : c.setFrameFormat os frameFormat = (c', .ok)) :
    frameFormat = some c'.pixformat := by
  unfold setFrameFormat at h
  split at h
  · obtain ⟨rfl, -⟩ := Prod.mk.inj h
    rw [init_pixformat]
  · cases (Prod.mk.inj h).2

end Ov2640

end Esp32Cam.Cam
