/-
  Esp32Cam.Mav.Camera — the microservice of the camera.

  It answers requests for what the camera is, for what it has captured and for what it is
  doing, and takes the commands that make a shot and start and stop a video. It asks for
  no target: every COMMAND_LONG and COMMAND_INT is its own. The shots are kept in a ring
  of four (`History`), a shot once when it is made and once when it has been answered.

  What the modules and the recorder answer is the environment's (`Env`).
-/

import Esp32Cam.Mav.Microservice

namespace Esp32Cam.Mav.Camera

open Turn

/-- A capture as it is recorded; `imageName` is empty in every one of them. -/
structure ImageCapture where
  sequence : Nat
  totalImages : Nat
  result : MavResult
  imageName : List UInt8
  deriving DecidableEq, Repr

structure History where
  imageCaptureSequence : List ImageCapture := []
  imageCaptureCount : Int := 0
  deriving DecidableEq, Repr

def kHistoryCapacity : Nat := 4

/-- The ring lets go of the oldest capture. -/
def History.push (h : History) (i : ImageCapture) : History :=
  let kept := if h.imageCaptureSequence.length < kHistoryCapacity then h.imageCaptureSequence
    else h.imageCaptureSequence.drop 1
  { h with imageCaptureSequence := kept ++ [i] }

def History.findBySequence (h : History) (sequence : Nat) : Option ImageCapture :=
  h.imageCaptureSequence.find? (·.sequence == sequence)

/-- An entry for each module that answers; `indeterminate` is what a variable holds that
    nothing has been assigned to, and `recFrame` whether a shot succeeds where there is a recorder. -/
structure Env where
  initialized : List Bool := []
  indeterminate : Bool := false
  recording : List Bool := []
  frameSize : List (Int × Int) := []
  vendorName : List (List UInt8) := []
  modelName : List (List UInt8) := []
  captureCount : List Nat := []
  recFrame : Option Bool := none
  timeBootMs : UInt32 := 0

variable {F : Type}

/-! ## Requests -/

def kNameFieldLen : Nat := 32

def nameField (names : List (List UInt8)) : List UInt8 :=
  names.foldl (fun field name => name.take kNameFieldLen ++ field.drop (min name.length kNameFieldLen))
    (List.replicate kNameFieldLen 0)

/-- CAPTURE_VIDEO, CAPTURE_IMAGE, CAN_CAPTURE_IMAGE_IN_VIDEO_MODE and HAS_VIDEO_STREAM. -/
def kFlags : UInt32 := 0x1 ||| 0x2 ||| 0x8 ||| 0x100

def cameraInformation (env : Env) : CameraInformation where
  timeBootMs := env.timeBootMs
  flags := kFlags
  resolutionH := (env.frameSize.getLast?.getD (0, 0)).1
  resolutionV := (env.frameSize.getLast?.getD (0, 0)).2
  vendorName := nameField env.vendorName
  modelName := nameField env.modelName

def processRequestMessageCameraInformation (env : Env) (t : Turn F) (c : CommandLong F) : Turn F × Microservice.Ret :=
  let initialized := env.initialized.getLast?.getD env.indeterminate
  let t := t.acknowledge Globals.getCompIdCamera c.command (if initialized then .accepted else .denied)
  if initialized then
    (t.respond Globals.getCompIdCamera (.cameraInformation (cameraInformation env)), .response)
  else (t, .response)

def imageCaptured (env : Env) (i : ImageCapture) : CameraImageCaptured where
  timeBootMs := env.timeBootMs
  imageIndex := i.sequence
  captureResult := i.result
  fileUrl := i.imageName

/-- The capture is looked up by what is in the fourth parameter. -/
def processRequestMessageCameraImageCaptured [SinglePrecision F] (h : History) (env : Env) (t : Turn F)
    (c : CommandLong F) : Turn F × Microservice.Ret :=
  match h.findBySequence (SinglePrecision.toUnsigned c.param4) with
  | some prevCapture =>
    let t := t.acknowledge Globals.getCompIdCamera c.command .accepted
    (t.respond Globals.getCompIdCamera (.cameraImageCaptured (imageCaptured env prevCapture)), .response)
  | none => (t.acknowledge Globals.getCompIdCamera c.command .failed, .response)

def processRequestMessageCameraCaptureStatus (h : History) (env : Env) (t : Turn F) (c : CommandLong F) :
    Turn F × Microservice.Ret :=
  let t := t.acknowledge Globals.getCompIdCamera c.command .accepted
  let status : CameraCaptureStatus :=
    { timeBootMs := env.timeBootMs, imageCount := h.imageCaptureCount,
      videoStatus := env.recording.getLast?.getD false }
  (t.respond Globals.getCompIdCamera (.cameraCaptureStatus status), .response)

/-! ## Shots and videos -/

def kNameMaxLen : Nat := 6

/-- The number of captures as a name, cut to what fits. -/
def fileName (env : Env) : List UInt8 :=
  match env.captureCount.getLast? with
  | some count => (formatInt (Lib.int32 count)).take (kNameMaxLen - 1)
  | none => []

/-- A repeated command makes the shot again where the capture is known. -/
def processMakeShot [SinglePrecision F] (h : History) (env : Env) (t : Turn F) (c : CommandLong F) :
    History × Turn F × ImageCapture :=
  let imageCapture : ImageCapture :=
    { sequence := SinglePrecision.toUnsigned c.param4, totalImages := SinglePrecision.toUnsigned c.param3,
      result := .denied, imageName := [] }
  let t := t.carryOut .sdFatInit
  if imageCapture.totalImages = 1 then
    let prevCapture := h.findBySequence imageCapture.sequence
    let shouldCapture := prevCapture.isSome || c.confirmation == 0
    if shouldCapture then
      let h := { h with imageCaptureCount := h.imageCaptureCount + 1 }
      let (t, result) :=
        match env.recFrame with
        | some started => (t.carryOut (.recFrameStart (fileName env)), if started then .accepted else .failed)
        | none => (t, .denied)
      let imageCapture := { imageCapture with result }
      (h.push imageCapture, t, imageCapture)
    else (h, t, imageCapture)
  else (h, t, { imageCapture with result := .unsupported })

/-- The number of captures goes up by the number of the result. -/
def processCmdImageStartCapture [SinglePrecision F] (h : History) (env : Env) (t : Turn F) (c : CommandLong F) :
    History × Turn F × Microservice.Ret :=
  let (h, t, imageCapture) := processMakeShot h env t c
  let t := t.acknowledge Globals.getCompIdCamera c.command imageCapture.result
  let t :=
    if imageCapture.result = .accepted then
      t.respond Globals.getCompIdCamera (.cameraImageCaptured (imageCaptured env imageCapture))
    else t
  let h := h.push imageCapture
  ({ h with imageCaptureCount := h.imageCaptureCount + imageCapture.result.code }, t, .response)

def processCmdVideoStartCapture [SinglePrecision F] (h : History) (env : Env) (t : Turn F) (c : CommandLong F) :
    History × Turn F × Microservice.Ret :=
  let t := t.carryOut .sdFatInit
  if SinglePrecision.toInt c.param2 ≠ 0 then
    (h, t.acknowledge Globals.getCompIdCamera c.command .denied, .response)
  else if env.initialized.getLast?.getD false then
    if env.recording.getLast?.getD false then
      (h, t.acknowledge Globals.getCompIdCamera c.command .denied, .response)
    else
      let t := t.carryOut (.recordStart (fileName env))
      ({ h with imageCaptureCount := h.imageCaptureCount + 1 },
        t.acknowledge Globals.getCompIdCamera c.command .accepted, .response)
  else (h, t.acknowledge Globals.getCompIdCamera c.command .failed, .response)

def processCmdVideoStopCapture (env : Env) (t : Turn F) (c : CommandLong F) : Turn F × Microservice.Ret :=
  if env.initialized.getLast?.getD false then
    if env.recording.getLast?.getD false then
      ((t.carryOut .recordStop).acknowledge Globals.getCompIdCamera c.command .accepted, .response)
    else (t.acknowledge Globals.getCompIdCamera c.command .denied, .response)
  else (t.acknowledge Globals.getCompIdCamera c.command .failed, .response)

section
variable [SinglePrecision F]

def processCommandLong (h : History) (env : Env) (t : Turn F) (c : CommandLong F) :
    History × Turn F × Microservice.Ret :=
  if c.command = MavCmd.requestMessage then
    let msgid := SinglePrecision.toInt c.param1
    if msgid = MsgId.cameraInformation then (h, processRequestMessageCameraInformation env t c)
    else if msgid = MsgId.cameraImageCaptured then (h, processRequestMessageCameraImageCaptured h env t c)
    else if msgid = MsgId.cameraCaptureStatus then (h, processRequestMessageCameraCaptureStatus h env t c)
    else (h, t, .ignored)
  else if c.command = MavCmd.imageStartCapture then processCmdImageStartCapture h env t c
  else if c.command = MavCmd.videoStartCapture then processCmdVideoStartCapture h env t c
  else if c.command = MavCmd.videoStopCapture then (h, processCmdVideoStopCapture env t c)
  else (h, t, .ignored)

def process (h : History) (env : Env) (uninitialized : UInt8) (m : Message F) : History × Turn F × Microservice.Ret :=
  match m.body.command uninitialized with
  | some c => processCommandLong h env { message := m } c
  | none => (h, { message := m }, .ignored)

end

/-! ## What is answered -/

section
variable {h : History} {env : Env} {t : Turn F} {c : CommandLong F}

theorem processRequestMessageCameraInformation_answers :
    Answers (processRequestMessageCameraInformation env t c).1 (processRequestMessageCameraInformation env t c).2 := by
  unfold processRequestMessageCameraInformation
  dsimp only
  split
  · exact answers_respond _ _ _
  · exact answers_acknowledge _ _ _ _

theorem processCmdVideoStopCapture_answers :
    Answers (processCmdVideoStopCapture env t c).1 (processCmdVideoStopCapture env t c).2 := by
  unfold processCmdVideoStopCapture
  split
  · split
    · exact answers_acknowledge _ _ _ _
    · exact answers_acknowledge _ _ _ _
  · exact answers_acknowledge _ _ _ _

variable [SinglePrecision F]

theorem processRequestMessageCameraImageCaptured_answers :
    Answers (processRequestMessageCameraImageCaptured h env t c).1
      (processRequestMessageCameraImageCaptured h env t c).2 := by
  unfold processRequestMessageCameraImageCaptured
  cases h.findBySequence (SinglePrecision.toUnsigned c.param4) with
  | some prevCapture => exact answers_respond _ _ _
  | none => exact answers_acknowledge _ _ _ _

theorem processCmdImageStartCapture_answers :
    Answers (processCmdImageStartCapture h env t c).2.1 (processCmdImageStartCapture h env t c).2.2 := by
  unfold processCmdImageStartCapture
  dsimp only
  split
  · exact answers_respond _ _ _
  · exact answers_acknowledge _ _ _ _

theorem processCmdVideoStartCapture_answers :
    Answers (processCmdVideoStartCapture h env t c).2.1 (processCmdVideoStartCapture h env t c).2.2 := by
  unfold processCmdVideoStartCapture
  dsimp only
  split
  · exact answers_acknowledge _ _ _ _
  · split
    · split
      · exact answers_acknowledge _ _ _ _
      · exact answers_acknowledge _ _ _ _
    · exact answers_acknowledge _ _ _ _

/-- Whatever is the camera's is answered, and the rest is left alone. -/
theorem process_lawful (h : History) (env : Env) (uninitialized : UInt8) (m : Message F) :
    Lawful m (process h env uninitialized m).2.1 (process h env uninitialized m).2.2 := by
  unfold process
  cases m.body.command uninitialized with
  | none => exact lawful_ignored m
  | some c =>
    dsimp only
    unfold processCommandLong
    dsimp only
    split
    · split
      · exact processRequestMessageCameraInformation_answers.lawful
      · split
        · exact processRequestMessageCameraImageCaptured_answers.lawful
        · split
          · exact (answers_respond _ _ _).lawful
          · exact lawful_ignored m
    · split
      · exact processCmdImageStartCapture_answers.lawful
      · split
        · exact processCmdVideoStartCapture_answers.lawful
        · split
          · exact processCmdVideoStopCapture_answers.lawful
          · exact lawful_ignored m

end

end Esp32Cam.Mav.Camera
