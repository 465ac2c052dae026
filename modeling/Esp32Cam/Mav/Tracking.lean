/-
  Esp32Cam.Mav.Tracking — the microservice of the tracker.

  It takes the commands that are for the tracker: one that starts tracking in a rectangle,
  one that stops it, and one that turns the messages about it on and off. The last of them
  is for messages of one kind; the request for a message of another kind is not the
  tracker's, and is acknowledged nevertheless (`process_lawful_iff`).

  The rectangle is given as parts of the frame, and is asked of the module in pixels; a
  frame without a width or a height is asserted against, and has no result. What the
  modules answer is the environment's (`Env`).
-/

import Esp32Cam.Mav.Microservice

namespace Esp32Cam.Mav.Tracking

open Turn

structure State where
  /-- `key.onMosseTrackerUpdate` is enabled. -/
  onMosseTrackerUpdate : Bool := false
  frameWidth : Int := 0
  frameHeight : Int := 0
  deriving DecidableEq, Repr

/-- An entry for each module that answers. -/
structure Env where
  frameSize : List (Int × Int) := []
  trackingRoi : List Bool := []
  trackingInitialized : List Bool := []

variable {F : Type}

def kTrackingDisable : Int := -1
def kTrackingEnablePerFrame : Int := 0

def State.fetch (s : State) (env : Env) : State :=
  match env.frameSize.getLast? with
  | some (frameWidth, frameHeight) => { s with frameWidth, frameHeight }
  | none => s

section
variable [SinglePrecision F]

/-- The acknowledgement is packed and sent whatever the first parameter asks for. -/
def processCmdSetMessageInterval (s : State) (t : Turn F) (c : CommandLong F) : State × Turn F × Microservice.Ret :=
  let (s, t, ret, result) :=
    if SinglePrecision.toInt c.param1 = MsgId.cameraTrackingImageStatus ∧ c.isFor Globals.getCompIdTracker then
      let interval := SinglePrecision.toInt c.param2
      if interval = kTrackingDisable then
        ({ s with onMosseTrackerUpdate := false }, t.carryOut (.trackingUpdates false), Microservice.Ret.response,
          MavResult.accepted)
      else if interval = kTrackingEnablePerFrame then
        ({ s with onMosseTrackerUpdate := true }, t.carryOut (.trackingUpdates true), .response, .accepted)
      else (s, t, .response, .denied)
    else (s, t, .ignored, .accepted)
  (s, t.acknowledge Globals.getCompIdTracker c.command result, ret)

def geometryCheck (c : CommandLong F) : Bool :=
  let zero : F := SinglePrecision.ofInt 0
  let one : F := SinglePrecision.ofInt 1
  SinglePrecision.lt c.param1 c.param3 && SinglePrecision.lt c.param2 c.param4 &&
    SinglePrecision.le c.param3 one && SinglePrecision.le c.param4 one &&
    SinglePrecision.le zero c.param1 && SinglePrecision.le zero c.param2 &&
    SinglePrecision.le zero c.param3 && SinglePrecision.le zero c.param4

/-- `Ut::Al::scale`, from 0 to a size, which it asserts is one. -/
def scale (val : F) (size : Int) : Option Int := if 0 < size then some (SinglePrecision.scale val size) else none

/-- A part of the frame's side, in pixels. -/
def pixels (part : F) (side : Int) : Option UInt16 := (scale part side).map fun n => UInt16.ofNat (Lib.uint32 n)

/-- The corner, the width and the height. -/
def rect (s : State) (c : CommandLong F) : Option (List UInt16) := do
  let topLeftX ← pixels c.param1 s.frameWidth
  let topLeftY ← pixels c.param2 s.frameHeight
  let bottomRightX ← pixels c.param3 s.frameWidth
  let bottomRightY ← pixels c.param4 s.frameHeight
  some [topLeftX, topLeftY, bottomRightX - topLeftX, bottomRightY - topLeftY]

/-- The rectangle is checked and asked of the module, which has to answer. -/
def writeRoi (s : State) (env : Env) (t : Turn F) (c : CommandLong F) : Option (State × Turn F × MavResult) :=
  if !geometryCheck c then some (s, t, .denied)
  else
    let s := s.fetch env
    (rect s c).map fun rect =>
      let notified := !env.trackingRoi.isEmpty
      (s, t.carryOut (.fieldWrite (.trackingRoi rect)),
        if notified && env.trackingRoi.all id then .accepted else .failed)

def processCmdCameraTrackRectangle (s : State) (env : Env) (t : Turn F) (c : CommandLong F) :
    Option (State × Turn F × Microservice.Ret) :=
  (writeRoi s env t c).map fun (s, t, result) =>
    let t := t.acknowledge Globals.getCompIdTracker c.command result
    if result = .accepted then
      ({ s with onMosseTrackerUpdate := true }, t.carryOut (.trackingUpdates true), .response)
    else (s, t, .response)

end

def processCmdCameraStopTracking (env : Env) (t : Turn F) (c : CommandLong F) : Turn F × Microservice.Ret :=
  let t := t.carryOut (.fieldWrite (.trackingInitialized false))
  let result := if env.trackingInitialized.any id then MavResult.accepted else .failed
  (t.acknowledge Globals.getCompIdTracker c.command result, .response)

section
variable [SinglePrecision F]

def process (s : State) (env : Env) (uninitialized : UInt8) (m : Message F) :
    Option (State × Turn F × Microservice.Ret) :=
  let t : Turn F := { message := m }
  match m.body.command uninitialized with
  | none => some (s, t, .ignored)
  | some c =>
    if c.isFor Globals.getCompIdTracker then
      if c.command = MavCmd.setMessageInterval then some (processCmdSetMessageInterval s t c)
      else if c.command = MavCmd.cameraTrackRectangle then processCmdCameraTrackRectangle s env t c
      else if c.command = MavCmd.cameraStopTracking then some (s, processCmdCameraStopTracking env t c)
      else some (s, t, .ignored)
    else some (s, t, .ignored)

/-! ## What is answered -/

/-- The messages the microservice answers and leaves to the others. -/
def AnswersAnothers (uninitialized : UInt8) (m : Message F) : Prop :=
  ∃ c, m.body.command uninitialized = some c ∧ c.isFor Globals.getCompIdTracker ∧ c.command = MavCmd.setMessageInterval ∧
    SinglePrecision.toInt c.param1 ≠ MsgId.cameraTrackingImageStatus

variable {s : State} {env : Env} {t : Turn F} {c : CommandLong F} {r : State × Turn F × Microservice.Ret}

/-- The command is answered with its acknowledgement, and with that alone. -/
theorem processCmdCameraTrackRectangle_answers (h : processCmdCameraTrackRectangle s env t c = some r) :
    ∃ (t' : Turn F) (result : MavResult), t'.responses = t.responses ∧ r.2.2 = .response ∧
      r.2.1.message = (t'.acknowledge Globals.getCompIdTracker c.command result).message ∧
      r.2.1.responses = (t'.acknowledge Globals.getCompIdTracker c.command result).responses := by
  obtain ⟨⟨s', t', result⟩, hwrite, rfl⟩ := Option.map_eq_some_iff.mp h
  have hresponses : t'.responses = t.responses := by
    unfold writeRoi at hwrite
    split at hwrite
    · obtain ⟨-, rfl, -⟩ := by simpa only [Option.some_inj, Prod.mk.injEq] using hwrite
      rfl
    · obtain ⟨rect, -, heq⟩ := Option.map_eq_some_iff.mp hwrite
      obtain ⟨-, rfl, -⟩ := by simpa only [Prod.mk.injEq] using heq
      rfl
  refine ⟨t', result, hresponses, ?_⟩
  dsimp only
  split
  · exact ⟨rfl, rfl, rfl⟩
  · exact ⟨rfl, rfl, rfl⟩

/-- The command is acknowledged, and is the tracker's when it is about the tracker's messages. -/
theorem processCmdSetMessageInterval_acknowledges (hfor : c.isFor Globals.getCompIdTracker = true) :
    (processCmdSetMessageInterval s t c).2.1.responses ≠ [] ∧
      (processCmdSetMessageInterval s t c).2.2 =
        if SinglePrecision.toInt c.param1 = MsgId.cameraTrackingImageStatus then .response else .ignored := by
  refine ⟨(answers_acknowledge _ _ _ _).2, ?_⟩
  unfold processCmdSetMessageInterval
  by_cases hmsgid : SinglePrecision.toInt c.param1 = MsgId.cameraTrackingImageStatus
  · rw [if_pos ⟨hmsgid, hfor⟩, if_pos hmsgid]
    dsimp only
    split
    · rfl
    · split
      · rfl
      · rfl
  · rw [if_neg (fun h => hmsgid h.1), if_neg hmsgid]

/-- The microservice keeps to the contract but for the messages it answers and does not take. -/
theorem process_lawful_iff {uninitialized : UInt8} {m : Message F} (h : process s env uninitialized m = some r) :
    Lawful m r.2.1 r.2.2 ↔ ¬ AnswersAnothers uninitialized m := by
  unfold process at h
  unfold AnswersAnothers
  cases hcommand : m.body.command uninitialized with
  | none =>
    rw [hcommand] at h
    obtain rfl := Option.some_inj.mp h
    simp only [reduceCtorEq, false_and, exists_false, not_false_eq_true, iff_true]
    exact lawful_ignored m
  | some c =>
    rw [hcommand] at h
    dsimp only at h
    simp only [Option.some.injEq, exists_eq_left']
    by_cases hfor : c.isFor Globals.getCompIdTracker = true
    · rw [if_pos hfor] at h
      simp only [hfor, true_and]
      by_cases hinterval : c.command = MavCmd.setMessageInterval
      · rw [if_pos hinterval] at h
        obtain rfl := Option.some_inj.mp h
        simp only [hinterval, true_and, ne_eq, Decidable.not_not]
        obtain ⟨hresponses, hret⟩ := processCmdSetMessageInterval_acknowledges (s := s) (t := { message := m }) hfor
        by_cases hmsgid : SinglePrecision.toInt c.param1 = MsgId.cameraTrackingImageStatus
        · rw [if_pos hmsgid] at hret
          simp only [hmsgid, iff_true]
          exact Answers.lawful ⟨hret, hresponses⟩
        · rw [if_neg hmsgid] at hret
          simp only [hmsgid, iff_false, hret]
          exact not_lawful_of_ignored hresponses
      · rw [if_neg hinterval] at h
        simp only [hinterval, false_and, not_false_eq_true, iff_true]
        split at h
        · obtain ⟨t', result, -, hret, -, hresponses⟩ := processCmdCameraTrackRectangle_answers h
          refine Answers.lawful ⟨hret, ?_⟩
          rw [hresponses]
          exact (answers_acknowledge _ _ _ _).2
        · split at h
          · obtain rfl := Option.some_inj.mp h
            exact (answers_acknowledge _ _ _ _).lawful
          · obtain rfl := Option.some_inj.mp h
            exact lawful_ignored m
    · rw [if_neg hfor] at h
      obtain rfl := Option.some_inj.mp h
      simp only [hfor, false_and, not_false_eq_true, iff_true, Bool.false_eq_true]
      exact lawful_ignored m

end

end Esp32Cam.Mav.Tracking
