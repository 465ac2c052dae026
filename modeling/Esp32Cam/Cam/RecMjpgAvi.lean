/-
  Esp32Cam.Cam.RecMjpgAvi — the recorder of videos, and the timer that stops it.

  A video is recorded while a file is open (`stat.fd`), and the recorder gets the frames
  of the camera while its key is enabled. It is started and stopped by calls, by
  notifications (`startWrap`, `stop`), and stopped by a timer that finds nobody left on
  the Wi-Fi. Whether the file can be opened is the file system's answer; what is written
  into it is left out.

  - `key_iff_recording`: whoever starts and stops it, the frames come exactly while there
    is a file for them.
-/

import Esp32Cam.Lib.Run

namespace Esp32Cam.Cam

open Esp32Cam.Lib

/-- `CONFIG_SD_FAT_MOUNT_POINT`. -/
def kMountPoint : List Char := ['/', 's', 'd', 'c', 'a', 'r', 'd']

def aviPath (name : List Char) : List Char := kMountPoint ++ ['/'] ++ name ++ ['.', 'a', 'v', 'i']

structure RecMjpgAvi where
  /-- `stat.fd`, with the name of the file. -/
  fd : Option (List Char) := none
  keyEnabled : Bool := false
  deriving DecidableEq, Repr

namespace RecMjpgAvi

def recording (r : RecMjpgAvi) : Bool := r.fd.isSome

/-- `opens`: `AVI_open_output_file` can open the file. -/
def start (r : RecMjpgAvi) (opens : Bool) (aFilename : List Char) : RecMjpgAvi × Bool :=
  if r.fd.isSome then (r, false)
  else if opens then ({ fd := some aFilename, keyEnabled := true }, true)
  else ({ r with fd := none }, false)

def startWrap (r : RecMjpgAvi) (opens : Bool) (filename : List Char) : RecMjpgAvi × Bool :=
  r.start opens (aviPath filename)

def stop (r : RecMjpgAvi) : RecMjpgAvi := { r with fd := none, keyEnabled := false }

/-- `StopRecordingWifiDisconnectHandler::onHrTimer`; `none` is an error of `wifiApCountConnectedStations`. -/
def onHrTimer (r : RecMjpgAvi) (nConnectedStations : Option Nat) : RecMjpgAvi :=
  if nConnectedStations = some 0 then r.stop else r

variable {r : RecMjpgAvi} {opens : Bool} {aFilename : List Char} {nConnectedStations : Option Nat}

/-! ## Starting and stopping -/

theorem start_recording : (r.start opens aFilename).1.recording = (r.recording || opens) := by
  unfold start recording
  cases hfd : r.fd with
  | some name => simp [hfd]
  | none =>
    cases opens with
    | false => rfl
    | true => rfl

/-- A start succeeds where nothing is recorded and the file can be opened. -/
theorem start_result : (r.start opens aFilename).2 = (!r.recording && opens) := by
  unfold start recording
  cases hfd : r.fd with
  | some name => simp
  | none =>
    cases opens with
    | false => rfl
    | true => rfl

@[simp] theorem stop_recording : r.stop.recording = false := rfl

theorem onHrTimer_recording :
    (r.onHrTimer nConnectedStations).recording = (r.recording && nConnectedStations != some 0) := by
  unfold onHrTimer
  by_cases hnone : nConnectedStations = some 0
  · simp [hnone]
  · simp [hnone]

/-! ## The frames -/

inductive Event where
  | start (opens : Bool) (aFilename : List Char)
  | stop
  | hrTimer (nConnectedStations : Option Nat)
  deriving DecidableEq, Repr

def step (r : RecMjpgAvi) : Event → RecMjpgAvi
  | .start opens aFilename => (r.start opens aFilename).1
  | .stop => r.stop
  | .hrTimer nConnectedStations => r.onHrTimer nConnectedStations

def KeyIffRecording (r : RecMjpgAvi) : Prop := r.keyEnabled = r.recording

theorem step_keyIffRecording (e : Event) (h : KeyIffRecording r) : KeyIffRecording (r.step e) := by
  cases e with
  | start opens aFilename =>
    show KeyIffRecording (r.start opens aFilename).1
    unfold start
    split
    · exact h
    · rename_i hfd
      split
      · rfl
      · unfold KeyIffRecording recording at h ⊢
        rw [h]
        simpa using hfd
  | stop => rfl
  | hrTimer nConnectedStations =>
    show KeyIffRecording (r.onHrTimer nConnectedStations)
    unfold onHrTimer
    split
    · rfl
    · exact h

theorem key_iff_recording (es : List Event) : Always step KeyIffRecording {} es := by
  have hidle : KeyIffRecording {} := rfl
  exact always_of_step (fun _ e h => step_keyIffRecording e h) hidle es

end RecMjpgAvi

end Esp32Cam.Cam
