/-
  Esp32Cam.Http.Control — the page that starts and stops a video, and reports it.

  The page remembers in `status.videoRecRunning` that it has started the recorder
  (`Esp32Cam.Cam.RecMjpgAvi`), and reports that. The recorder is started and stopped by
  the notifications `RecordStart` and `RecordStop` as well, and stopped by the timer of a
  lost Wi-Fi connection; nobody tells the page.

  - `agreement_iff`: what the page reports is what the recorder does, and a stop over the
    page ends what is recorded, throughout a run, exactly when in none of its steps a
    notification or the timer starts or ends a recording.
  - `a_recording_is_not_stopped`: a recording started by a notification is reported as
    none, and cannot be stopped over the page.
-/

import Esp32Cam.Cam.RecMjpgAvi

namespace Esp32Cam.Http.Control

open Esp32Cam.Lib
open Esp32Cam.Cam (RecMjpgAvi aviPath)

inductive Error where
  | ok
  | err
  deriving DecidableEq, Repr

inductive Command where
  | start
  | stop
  | other
  deriving DecidableEq, Repr

structure Page where
  videoRecRunning : Bool := false
  recorder : RecMjpgAvi := {}
  deriving DecidableEq, Repr

def processVideoRecord (s : Page) (command : Command) (name : List Char) (opens : Bool) : Page × Error :=
  if command = .start ∧ s.videoRecRunning = false then
    let (recorder, started) := s.recorder.start opens (aviPath name)
    if started then ({ videoRecRunning := true, recorder }, .ok) else ({ s with recorder }, .err)
  else if command = .stop ∧ s.videoRecRunning = true then
    ({ videoRecRunning := false, recorder := s.recorder.stop }, .ok)
  else (s, .err)

/-- The key `video_record` of the response. -/
def printStatus (s : Page) : Bool := s.videoRecRunning

inductive Event where
  | videoRecord (command : Command) (name : List Char) (opens : Bool)
  | recordStart (filename : List Char) (opens : Bool)
  | recordStop
  | hrTimer (nConnectedStations : Option Nat)
  deriving DecidableEq, Repr

def step (s : Page) : Event → Page
  | .videoRecord command name opens => (processVideoRecord s command name opens).1
  | .recordStart filename opens => { s with recorder := (s.recorder.startWrap opens filename).1 }
  | .recordStop => { s with recorder := s.recorder.stop }
  | .hrTimer nConnectedStations => { s with recorder := s.recorder.onHrTimer nConnectedStations }

def Agrees (s : Page) : Prop := printStatus s = s.recorder.recording

def Stops (s : Page) (e : Event) : Prop :=
  (∃ name opens, e = .videoRecord .stop name opens) → s.recorder.recording = true → (step s e).recorder.recording = false

structure Agreement (es : List Event) : Prop where
  agrees : Always step Agrees {} es
  stops : Along step Stops {} es

/-- Nothing but the page starts the recorder, or ends what it records. -/
def LeftToThePage (s : Page) : Event → Prop
  | .videoRecord _ _ _ => True
  | .recordStart _ opens => s.recorder.recording = true ∨ opens = false
  | .recordStop => s.recorder.recording = false
  | .hrTimer nConnectedStations => s.recorder.recording = false ∨ nConnectedStations ≠ some 0

variable {s : Page}

/-- A request leaves the page and the recorder in agreement. -/
theorem processVideoRecord_agrees (command : Command) (name : List Char) (opens : Bool) (h : Agrees s) :
    Agrees (processVideoRecord s command name opens).1 := by
  unfold Agrees printStatus at h ⊢
  unfold processVideoRecord
  split
  · rename_i hstart
    have hidle : s.recorder.recording = false := h.symm.trans hstart.2
    dsimp only
    split
    · rename_i hstarted
      rw [RecMjpgAvi.start_result, hidle] at hstarted
      rw [RecMjpgAvi.start_recording, hidle]
      simpa using hstarted.symm
    · rename_i hfailed
      rw [RecMjpgAvi.start_result, hidle] at hfailed
      rw [RecMjpgAvi.start_recording, hidle, hstart.2]
      simpa using hfailed
  · split
    · rfl
    · exact h

theorem step_agrees_iff (e : Event) (h : Agrees s) : Agrees (step s e) ↔ LeftToThePage s e := by
  have hsame : s.videoRecRunning = s.recorder.recording := h
  cases e with
  | videoRecord command name opens => exact iff_of_true (processVideoRecord_agrees command name opens h) trivial
  | recordStart filename opens =>
    show s.videoRecRunning = (s.recorder.startWrap opens filename).1.recording ↔ _
    rw [hsame, RecMjpgAvi.startWrap, RecMjpgAvi.start_recording]
    show _ ↔ s.recorder.recording = true ∨ opens = false
    cases s.recorder.recording with
    | false => simp [eq_comm]
    | true => simp
  | recordStop =>
    show s.videoRecRunning = s.recorder.stop.recording ↔ s.recorder.recording = false
    rw [hsame, RecMjpgAvi.stop_recording]
  | hrTimer nConnectedStations =>
    show s.videoRecRunning = (s.recorder.onHrTimer nConnectedStations).recording ↔ _
    rw [hsame, RecMjpgAvi.onHrTimer_recording]
    show _ ↔ s.recorder.recording = false ∨ nConnectedStations ≠ some 0
    cases s.recorder.recording with
    | false => simp
    | true => simp

theorem stops_of_agrees (e : Event) (h : Agrees s) : Stops s e := by
  intro h hrecording
  rcases h with ⟨name, opens, rfl⟩
  have hrunning : s.videoRecRunning = true := h.trans hrecording
  show (processVideoRecord s .stop name opens).1.recorder.recording = false
  simp [processVideoRecord, hrunning]

/-- The page and the recorder agree throughout a run, and the page can end what is
    recorded, exactly when only the page starts and ends recordings. -/
theorem agreement_iff (es : List Event) : Agreement es ↔ Along step LeftToThePage {} es := by
  have hidle : Agrees {} := rfl
  have hiff : Always step Agrees {} es ↔ Along step LeftToThePage {} es :=
    always_iff_along (I := fun _ => True) (fun _ _ _ _ _ => trivial) (fun _ e _ h => step_agrees_iff e h) trivial hidle
  constructor
  · intro h
    exact hiff.mp h.agrees
  · intro h
    exact ⟨hiff.mpr h, (hiff.mpr h).along fun _ e => stops_of_agrees e⟩

/-- Recording is started by a notification, and the page is asked to stop it. -/
theorem a_recording_is_not_stopped :
    ¬ Agreement [.recordStart ['0'] true, .videoRecord .stop ['0'] true] := by
  intro h
  have hstops := h.stops.2.1 ⟨['0'], true, rfl⟩
  exact absurd hstops (by decide)

end Esp32Cam.Http.Control
