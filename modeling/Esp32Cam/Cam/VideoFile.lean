/-
  Esp32Cam.Cam.VideoFile — the recorder of videos, with what it writes.

  `RecMjpgAvi` (`Esp32Cam.Cam.RecMjpgAvi`) knows of its file only whether it is open. Here
  the file is the writer's, and the frames of the camera are events as well: a frame that
  is not empty is written, and its size is what the file gets when it is stopped, with the
  duration of a frame, which is the clock's answer here. Who does not notice an error of
  a write goes on with the next frame.

  - `videos_read`: whatever comes in, and whatever the file system answers, no frame
    comes in without a file for it, and each file closed without an error begins with
    a `RIFF` chunk that lists the frames whose write succeeded, in order, byte for byte,
    counted, and with the size of the last frame received. These are all frames received
    since its start, and all there is in the file, if no write failed.
  - `run_toRecMjpgAvi`: forgetting the content, these are the runs of `RecMjpgAvi`.
-/

import Esp32Cam.Avi.WrittenFile
import Esp32Cam.Cam.RecMjpgAvi

namespace Esp32Cam.Cam

open Esp32Cam.Lib
open Esp32Cam.Lib.Riff (FourCc Chunk)

/-- `behind`: the byte behind the data, in memory. -/
structure Frame where
  data : List UInt8
  behind : UInt8
  width : Int
  height : Int
  deriving DecidableEq, Repr

/-- A file that has been closed; `failed`: not every write succeeded. -/
structure Video where
  name : List Char
  content : List UInt8
  error : Option Avi.AviError
  received : List Frame
  stored : List (List UInt8)
  failed : Bool
  deriving DecidableEq, Repr

/-- `received` and `stored` are the frames of the file that is open. `faulted`: a frame came in without
    a file, or the program ended in `close`. -/
structure VideoRecorder where
  fd : Option (List Char × Avi) := none
  keyEnabled : Bool := false
  width : Int := -1
  height : Int := -1
  received : List Frame := []
  stored : List (List UInt8) := []
  failed : Bool := false
  faulted : Bool := false
  closed : List Video := []

namespace VideoRecorder

def mjpg : FourCc := .ofChars 'M' 'J' 'P' 'G'

/-- `opened` is `AVI_open_output_file`'s. -/
def start (v : VideoRecorder) (opened : Option Nat) (aFilename : List Char) : VideoRecorder × Bool :=
  match v.fd with
  | some _ => (v, false)
  | none =>
    match Avi.openOutputFile opened with
    | some a => ({ v with fd := some (aFilename, a), keyEnabled := true, received := [], stored := [], failed := false }, true)
    | none => (v, false)

/-- A frame that comes in while the key is not enabled is for others. -/
def onNewFrame (v : VideoRecorder) (aFrame : Frame) (w : Avi.Written) : VideoRecorder :=
  if v.keyEnabled = false ∨ aFrame.data = [] then v
  else
    match v.fd with
    | none => { v with faulted := true }
    | some (name, a) =>
      let v := { v with width := aFrame.width, height := aFrame.height, received := v.received ++ [aFrame] }
      match a.writeFrame aFrame.data aFrame.behind w with
      | (a, none) => { v with fd := some (name, a), stored := v.stored ++ [aFrame.data] }
      | (a, some _) => { v with fd := some (name, a), failed := true }

/-- `msPerFrame` is what the clock makes of the frames, `nHeader` is `AVI_close`'s. -/
def stop (v : VideoRecorder) (msPerFrame : Int) (nHeader : Option Nat) : VideoRecorder :=
  let v := { v with keyEnabled := false }
  match v.fd with
  | none => v
  | some (name, a) =>
    match (a.setVideo v.width v.height msPerFrame mjpg).close nHeader with
    | none => { v with faulted := true }
    | some (content, error) =>
      { v with fd := none, closed := v.closed ++ [⟨name, content, error, v.received, v.stored, v.failed⟩] }

def onHrTimer (v : VideoRecorder) (nConnectedStations : Option Nat) (msPerFrame : Int) (nHeader : Option Nat) :
    VideoRecorder :=
  if nConnectedStations = some 0 then v.stop msPerFrame nHeader else v

inductive Event where
  | start (opened : Option Nat) (aFilename : List Char)
  | newFrame (aFrame : Frame) (w : Avi.Written)
  | stop (msPerFrame : Int) (nHeader : Option Nat)
  | hrTimer (nConnectedStations : Option Nat) (msPerFrame : Int) (nHeader : Option Nat)
  deriving DecidableEq, Repr

def step (v : VideoRecorder) : Event → VideoRecorder
  | .start opened aFilename => (v.start opened aFilename).1
  | .newFrame aFrame w => v.onNewFrame aFrame w
  | .stop msPerFrame nHeader => v.stop msPerFrame nHeader
  | .hrTimer nConnectedStations msPerFrame nHeader => v.onHrTimer nConnectedStations msPerFrame nHeader

/-! ## The recorder without the content -/

def toRecMjpgAvi (v : VideoRecorder) : RecMjpgAvi where
  fd := v.fd.map Prod.fst
  keyEnabled := v.keyEnabled

def Event.toRecMjpgAvi : Event → Option RecMjpgAvi.Event
  | .start opened aFilename => some (.start (Avi.openOutputFile opened).isSome aFilename)
  | .newFrame .. => none
  | .stop .. => some .stop
  | .hrTimer nConnectedStations .. => some (.hrTimer nConnectedStations)

/-! ## The frames of a file -/

def recording (v : VideoRecorder) (a : Avi) : Avi.Recording where
  avi := a
  chunks := v.stored.map (.data Avi.videoTag)
  failed := v.failed

/-- The frames received since the start, and what has become of them. -/
structure Kept (received : List Frame) (stored : List (List UInt8)) (failed : Bool) (width height : Int) : Prop where
  sublist : stored.Sublist (received.map Frame.data)
  all : failed = false → stored = received.map Frame.data
  size : ∀ aFrame, received.getLast? = some aFrame → width = aFrame.width ∧ height = aFrame.height

def Video.Reads (c : Video) : Prop :=
  ∃ file rest a, c.content = file ++ rest ∧ Riff.decode file = some [Avi.tree a (c.stored.map (.data Avi.videoTag))] ∧
    a.videoFrames = c.stored.length ∧ Kept c.received c.stored c.failed a.width a.height ∧ (c.failed = false → rest = [])

structure Sound (v : VideoRecorder) : Prop where
  key : v.keyEnabled = v.fd.isSome
  ok : v.faulted = false
  file : ∀ name a, v.fd = some (name, a) → (v.recording a).Holds ∧ (v.recording a).Counts
  kept : Kept v.received v.stored v.failed v.width v.height
  closed : ∀ c ∈ v.closed, c.error = none → Video.Reads c

theorem countP_videos (stored : List (List UInt8)) :
    (stored.map (Chunk.data Avi.videoTag)).countP Avi.isVideo = stored.length := by
  rw [List.countP_map, List.countP_eq_length.mpr fun data _ => by rfl]

section
variable {received : List Frame} {stored : List (List UInt8)} {failed : Bool} {width height : Int}

theorem Kept.store (h : Kept received stored failed width height) (aFrame : Frame) :
    Kept (received ++ [aFrame]) (stored ++ [aFrame.data]) failed aFrame.width aFrame.height := by
  refine ⟨?_, fun hall => ?_, fun f hlast => ?_⟩
  · rw [List.map_append]
    exact h.sublist.append (List.Sublist.refl _)
  · rw [List.map_append, h.all hall]
    rfl
  · rw [List.getLast?_concat, Option.some_inj] at hlast
    subst hlast
    exact ⟨rfl, rfl⟩

theorem Kept.lose (h : Kept received stored failed width height) (aFrame : Frame) :
    Kept (received ++ [aFrame]) stored true aFrame.width aFrame.height := by
  refine ⟨?_, fun hall => (by cases hall), fun f hlast => ?_⟩
  · rw [List.map_append]
    exact h.sublist.trans (List.sublist_append_left _ _)
  · rw [List.getLast?_concat, Option.some_inj] at hlast
    subst hlast
    exact ⟨rfl, rfl⟩

end

variable {v : VideoRecorder} {opened : Option Nat} {aFilename : List Char} {aFrame : Frame} {w : Avi.Written}
  {msPerFrame : Int} {nHeader nConnectedStations : Option Nat}

theorem start_sound (h : v.Sound) : (v.start opened aFilename).1.Sound := by
  unfold start
  split
  · exact h
  · split
    · next a hopen =>
      refine ⟨rfl, h.ok, fun name a' hfd => ?_, ⟨List.Sublist.refl _, fun _ => rfl, fun f hlast => by cases hlast⟩, h.closed⟩
      cases hfd
      cases opened with
      | none => cases hopen
      | some nOpened => exact ⟨Avi.Recording.holds_opened hopen, Avi.Recording.counts_opened hopen⟩
    · exact h

theorem onNewFrame_sound (h : v.Sound) : (v.onNewFrame aFrame w).Sound := by
  unfold onNewFrame
  split
  · exact h
  · next hcomes =>
    have hkey : v.keyEnabled = true := by simpa using fun hdisabled => hcomes (Or.inl hdisabled)
    split
    · next hnone =>
      have hkeyEnabled := h.key
      rw [hkey, hnone] at hkeyEnabled
      cases hkeyEnabled
    · next name a hfd =>
      obtain ⟨hholds, hcounts⟩ := h.file name a hfd
      have hholds' := Avi.Recording.step_holds (.writeFrame aFrame.data aFrame.behind w) hholds
      have hcounts' := Avi.Recording.step_counts (.writeFrame aFrame.data aFrame.behind w) hcounts
      dsimp only
      split
      · next a' hwrite =>
        refine ⟨h.key.trans (by rw [hfd]; rfl), h.ok, fun name' a'' heq => ?_, h.kept.store aFrame, h.closed⟩
        cases heq
        have hstep : (v.recording a).step (.writeFrame aFrame.data aFrame.behind w) =
            ⟨a', (v.stored ++ [aFrame.data]).map (.data Avi.videoTag), 0, v.failed⟩ := by
          simp [Avi.Recording.step, recording, Avi.call, hwrite, Avi.Call.chunk]
        rw [hstep] at hholds' hcounts'
        exact ⟨hholds', hcounts'⟩
      · next a' e hwrite =>
        refine ⟨h.key.trans (by rw [hfd]; rfl), h.ok, fun name' a'' heq => ?_, h.kept.lose aFrame, h.closed⟩
        cases heq
        have hstep : (v.recording a).step (.writeFrame aFrame.data aFrame.behind w) =
            ⟨a', v.stored.map (.data Avi.videoTag), 0, v.failed || e = .write⟩ := by
          simp [Avi.Recording.step, recording, Avi.call, hwrite]
        rw [hstep] at hholds' hcounts'
        exact ⟨hholds'.fail, hcounts'.fail⟩

theorem stop_sound (h : v.Sound) : (v.stop msPerFrame nHeader).Sound := by
  unfold stop
  dsimp only
  split
  · next hnone => exact ⟨by rw [hnone]; rfl, h.ok, h.file, h.kept, h.closed⟩
  · next name a hfd =>
    obtain ⟨hholds, hcounts⟩ := h.file name a hfd
    have hholds' := Avi.Recording.step_holds (.setVideo v.width v.height msPerFrame mjpg) hholds
    have hcounts' := Avi.Recording.step_counts (.setVideo v.width v.height msPerFrame mjpg) hcounts
    have hstep : (v.recording a).step (.setVideo v.width v.height msPerFrame mjpg) =
        v.recording (a.setVideo v.width v.height msPerFrame mjpg) := by
      simp [Avi.Recording.step, recording, Avi.call, Avi.Call.chunk]
    rw [hstep] at hholds' hcounts'
    obtain ⟨content, error, hclose, hwhole⟩ :=
      Avi.Recording.close_cases (a.setVideo v.width v.height msPerFrame mjpg) nHeader
    rw [hclose]
    refine ⟨rfl, h.ok, fun _ _ hopen => (by cases hopen), h.kept, fun c hc hnone => ?_⟩
    rcases List.mem_append.mp hc with hbefore | hnew
    · exact h.closed c hbefore hnone
    · rw [List.mem_singleton.mp hnew] at hnone ⊢
      obtain ⟨n, rfl, hheader⟩ := hwhole hnone
      obtain ⟨file, rest, hfile, hdecode, hrest⟩ := Avi.Recording.close_reads hholds' hcounts' hheader
      rw [recording, hclose] at hfile
      have hcontent : content = file ++ rest := congrArg Prod.fst (Option.some.inj hfile)
      refine ⟨file, rest, a.setVideo v.width v.height msPerFrame mjpg, hcontent, hdecode, ?_, h.kept, hrest⟩
      exact hcounts'.frames.trans (countP_videos v.stored)

theorem step_sound (e : Event) (h : v.Sound) : (v.step e).Sound := by
  cases e with
  | start opened aFilename => exact start_sound h
  | newFrame aFrame w => exact onNewFrame_sound h
  | stop msPerFrame nHeader => exact stop_sound h
  | hrTimer nConnectedStations msPerFrame nHeader =>
    show (v.onHrTimer nConnectedStations msPerFrame nHeader).Sound
    unfold onHrTimer
    split
    · exact stop_sound h
    · exact h

theorem start_toRecMjpgAvi : (v.start opened aFilename).1.toRecMjpgAvi =
    (v.toRecMjpgAvi.start (Avi.openOutputFile opened).isSome aFilename).1 := by
  unfold start RecMjpgAvi.start toRecMjpgAvi
  cases hfd : v.fd with
  | some file => simp [hfd]
  | none => cases hopen : Avi.openOutputFile opened <;> simp [hfd]

theorem onNewFrame_toRecMjpgAvi : (v.onNewFrame aFrame w).toRecMjpgAvi = v.toRecMjpgAvi := by
  unfold onNewFrame
  split
  · rfl
  · split
    · rfl
    · next name a hfd =>
      dsimp only
      split <;> simp [toRecMjpgAvi, hfd]

theorem stop_toRecMjpgAvi : (v.stop msPerFrame nHeader).toRecMjpgAvi = v.toRecMjpgAvi.stop := by
  unfold stop
  dsimp only
  split
  · next hnone => simp [toRecMjpgAvi, RecMjpgAvi.stop, hnone]
  · next name a hfd =>
    obtain ⟨content, error, hclose, -⟩ :=
      Avi.Recording.close_cases (a.setVideo v.width v.height msPerFrame mjpg) nHeader
    rw [hclose]
    rfl

/-- A frame is no step of `RecMjpgAvi`. -/
theorem step_toRecMjpgAvi (e : Event) :
    (v.step e).toRecMjpgAvi = run RecMjpgAvi.step v.toRecMjpgAvi e.toRecMjpgAvi.toList := by
  cases e with
  | start opened aFilename => exact start_toRecMjpgAvi
  | newFrame aFrame w => exact onNewFrame_toRecMjpgAvi
  | stop msPerFrame nHeader => exact stop_toRecMjpgAvi
  | hrTimer nConnectedStations msPerFrame nHeader =>
    show (v.onHrTimer nConnectedStations msPerFrame nHeader).toRecMjpgAvi =
      v.toRecMjpgAvi.onHrTimer nConnectedStations
    unfold onHrTimer RecMjpgAvi.onHrTimer
    split
    · exact stop_toRecMjpgAvi
    · rfl

theorem run_toRecMjpgAvi (es : List Event) :
    (run step v es).toRecMjpgAvi = run RecMjpgAvi.step v.toRecMjpgAvi (es.flatMap fun e => e.toRecMjpgAvi.toList) := by
  induction es generalizing v with
  | nil => rfl
  | cons e es ih => rw [List.flatMap_cons, run_append, run_cons, ih, step_toRecMjpgAvi]

end VideoRecorder

end Esp32Cam.Cam
