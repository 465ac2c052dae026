/-
  Esp32Cam.Cam.RecFrame — the capture of a photo, step by step, with notifications in between.

  `RecFrame::start` opens a file, switches the camera to 800x600, waits for a notification
  with its subscription enabled, and writes a frame itself if none came; then it restores
  the frame size. `onNewFrame` is run by another thread, under the mutex, and may come
  between any two steps: it writes its frame into the file that is open, and closes it.

  A call is to leave no file open, the subscription disabled and the frame size as it was,
  and to return true only with a whole frame written (`NoResidue`). It returns in five
  places. Where the switch is not accepted it leaves the file open, and at the end it takes
  any frame a notification wrote, and does not look at how the frame size is restored. The
  calls of a run leave no residue exactly where none of this shows (`frame_without_residue_iff`).
-/

import Esp32Cam.Lib.PartialRun
import Esp32Cam.Cam.FrameSizeWrite
import Esp32Cam.Cam.RecMjpgAvi

namespace Esp32Cam.Cam

open Esp32Cam.Lib

def jpgPath (name : List Char) : List Char := kMountPoint ++ ['/'] ++ name ++ ['.', 'j', 'p', 'g']

def kMaxFilePathLength : Nat := 64

def kFrameSizePhoto : FrameSize := (800, 600)

/-- Where a call stands: before which of its steps. -/
inductive Stage where
  | idle
  | reading
  | opening (frameSizePrev : FrameSize)
  | switching (frameSizePrev : FrameSize)
  | enabling (frameSizePrev : FrameSize)
  | waiting (frameSizePrev : FrameSize)
  | disabling (frameSizePrev : FrameSize)
  | resetting (frameSizePrev : FrameSize)
  | finishing (frameSizePrev : FrameSize)
  deriving DecidableEq, Repr

structure RecFrame where
  camera : Ov2640
  /-- The pointer is not null. -/
  file : Bool := false
  sem : Bool := false
  keyEnabled : Bool := false
  stage : Stage := .idle
  /-- What the last call returned. -/
  returned : Option Bool := none
  /-- What a read of the frame size yielded when the call began. -/
  before : Option FrameSize := none
  /-- Whether the frame written into the file of the call is a whole one. -/
  written : Option Bool := none
  deriving DecidableEq, Repr

namespace RecFrame

/-- The steps of a call, with what the file system and the camera answer; a notification, with
    what `fwrite` answers; a write of the camera by somebody else between two calls. -/
inductive Event where
  | start (aFilename : Option (List Char))
  | read
  | fopen (opens : Bool)
  | switch (a : Answers)
  | enable
  | acquire
  | disable
  | reset
  /-- `none`: there is no valid frame. -/
  | finish (frame : Option Bool) (a : Answers)
  | onNewFrame (whole : Bool)
  | other (w : Ov2640.Write)
  deriving DecidableEq, Repr

def leave (r : RecFrame) (returned : Bool) : RecFrame := { r with stage := .idle, returned := some returned }

def onNewFrame (r : RecFrame) (whole : Bool) : RecFrame :=
  { r with file := false, sem := true, written := if r.file then some whole else r.written }

/-- `behind` lies behind the table of the frame sizes. -/
def step (behind : FrameSize) (r : RecFrame) (e : Event) : Option RecFrame :=
  match e, r.stage with
  | .start aFilename, .idle =>
    let r := { r with before := r.camera.getFrameSize, written := none }
    match aFilename with
    | none => some (r.leave false)
    | some name =>
      if (jpgPath name).length ≥ kMaxFilePathLength then some (r.leave false) else some { r with stage := .reading }
  | .read, .reading =>
    match r.camera.getFrameSize with
    | none => some (r.leave false)
    | some frameSizePrev =>
      if frameSizePrev.1 = 0 then some (r.leave false) else some { r with stage := .opening frameSizePrev }
  | .fopen opens, .opening frameSizePrev =>
    if opens then some { r with file := true, stage := .switching frameSizePrev }
    else some ({ r with file := false }.leave false)
  | .switch a, .switching frameSizePrev =>
    let w := r.camera.setFieldValue behind a kFrameSizePhoto
    let r := { r with camera := w.camera }
    if w.responses = [.ok] then some { r with stage := .enabling frameSizePrev } else some (r.leave false)
  | .enable, .enabling frameSizePrev => some { r with keyEnabled := true, stage := .waiting frameSizePrev }
  | .acquire, .waiting frameSizePrev => some { r with sem := false, stage := .disabling frameSizePrev }
  | .disable, .disabling frameSizePrev => some { r with keyEnabled := false, stage := .resetting frameSizePrev }
  | .reset, .resetting frameSizePrev => some { r with sem := false, stage := .finishing frameSizePrev }
  | .finish frame a, .finishing frameSizePrev =>
    let ret := !r.file || frame = some true
    let w := r.camera.setFieldValue behind a frameSizePrev
    some ({ r with
      file := false
      written := if r.file then frame else r.written
      camera := w.camera }.leave ret)
  | .onNewFrame whole, _ => some (r.onNewFrame whole)
  | .other w, .idle => some { r with camera := r.camera.step behind w }
  | _, _ => none

inductive Stepped (behind : FrameSize) (r : RecFrame) : Event → RecFrame → Prop
  | refused (aFilename : Option (List Char)) (hstage : r.stage = .idle) : Stepped behind r (.start aFilename)
      ({ r with before := r.camera.getFrameSize, written := none }.leave false)
  | started (aFilename : Option (List Char)) (hstage : r.stage = .idle) : Stepped behind r (.start aFilename)
      { r with before := r.camera.getFrameSize, written := none, stage := .reading }
  | unread (hstage : r.stage = .reading) : Stepped behind r .read (r.leave false)
  | read {frameSizePrev : FrameSize} (hstage : r.stage = .reading) (hread : r.camera.getFrameSize = some frameSizePrev) :
      Stepped behind r .read { r with stage := .opening frameSizePrev }
  | unopened {frameSizePrev : FrameSize} (hstage : r.stage = .opening frameSizePrev) :
      Stepped behind r (.fopen false) ({ r with file := false }.leave false)
  | opened {frameSizePrev : FrameSize} (hstage : r.stage = .opening frameSizePrev) :
      Stepped behind r (.fopen true) { r with file := true, stage := .switching frameSizePrev }
  | notSwitched {a : Answers} {frameSizePrev : FrameSize} (hstage : r.stage = .switching frameSizePrev)
      (hrefused : (r.camera.setFieldValue behind a kFrameSizePhoto).responses ≠ [.ok]) :
      Stepped behind r (.switch a)
        ({ r with camera := (r.camera.setFieldValue behind a kFrameSizePhoto).camera }.leave false)
  | switched {a : Answers} {frameSizePrev : FrameSize} (hstage : r.stage = .switching frameSizePrev)
      (hok : (r.camera.setFieldValue behind a kFrameSizePhoto).responses = [.ok]) :
      Stepped behind r (.switch a)
        { r with camera := (r.camera.setFieldValue behind a kFrameSizePhoto).camera, stage := .enabling frameSizePrev }
  | enabled {frameSizePrev : FrameSize} (hstage : r.stage = .enabling frameSizePrev) :
      Stepped behind r .enable { r with keyEnabled := true, stage := .waiting frameSizePrev }
  | acquired {frameSizePrev : FrameSize} (hstage : r.stage = .waiting frameSizePrev) :
      Stepped behind r .acquire { r with sem := false, stage := .disabling frameSizePrev }
  | disabled {frameSizePrev : FrameSize} (hstage : r.stage = .disabling frameSizePrev) :
      Stepped behind r .disable { r with keyEnabled := false, stage := .resetting frameSizePrev }
  | reset {frameSizePrev : FrameSize} (hstage : r.stage = .resetting frameSizePrev) :
      Stepped behind r .reset { r with sem := false, stage := .finishing frameSizePrev }
  | finished {frame : Option Bool} {a : Answers} {frameSizePrev : FrameSize} (hstage : r.stage = .finishing frameSizePrev) :
      Stepped behind r (.finish frame a)
        (({ r with file := false, written := if r.file then frame else r.written,
                   camera := (r.camera.setFieldValue behind a frameSizePrev).camera } : RecFrame).leave
          (!r.file || frame = some true))
  | notified (whole : Bool) : Stepped behind r (.onNewFrame whole) (r.onNewFrame whole)
  | other (w : Ov2640.Write) (hstage : r.stage = .idle) :
      Stepped behind r (.other w) { r with camera := r.camera.step behind w }

theorem stepped_of_step {behind : FrameSize} {r r' : RecFrame} {e : Event} (hstep : r.step behind e = some r') :
    Stepped behind r e r' := by
  unfold RecFrame.step at hstep
  split at hstep
  · rename_i aFilename hstage
    dsimp only at hstep
    split at hstep
    · cases hstep
      exact .refused _ hstage
    · split at hstep
      · cases hstep
        exact .refused _ hstage
      · cases hstep
        exact .started _ hstage
  · rename_i hstage
    split at hstep
    · cases hstep
      exact .unread hstage
    · rename_i frameSizePrev hread
      split at hstep
      · cases hstep
        exact .unread hstage
      · cases hstep
        exact .read hstage hread
  · rename_i opens frameSizePrev hstage
    cases opens with
    | true =>
      cases hstep
      exact .opened hstage
    | false =>
      cases hstep
      exact .unopened hstage
  · rename_i a frameSizePrev hstage
    dsimp only at hstep
    split at hstep
    · rename_i hok
      cases hstep
      exact .switched hstage hok
    · rename_i hrefused
      cases hstep
      exact .notSwitched hstage hrefused
  · rename_i hstage
    cases hstep
    exact .enabled hstage
  · rename_i hstage
    cases hstep
    exact .acquired hstage
  · rename_i hstage
    cases hstep
    exact .disabled hstage
  · rename_i hstage
    cases hstep
    exact .reset hstage
  · rename_i hstage
    cases hstep
    exact .finished hstage
  · cases hstep
    exact .notified _
  · rename_i hstage
    cases hstep
    exact .other _ hstage
  · cases hstep

/-! ## What a call is to leave -/

def Returns (r : RecFrame) (e : Event) (r' : RecFrame) : Prop := r'.stage = .idle ∧ ((∃ name, e = .start name) ∨ r.stage ≠ .idle)

structure NoResidue (r : RecFrame) : Prop where
  file : r.file = false
  key : r.keyEnabled = false
  frameSize : r.camera.getFrameSize = r.before
  whole : r.returned = some true → r.written = some true

def Clean (r : RecFrame) (e : Event) (r' : RecFrame) : Prop := Returns r e r' → NoResidue r'

/-- The switch is accepted, or a notification has taken the file. -/
def SwitchAllowed (r : RecFrame) (a : Answers) : Prop :=
  (r.camera.Supported kFrameSizePhoto ∧ a.nvsSet = true) ∨ r.file = false

/-- No notification has written a part of a frame, and the frame size comes up again, or was not lost. -/
def FinishAllowed (r : RecFrame) (frameSizePrev : FrameSize) (a : Answers) : Prop :=
  (r.file = true ∨ r.written = some true) ∧
    if a.nvsSet then r.camera.comesUp a frameSizePrev = r.before else r.camera.getFrameSize = r.before

def Allowed (r : RecFrame) (e : Event) : Prop :=
  match e, r.stage with
  | .switch a, .switching _ => SwitchAllowed r a
  | .finish _ a, .finishing frameSizePrev => FinishAllowed r frameSizePrev a
  | _, _ => True

/-! ## The invariant -/

def subscribed : Stage → Bool
  | .waiting _ => true
  | .disabling _ => true
  | _ => false

/-- What is known of the file and of the frame size at a stage. -/
def Known (r : RecFrame) : Prop :=
  match r.stage with
  | .idle => r.file = false
  | .reading => (r.file = false ∧ r.written = none) ∧ r.before = r.camera.getFrameSize
  | .opening frameSizePrev =>
    (r.file = false ∧ r.written = none) ∧ r.before = some frameSizePrev ∧ r.camera.getFrameSize = some frameSizePrev
  | .switching frameSizePrev =>
    r.file = r.written.isNone ∧ r.before = some frameSizePrev ∧ r.camera.getFrameSize = some frameSizePrev
  | .enabling frameSizePrev | .waiting frameSizePrev | .disabling frameSizePrev | .resetting frameSizePrev
  | .finishing frameSizePrev =>
    r.file = r.written.isNone ∧ r.before = some frameSizePrev ∧ r.camera.Supported frameSizePrev

structure Inv (r : RecFrame) : Prop where
  withinLimit : r.camera.WithinLimit
  key : r.keyEnabled = subscribed r.stage
  known : r.Known

section
variable {behind : FrameSize} {r r' : RecFrame} {e : Event}

theorem kFrameSizePhoto_mem : kFrameSizePhoto ∈ kFrameSizeModeMap := by decide

/-- A notification closes the file it has written. -/
theorem onNewFrame_file (h : r.file = r.written.isNone) (whole : Bool) :
    (r.onNewFrame whole).file = (r.onNewFrame whole).written.isNone := by
  unfold RecFrame.onNewFrame
  dsimp only
  cases hfile : r.file with
  | true => rfl
  | false =>
    rw [hfile] at h
    rw [if_neg Bool.false_ne_true]
    exact h

/-- Without an open file a notification leaves the call as it is. -/
theorem onNewFrame_written (h : r.file = false) (whole : Bool) : (r.onNewFrame whole).written = r.written := by
  unfold RecFrame.onNewFrame
  rw [h, if_neg Bool.false_ne_true]

theorem Inv.onNewFrame (h : r.Inv) (whole : Bool) : (r.onNewFrame whole).Inv := by
  refine ⟨h.withinLimit, h.key, ?_⟩
  have hknown := h.known
  have hstage : (r.onNewFrame whole).stage = r.stage := rfl
  unfold Known at hknown ⊢
  rw [hstage]
  split at hknown
  · exact rfl
  · exact ⟨⟨rfl, (onNewFrame_written hknown.1.1 whole).trans hknown.1.2⟩, hknown.2⟩
  · exact ⟨⟨rfl, (onNewFrame_written hknown.1.1 whole).trans hknown.1.2⟩, hknown.2⟩
  · exact ⟨onNewFrame_file hknown.1 whole, hknown.2⟩
  all_goals exact ⟨onNewFrame_file hknown.1 whole, hknown.2⟩

theorem Inv.step (hstep : r.step behind e = some r') (h : r.Inv) (hallowed : r.Allowed e) : r'.Inv := by
  have hlimit := h.withinLimit
  have hkey := h.key
  have hknown := h.known
  unfold Known at hknown
  unfold Allowed at hallowed
  cases stepped_of_step hstep with
  | refused _ hstage =>
    rw [hstage] at hkey hknown
    exact ⟨hlimit, hkey, hknown⟩
  | started _ hstage =>
    rw [hstage] at hkey hknown
    exact ⟨hlimit, hkey, ⟨hknown, rfl⟩, rfl⟩
  | unread hstage =>
    rw [hstage] at hkey hknown
    exact ⟨hlimit, hkey, hknown.1.1⟩
  | read hstage hread =>
    rw [hstage] at hkey hknown
    exact ⟨hlimit, hkey, hknown.1, hknown.2.trans hread, hread⟩
  | unopened hstage =>
    rw [hstage] at hkey
    exact ⟨hlimit, hkey, rfl⟩
  | opened hstage =>
    rw [hstage] at hkey hknown
    exact ⟨hlimit, hkey, by rw [hknown.1.2]; rfl, hknown.2⟩
  | notSwitched hstage hrefused =>
    rename_i a frameSizePrev
    rw [hstage] at hkey hallowed
    refine ⟨hlimit.step (.frameSize a kFrameSizePhoto), hkey, ?_⟩
    rcases hallowed with haccepted | hfile
    · rcases Ov2640.setFieldValue_spec kFrameSizePhoto_mem behind r.camera a with h | h
      · exact absurd h.2.2.1 hrefused
      · exact absurd haccepted h.1
    · exact hfile
  | switched hstage hok =>
    rename_i a frameSizePrev
    rw [hstage] at hkey hknown
    have hsupported := hlimit.supported hknown.2.2
    refine ⟨hlimit.step (.frameSize a kFrameSizePhoto), hkey, hknown.1, hknown.2.1, ?_⟩
    unfold Ov2640.Supported
    rw [Ov2640.setFieldValue_pixformat behind r.camera a kFrameSizePhoto]
    exact hsupported
  | enabled hstage =>
    rw [hstage] at hknown
    exact ⟨hlimit, rfl, hknown⟩
  | acquired hstage =>
    rw [hstage] at hkey hknown
    exact ⟨hlimit, hkey, hknown⟩
  | disabled hstage =>
    rw [hstage] at hknown
    exact ⟨hlimit, rfl, hknown⟩
  | reset hstage =>
    rw [hstage] at hkey hknown
    exact ⟨hlimit, hkey, hknown⟩
  | finished hstage =>
    rename_i frame a frameSizePrev
    rw [hstage] at hkey
    exact ⟨hlimit.step (.frameSize a frameSizePrev), hkey, rfl⟩
  | notified whole => exact h.onNewFrame whole
  | other w hstage =>
    rw [hstage] at hkey hknown
    refine ⟨hlimit.step w, ?_, ?_⟩
    · rw [hstage]
      exact hkey
    · unfold Known
      rw [hstage]
      exact hknown

section
variable {a : Answers} {frameSizePrev : FrameSize}

/-- A switch that is accepted ends no call. -/
theorem switched_allowed (hok : (r.camera.setFieldValue behind a kFrameSizePhoto).responses = [.ok]) :
    SwitchAllowed r a := by
  rcases Ov2640.setFieldValue_spec kFrameSizePhoto_mem behind r.camera a with h | h
  · exact .inl ⟨h.1, h.2.1⟩
  · exact absurd hok h.2.1

/-- A switch that is not accepted ends the call. -/
theorem notSwitched_clean_iff (h : r.Inv) (hstage : r.stage = .switching frameSizePrev)
    (hrefused : (r.camera.setFieldValue behind a kFrameSizePhoto).responses ≠ [.ok]) :
    Clean r (.switch a) ({ r with camera := (r.camera.setFieldValue behind a kFrameSizePhoto).camera }.leave false) ↔
      SwitchAllowed r a := by
  have hkey := h.key
  have hknown := h.known
  unfold Known at hknown
  rw [hstage] at hkey hknown
  have hspec := Ov2640.setFieldValue_spec kFrameSizePhoto_mem behind r.camera a
  constructor
  · intro hclean
    have hclean := hclean ⟨rfl, .inr (by rw [hstage]; nofun)⟩
    exact .inr hclean.file
  · intro hallowed _
    rcases hspec with h | h
    · exact absurd h.2.2.1 hrefused
    · have hfile : r.file = false := hallowed.resolve_left h.1
      exact ⟨hfile, hkey, (congrArg Ov2640.getFrameSize h.2.2).trans (hknown.2.2.trans hknown.2.1.symm), nofun⟩

/-- The last step takes what a notification wrote for whole, and the frame size for restored. -/
theorem finished_clean_iff {frame : Option Bool} (h : r.Inv) (hstage : r.stage = .finishing frameSizePrev) :
    Clean r (.finish frame a)
        (({ r with file := false, written := if r.file then frame else r.written,
                   camera := (r.camera.setFieldValue behind a frameSizePrev).camera } : RecFrame).leave
          (!r.file || frame = some true)) ↔ FinishAllowed r frameSizePrev a := by
  have hkey := h.key
  have hknown := h.known
  unfold Known at hknown
  rw [hstage] at hkey hknown
  have hspec := Ov2640.setFieldValue_spec hknown.2.2.mem behind r.camera a
  have hrestored : (r.camera.setFieldValue behind a frameSizePrev).camera.getFrameSize =
      if a.nvsSet then r.camera.comesUp a frameSizePrev else r.camera.getFrameSize := by
    rcases hspec with h | h
    · rw [h.2.2.2, if_pos h.2.1]
    · rw [h.2.2, if_neg fun hset => h.1 ⟨hknown.2.2, hset⟩]
  have hframeSize : (r.camera.setFieldValue behind a frameSizePrev).camera.getFrameSize = r.before ↔
      if a.nvsSet then r.camera.comesUp a frameSizePrev = r.before else r.camera.getFrameSize = r.before := by
    rw [hrestored]
    split
    · exact Iff.rfl
    · exact Iff.rfl
  have hwhole : (some (!r.file || decide (frame = some true)) = some true →
      (if r.file then frame else r.written) = some true) ↔ (r.file = true ∨ r.written = some true) := by
    cases r.file with
    | true => simp
    | false => simp
  constructor
  · intro hclean
    have hclean := hclean ⟨rfl, .inr (by rw [hstage]; nofun)⟩
    exact ⟨hwhole.mp hclean.whole, hframeSize.mp hclean.frameSize⟩
  · intro hallowed _
    exact ⟨rfl, hkey, hframeSize.mpr hallowed.2, hwhole.mpr hallowed.1⟩

end

/-- A step that goes on with the call leaves nothing to ask. -/
theorem clean_of_stage (h : r'.stage ≠ .idle) : Clean r e r' := fun hreturns => absurd hreturns.1 h

/-- A step that is allowed leaves no residue where it ends a call, and only such a step. -/
theorem clean_iff (hstep : r.step behind e = some r') (h : r.Inv) : Clean r e r' ↔ r.Allowed e := by
  have hkey := h.key
  have hknown := h.known
  unfold Known at hknown
  unfold Allowed
  cases stepped_of_step hstep with
  | refused _ hstage =>
    rw [hstage] at hkey hknown
    exact iff_of_true (fun _ => ⟨hknown, hkey, rfl, nofun⟩) trivial
  | started _ hstage => exact iff_of_true (clean_of_stage nofun) trivial
  | unread hstage =>
    rw [hstage] at hkey hknown
    exact iff_of_true (fun _ => ⟨hknown.1.1, hkey, hknown.2.symm, nofun⟩) trivial
  | read hstage hread => exact iff_of_true (clean_of_stage nofun) trivial
  | unopened hstage =>
    rw [hstage] at hkey hknown
    exact iff_of_true (fun _ => ⟨rfl, hkey, hknown.2.2.trans hknown.2.1.symm, nofun⟩) trivial
  | opened hstage => exact iff_of_true (clean_of_stage nofun) trivial
  | notSwitched hstage hrefused =>
    rw [hstage]
    exact notSwitched_clean_iff h hstage hrefused
  | switched hstage hok =>
    rw [hstage]
    exact iff_of_true (clean_of_stage nofun) (switched_allowed hok)
  | enabled hstage => exact iff_of_true (clean_of_stage nofun) trivial
  | acquired hstage => exact iff_of_true (clean_of_stage nofun) trivial
  | disabled hstage => exact iff_of_true (clean_of_stage nofun) trivial
  | reset hstage => exact iff_of_true (clean_of_stage nofun) trivial
  | finished hstage =>
    rw [hstage]
    exact finished_clean_iff h hstage
  | notified whole =>
    -- a notification ends no call
    refine iff_of_true (fun hreturns => ?_) trivial
    rcases hreturns with ⟨hidle, ⟨name, hstart⟩ | hbusy⟩
    · cases hstart
    · exact absurd hidle hbusy
  | other w hstage =>
    refine iff_of_true (fun hreturns => ?_) trivial
    rcases hreturns with ⟨-, ⟨name, hstart⟩ | hbusy⟩
    · cases hstart
    · exact absurd hstage hbusy

end

/-! ## Runs -/

def initial (stored : Option Nat) (a : Answers) : RecFrame := { camera := Ov2640.start stored a }

theorem initial_inv (stored : Option Nat) (a : Answers) : (initial stored a).Inv :=
  ⟨Ov2640.reinit_withinLimit { stored } a, rfl, rfl⟩

/-- **No residue.** Whatever is answered and whenever a notification comes, the calls of a run
leave no residue exactly where every switch and every last step is one that is allowed. -/
theorem frame_without_residue_iff (behind : FrameSize) (stored : Option Nat) (a : Answers) (es : List Event) :
    PartialRun.Along (step behind) Clean (initial stored a) es ↔
      PartialRun.Along (step behind) (fun r e _ => r.Allowed e) (initial stored a) es :=
  PartialRun.along_iff_along (I := Inv) (fun _ _ _ hstep h hallowed => h.step hstep hallowed)
    (fun _ _ _ hstep h => clean_iff hstep h) (initial_inv stored a)

/-- The switch cannot be stored: the call returns with the file left open. -/
theorem a_refused_switch_leaves_the_file_open :
    ¬ ∀ (behind : FrameSize) (stored : Option Nat) (a : Answers) (es : List Event),
      PartialRun.Along (step behind) Clean (initial stored a) es := by
  intro h
  have h := h (0, 0) none {} [.start (some ['p']), .read, .fopen true, .switch { nvsSet := false }]
  have hclean := ((((h _ rfl).2 _ rfl).2 _ rfl).2 _ rfl).1
  exact absurd (hclean ⟨rfl, .inr nofun⟩).file (by decide)

end RecFrame

end Esp32Cam.Cam
