/-
  Esp32Cam.Trk.WriteResponses — what the tracker answers to a write, and what it has done.

  A write is answered once, with Ok when it has had its effect, and one that is answered
  otherwise has had none (`Answered`). As built:
  - a request to initialize is not answered at all;
  - a stop is Ok whether or not the camera is restored;
  - a rectangle is answered twice when the camera's state cannot be read;
  - one that cannot be normalized for want of the frame's size is refused, and tracking is
    started over in any case;
  - one without rows or columns, or of a frame without, is Ok and not stored.

  `answered_iff`: in a run these are all there is.
-/

import Esp32Cam.Trk.Roi

namespace Esp32Cam.Trk.Roi

open Esp32Cam.Cam Esp32Cam.Lib.PartialRun

variable {F : Type}

/-- The request has taken effect: the rectangle is stored and tracking is scheduled, or
    tracking is stopped and the camera has taken back what was read of it. -/
def TookEffect (t : Tracking F) (d : Done F) : Event F → Prop
  | .writeRoi .. => (∃ n, d.stored = some n ∧ d.trk.roi = n) ∧ (d.trk.state = .trackerInit ∨ d.trk.state = .camConfStart)
  | .writeInitialized false writes =>
    (t.state ≠ .disabled ∧ d.trk.state = .disabled) ∧ t.snapshot.initialized = true ∧ writes = ⟨some true, some true⟩
  | _ => False

def isWrite : Event F → Bool
  | .writeRoi .. | .writeInitialized .. => true
  | _ => false

variable [Reckoning F]

def Answered (t : Tracking F) (e : Event F) : Prop :=
  isWrite e = true → ∃ d resp, t.step e = some d ∧ d.responses = [resp] ∧ (resp.result = .ok ↔ TookEffect t d e) ∧
    (resp.result ≠ .ok → d.trk.state = t.state ∧ d.trk.roi = t.roi ∧ d.trk.quality = t.quality)

def Known (t : Tracking F) (reads : Reads) : Prop := t.snapshot.initialized = true ∨ Tracking.Complete reads = true

def Normalizable (frameSize : FrameSize) (width height : UInt16) : Prop :=
  frameSize.1 ≠ 0 ∧ height ≠ 0 ∧ width ≠ 0 ∧ frameSize.2 ≠ 0

def Answerable (t : Tracking F) : Event F → Prop
  | .writeInitialized true _ => False
  | .writeInitialized false writes =>
    t.state = .disabled ∨ t.snapshot.initialized = true ∧ writes = ⟨some true, some true⟩
  | .writeRoi _ _ width height reads frameSize => Known t reads ∧
    match frameSize with
    | none => t.state = .trackerInit ∨ t.state = .camConfStart
    | some frameSize => Normalizable frameSize width height
  | _ => True

/-! ## The snapshot -/

/-- A snapshot that has been taken has the camera's format. -/
def Taken (t : Tracking F) : Prop := t.snapshot.initialized = true → t.snapshot.pixformat.isSome = true

section
variable {t t' : Tracking F} {reads : Reads} {writes : Writes}

omit [Reckoning F] in
theorem snapshotInit_taken (h : Taken t) (reads : Reads) : Taken (t.snapshotInit reads).1 := by
  unfold Tracking.snapshotInit
  split
  · exact h
  · intro hinit
    simp only [Tracking.Complete, Bool.and_eq_true] at hinit
    obtain ⟨format, hformat⟩ := Option.isSome_iff_exists.mp hinit.2
    simp [hformat]

omit [Reckoning F] in
theorem snapshotInit_success (t : Tracking F) (reads : Reads) : (t.snapshotInit reads).2 = true ↔ Known t reads := by
  unfold Tracking.snapshotInit Known
  split
  · rename_i hinit
    simp [hinit]
  · rename_i hinit
    simp [hinit]

omit [Reckoning F] in
/-- Only the snapshot is written. -/
theorem snapshotInit_eq (t : Tracking F) (reads : Reads) :
    (t.snapshotInit reads).1 = { t with snapshot := (t.snapshotInit reads).1.snapshot } := by
  unfold Tracking.snapshotInit
  split <;> rfl

theorem onFrame_snapshot {frame : Frame} {d : Done F} (h : Taken t) (hd : t.onFrame frame reads writes = some d) :
    Taken d.trk := by
  unfold Tracking.onFrame at hd
  split at hd
  · obtain rfl := Option.some_inj.mp hd
    exact snapshotInit_taken h reads
  · obtain rfl := Option.some_inj.mp hd
    exact h
  · by_cases hfits : frame.fits (t.roi.asAbsolute reads.frameSize) = true
    · obtain rfl := Option.some_inj.mp ((onFrameTrackerInit_of_fits hfits).symm.trans hd)
      exact h
    · rw [onFrameTrackerInit_of_not_fits hfits hd]
      exact h
  · obtain rfl := Option.some_inj.mp hd
    unfold Tracking.onFrameTrackerRunning
    split <;> exact h
  · obtain rfl := Option.some_inj.mp hd
    unfold Tracking.onFrameTrackerRunning
    split <;> exact h
  all_goals
    obtain rfl := Option.some_inj.mp hd
    exact h

theorem next_taken {e : Event F} (h : Taken t) (hnext : t.next e = some t') : Taken t' := by
  obtain ⟨d, hd, rfl⟩ := Option.map_eq_some_iff.mp hnext
  cases e with
  | frame frame reads writes => exact onFrame_snapshot h (step_frame hd)
  | resume =>
    rw [step_resume hd]
    exact h
  | task i grayscale rect psr =>
    obtain ⟨task, -, rfl⟩ := Option.map_eq_some_iff.mp hd
    cases task with
    | grayscale => cases grayscale <;> exact h
    | update => exact h
    | notify nextRoi u => exact h
  | writeInitialized initialized writes =>
    rcases (setFieldValueInitialized_cases hd).1 with hsame | hstopped
    · rw [hsame]
      exact h
    · rw [hstopped]
      exact h
  | writeRoi x y width height reads frameSize =>
    obtain rfl := Option.some_inj.mp hd
    have htaken := snapshotInit_taken h reads
    unfold Tracking.setFieldValueRoi
    dsimp only
    split <;> exact htaken

/-! ## Stops -/

omit [Reckoning F] in
theorem apply_of_taken (h : Taken t) (hinit : t.snapshot.initialized = true) :
    { t with state := .disabled }.apply writes = some (writes.frameFormat.getD true && writes.frameSize.getD true) := by
  have hformat : ¬ (t.snapshot.pixformat = none ∧ writes.frameFormat ≠ none) := by
    intro hnone
    have hsome := h hinit
    rw [hnone.1] at hsome
    cases hsome
  rw [Tracking.apply, if_neg hformat]

theorem stop_answered_iff (h : Taken t) :
    Answered t (.writeInitialized false writes) ↔ Answerable t (.writeInitialized false writes) := by
  by_cases hstate : t.state = .disabled
  · refine iff_of_true (fun _ => ?_) (Or.inl hstate)
    refine ⟨{ trk := t, responses := [⟨.other, some "Ignoring tracking stop request, as it is already stopped"⟩] }, _,
      ?_, rfl, ?_, fun _ => ⟨rfl, rfl, rfl⟩⟩
    · simp [Tracking.step, Tracking.setFieldValueInitialized, hstate]
    · simp [TookEffect, hstate]
  · have hstep : t.step (.writeInitialized false writes) =
        ({ t with state := .disabled }.apply writes).map fun (success : Bool) =>
          { trk := { t with state := .disabled }
            responses := [⟨.ok, if success then none else some "Failed to restore camera state"⟩] } := by
      simp [Tracking.step, Tracking.setFieldValueInitialized, hstate]
    constructor
    · intro hanswered
      obtain ⟨d, resp, hd, hresp, hok, -⟩ := hanswered rfl
      obtain ⟨success, -, rfl⟩ := Option.map_eq_some_iff.mp (hstep.symm.trans hd)
      obtain rfl := (List.cons.inj hresp).1
      exact Or.inr (hok.mp rfl).2
    · intro hanswerable _
      obtain ⟨hinit, hwrites⟩ := hanswerable.resolve_left hstate
      refine ⟨_, _, hstep.trans (by rw [apply_of_taken h hinit, Option.map_some]), rfl, ?_, fun hne => absurd rfl hne⟩
      exact iff_of_true rfl ⟨⟨hstate, rfl⟩, hinit, hwrites⟩

/-! ## Rectangles -/

def snapshotResponses (t : Tracking F) (reads : Reads) : List WriteResp :=
  if (t.snapshotInit reads).2 then [] else [⟨.other, some "Failed to get camera state"⟩]

def restarted (t : Tracking F) : State := if t.stateIsCameraConfigured then .trackerInit else .camConfStart

omit [Reckoning F] in
theorem restarted_cases (t : Tracking F) : restarted t = .trackerInit ∨ restarted t = .camConfStart := by
  unfold restarted
  split
  · exact Or.inl rfl
  · exact Or.inr rfl

omit [Reckoning F] in
theorem restarted_eq_iff (t : Tracking F) : restarted t = t.state ↔ t.state = .trackerInit ∨ t.state = .camConfStart := by
  unfold restarted Tracking.stateIsCameraConfigured
  cases t.state <;> decide

omit [Reckoning F] in
theorem restarted_snapshotInit (t : Tracking F) (reads : Reads) : restarted (t.snapshotInit reads).1 = restarted t := by
  rw [snapshotInit_eq]
  rfl

omit [Reckoning F] in
theorem snapshotResponses_eq_nil_iff (t : Tracking F) (reads : Reads) : snapshotResponses t reads = [] ↔ Known t reads := by
  rw [← snapshotInit_success, snapshotResponses]
  split
  · rename_i hknown
    simp [hknown]
  · rename_i hknown
    simp [hknown]

/-- The frame's size is not read: nothing is stored, and tracking is started over. -/
theorem setFieldValueRoi_none (r : Rect) (reads : Reads) :
    t.setFieldValueRoi r reads none =
      { trk := { (t.snapshotInit reads).1 with state := restarted t }
        responses := snapshotResponses t reads ++ [⟨.other, some "ROI error"⟩] } := by
  rw [← restarted_snapshotInit t reads]
  rfl

/-- The frame's size is read: the write is Ok, and stores where there is something to divide. -/
theorem setFieldValueRoi_some (r : Rect) (reads : Reads) (frameSize : FrameSize) :
    ∃ stored : Option (Normalized F), (stored.isSome = true ↔ frameSize.1 ≠ 0 ∧ r.nrows ≠ 0 ∧ r.ncols ≠ 0 ∧ frameSize.2 ≠ 0) ∧
      t.setFieldValueRoi r reads (some frameSize) =
        { trk := { (t.snapshotInit reads).1 with roi := stored.getD t.roi, quality := Quality.reset, state := restarted t }
          responses := snapshotResponses t reads ++ [⟨.ok, some ""⟩]
          stored } := by
  have hroi : (t.snapshotInit reads).1.roi = t.roi := by rw [snapshotInit_eq]
  refine ⟨(r.normalizedInit (some frameSize)).1, ?_, ?_⟩
  · unfold Rect.normalizedInit
    dsimp only
    split
    · rename_i hsizes
      exact iff_of_true rfl hsizes
    · rename_i hsizes
      exact iff_of_false nofun hsizes
  · rw [← restarted_snapshotInit t reads, ← hroi]
    unfold Tracking.setFieldValueRoi Rect.normalizedInit
    dsimp only
    split <;> rfl

omit [Reckoning F] in
theorem normalizable_iff (frameSize : FrameSize) (x y width height : UInt16) :
    (frameSize.1 ≠ 0 ∧ (Tracking.roiAbsoluteRchw x y width height).nrows ≠ 0 ∧
      (Tracking.roiAbsoluteRchw x y width height).ncols ≠ 0 ∧ frameSize.2 ≠ 0) ↔ Normalizable frameSize width height := by
  have hzero : ∀ n : UInt16, (n.toNat : Int) ≠ 0 ↔ n ≠ 0 := by
    intro n
    rw [Int.natCast_ne_zero, ne_eq, ne_eq, ← UInt16.toNat_inj]
    rfl
  simp only [Tracking.roiAbsoluteRchw, hzero, Normalizable]

theorem roi_answered_iff (x y width height : UInt16) (reads : Reads) (frameSize : Option FrameSize) :
    Answered t (.writeRoi x y width height reads frameSize) ↔ Answerable t (.writeRoi x y width height reads frameSize) := by
  have hkept : (t.snapshotInit reads).1.roi = t.roi ∧ (t.snapshotInit reads).1.quality = t.quality := by
    rw [snapshotInit_eq]
    exact ⟨rfl, rfl⟩
  have hone : ∀ resp resp' : WriteResp, snapshotResponses t reads ++ [resp] = [resp'] ↔ Known t reads ∧ resp = resp' := by
    intro resp resp'
    rw [← snapshotResponses_eq_nil_iff]
    cases snapshotResponses t reads with
    | nil => simp
    | cons first rest => simp
  cases frameSize with
  | none =>
    have hstep : t.step (.writeRoi x y width height reads none) = some _ := congrArg some (setFieldValueRoi_none _ reads)
    constructor
    · intro hanswered
      obtain ⟨d, resp, hd, hresp, -, hkeeps⟩ := hanswered rfl
      obtain rfl := Option.some_inj.mp (hstep.symm.trans hd)
      obtain ⟨hknown, rfl⟩ := (hone _ _).mp hresp
      exact ⟨hknown, (restarted_eq_iff t).mp (hkeeps nofun).1⟩
    · intro hanswerable _
      obtain ⟨hknown, hstate⟩ := hanswerable
      refine ⟨_, _, hstep, (hone _ _).mpr ⟨hknown, rfl⟩, ?_, fun _ => ⟨(restarted_eq_iff t).mpr hstate, hkept.1, hkept.2⟩⟩
      simp [TookEffect]
  | some frameSize =>
    obtain ⟨stored, hstored, hset⟩ :=
      setFieldValueRoi_some (t := t) (Tracking.roiAbsoluteRchw x y width height) reads frameSize
    have hstep : t.step (.writeRoi x y width height reads (some frameSize)) = some _ := congrArg some hset
    rw [normalizable_iff] at hstored
    constructor
    · intro hanswered
      obtain ⟨d, resp, hd, hresp, hok, -⟩ := hanswered rfl
      obtain rfl := Option.some_inj.mp (hstep.symm.trans hd)
      obtain ⟨hknown, rfl⟩ := (hone _ _).mp hresp
      obtain ⟨⟨n, hn, -⟩, -⟩ := hok.mp rfl
      exact ⟨hknown, hstored.mp (Option.isSome_iff_exists.mpr ⟨n, hn⟩)⟩
    · intro hanswerable _
      obtain ⟨hknown, hnormalizable⟩ := hanswerable
      obtain ⟨n, rfl⟩ := Option.isSome_iff_exists.mp (hstored.mpr hnormalizable)
      refine ⟨_, _, hstep, (hone _ _).mpr ⟨hknown, rfl⟩, ?_, fun hne => absurd rfl hne⟩
      exact iff_of_true rfl ⟨⟨n, rfl, rfl⟩, restarted_cases t⟩

theorem answered_step_iff (h : Taken t) (e : Event F) : Answered t e ↔ Answerable t e := by
  cases e with
  | writeInitialized initialized writes =>
    cases initialized with
    | true =>
      refine iff_of_false (fun hanswered => ?_) not_false
      obtain ⟨d, resp, hd, hresp, -⟩ := hanswered rfl
      obtain rfl := Option.some_inj.mp hd
      cases hresp
    | false => exact stop_answered_iff h
  | writeRoi x y width height reads frameSize => exact roi_answered_iff x y width height reads frameSize
  | frame | resume | task => exact iff_of_true nofun trivial

/-- In every run from the tracker's start on, the writes are answered as they should be
    exactly as long as each of them is answerable in the state it comes in. -/
theorem answered_iff (es : List (Event F)) :
    Allowed Tracking.next Answered (Tracking.init (F := F)) es ↔ Allowed Tracking.next Answerable Tracking.init es := by
  apply allowed_iff_allowed (I := Taken)
  · exact fun t e t' hnext htaken _ => next_taken htaken hnext
  · exact fun t e htaken => answered_step_iff htaken e
  · intro hinit
    cases hinit

end

/-- The camera does not answer: the first rectangle is answered twice, and tracking is started nevertheless. -/
theorem a_rectangle_is_answered_twice :
    ¬ Allowed Tracking.next Answered (Tracking.init (F := Int × Int)) [.writeRoi 10 10 20 20 ⟨none, none, none⟩ none] := by
  intro h
  obtain ⟨d, resp, hd, hresp, -⟩ := h.1 rfl
  obtain rfl := Option.some_inj.mp hd
  cases hresp

end Esp32Cam.Trk.Roi
