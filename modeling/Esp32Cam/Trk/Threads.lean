/-
  Esp32Cam.Trk.Threads — the tracker's callbacks and closures, each on a thread of its own.

  Nothing locks the tracker. A frame's callback runs on the camera's thread, a closure on
  the work queue's, and a write on its caller's; each reads the tracker's members at one
  time and writes them at another, behind long work. `Trk.Tracking` takes each of them in
  one piece. Here they go on step by step: what a callback, a closure or a stop has still
  to do is its phase, and the steps of the others fall in between.

  A write of `Roi` is the one step in which `state` is written. A stop is two: restoring
  the camera, and with it the answer, comes behind the write of `state`.

  `step_uninterrupted`: a step of `Trk.Tracking` is a run of these with nothing in between.
-/

import Esp32Cam.Trk.Tracking

namespace Esp32Cam.Trk

open Esp32Cam.Cam

/-- What a frame's callback has still to do, by the branch of the switch over `state` it has taken. -/
inductive FramePhase where
  | camConfStart
  | trackerInitFirst
  | trackerInit
  /-- `tracker->init` has returned. -/
  | initialized
  /-- The rectangle has been refused, and tracking disabled. -/
  | refused
  | trackerRunningFirst
  /-- At the spinlock. -/
  | waiting
  /-- Behind the spinlock. -/
  | cropping
  deriving DecidableEq, Repr

/-- What the closure that is running has still to do. -/
inductive ClosurePhase where
  | started (task : Task)
  /-- The camera has answered to the switch to grayscale. -/
  | switched (result : RequestResult)
  /-- The tracker has been updated, and the spinlock released. -/
  | updated
  deriving DecidableEq, Repr

/-- `stops` counts the stops that have written `state` and are still to be answered. -/
structure Threads where
  trk : Tracking
  frame : Option FramePhase := none
  closure : Option ClosurePhase := none
  stops : Nat := 0
  deriving DecidableEq, Repr

inductive Move where
  /-- The callback for the next frame reads `state`. -/
  | frame
  | frameGoesOn (roiFits : Bool) (os : Os × Os)
  /-- The work queue comes to one of the tasks. -/
  | task (i : Nat)
  | taskGoesOn (os : Os)
  | writeInitialized (initialized : Bool)
  | answerStop (os : Os × Os)
  | writeRoi
  | writeFrameSize (frameSize : FrameSize) (os : Os)
  | writeFrameFormat (frameFormat : Option Pixformat) (os : Os)
  deriving DecidableEq, Repr

namespace Threads

def onFrame : State → Option FramePhase
  | .camConfStart => some .camConfStart
  | .trackerInitFirst => some .trackerInitFirst
  | .trackerInit => some .trackerInit
  | .trackerRunningFirst => some .trackerRunningFirst
  | .trackerRunning => some .waiting
  | .disabled | .camConfFailed => none

def stepFrame (w : Threads) (roiFits : Bool) (os : Os × Os) : FramePhase → Option Threads
  | .camConfStart => some { w with trk := w.trk.onFrameCamConfStart, frame := none }
  | .trackerInitFirst => some { w with trk := { w.trk with state := .trackerInit }, frame := none }
  | .trackerInit =>
    let trk := { w.trk with tracker := true }
    if roiFits then some { w with trk := { trk with log := trk.log ++ [.init] }, frame := some .initialized }
    else some { w with trk := { trk with state := .disabled }, frame := some .refused }
  | .initialized => some { w with trk := { w.trk with state := .trackerRunningFirst }, frame := none }
  | .refused => (w.trk.apply os).map fun (trk, _) => { w with trk, frame := none }
  | .trackerRunningFirst =>
    some { w with trk := { w.trk.currentInit with state := .trackerRunning }, frame := some .waiting }
  | .waiting =>
    match w.trk.spinlock with
    | .wait => none
    | .done => some { w with frame := some .cropping }
  | .cropping => some { w with trk := w.trk.cropAndPush, frame := none }

def stepClosure (w : Threads) (os : Os) : ClosurePhase → Threads
  | .started .grayscale =>
    let (camera, result) := w.trk.camera.setFrameFormat os (some .grayscale)
    { w with trk := { w.trk with camera }, closure := some (.switched result) }
  | .switched result =>
    { w with trk := { w.trk with state := if result = .ok then .trackerInit else .camConfFailed }, closure := none }
  | .started .update =>
    { w with trk := { w.trk with log := w.trk.log ++ [.update], spinlock := .done }, closure := some .updated }
  | .updated => { w with trk := w.trk.push .notify, closure := none }
  | .started .notify => { w with trk := { w.trk with log := w.trk.log ++ [.notify] }, closure := none }

def step (w : Threads) : Move → Option (Threads × List WriteResp)
  | .frame => if w.frame.isSome then none else some ({ w with frame := onFrame w.trk.state }, [])
  | .frameGoesOn roiFits os => w.frame.bind fun phase => (w.stepFrame roiFits os phase).map (·, [])
  | .task i =>
    if w.closure.isSome then none
    else (w.trk.queue[i]?).map fun task =>
      ({ w with trk := { w.trk with queue := w.trk.queue.eraseIdx i }, closure := some (.started task) }, [])
  | .taskGoesOn os => w.closure.map fun phase => (w.stepClosure os phase, [])
  | .writeInitialized initialized =>
    if initialized then some (w, [])
    else if w.trk.state ≠ .disabled then
      some ({ w with trk := { w.trk with state := .disabled }, stops := w.stops + 1 }, [])
    else some (w, [⟨.other, some "Ignoring tracking stop request, as it is already stopped"⟩])
  | .answerStop os =>
    if w.stops = 0 then none
    else (w.trk.apply os).map fun ((trk, success) : Tracking × Bool) =>
      ({ w with trk, stops := w.stops - 1 }, [⟨.ok, if success then none else some "Failed to restore camera state"⟩])
  | .writeRoi => some ({ w with trk := w.trk.setFieldValueRoi.1 }, w.trk.setFieldValueRoi.2)
  | .writeFrameSize frameSize os =>
    (w.trk.camera.setFrameSize os frameSize).map fun (camera, _) => ({ w with trk := { w.trk with camera } }, [])
  | .writeFrameFormat frameFormat os =>
    some ({ w with trk := { w.trk with camera := (w.trk.camera.setFrameFormat os frameFormat).1 } }, [])

def runAll (w : Threads) : List Move → Option (Threads × List WriteResp)
  | [] => some (w, [])
  | m :: ms => (w.step m).bind fun (w', resps) => (runAll w' ms).map fun (w'', resps') => (w'', resps ++ resps')

/-- What a move does. Answers and writes of the camera's fields leave all but the camera and the stops. -/
inductive Moved (w : Threads) : Move → Threads → Prop where
  | frame : w.frame = none → Moved w .frame { w with frame := onFrame w.trk.state }
  | frameGoesOn {roiFits : Bool} {os : Os × Os} {phase : FramePhase} {w' : Threads} :
      w.frame = some phase → w.stepFrame roiFits os phase = some w' → Moved w (.frameGoesOn roiFits os) w'
  | task {i : Nat} {task : Task} : w.closure = none → w.trk.queue[i]? = some task →
      Moved w (.task i) { w with trk := { w.trk with queue := w.trk.queue.eraseIdx i }, closure := some (.started task) }
  | taskGoesOn {os : Os} {phase : ClosurePhase} : w.closure = some phase → Moved w (.taskGoesOn os) (w.stepClosure os phase)
  | stop : w.trk.state ≠ .disabled →
      Moved w (.writeInitialized false) { w with trk := { w.trk with state := .disabled }, stops := w.stops + 1 }
  | writeRoi : Moved w .writeRoi { w with trk := w.trk.setFieldValueRoi.1 }
  | others {m : Move} (camera : Ov2640) (stops : Nat) : m ≠ .writeRoi → Moved w m { w with trk := { w.trk with camera }, stops }

theorem step_moved {w w' : Threads} {m : Move} {resps : List WriteResp} (h : w.step m = some (w', resps)) : w.Moved m w' := by
  cases m with
  | frame =>
    simp only [step] at h
    split at h
    · cases h
    · rename_i hframe
      obtain ⟨rfl, -⟩ := Prod.mk.inj (Option.some_inj.mp h)
      exact .frame (Option.not_isSome_iff_eq_none.mp hframe)
  | frameGoesOn roiFits os =>
    obtain ⟨phase, hphase, hgoes⟩ := Option.bind_eq_some_iff.mp h
    obtain ⟨w₁, hstep, heq⟩ := Option.map_eq_some_iff.mp hgoes
    obtain ⟨rfl, -⟩ := Prod.mk.inj heq
    exact .frameGoesOn hphase hstep
  | task i =>
    simp only [step] at h
    split at h
    · cases h
    · rename_i hclosure
      obtain ⟨task, hget, heq⟩ := Option.map_eq_some_iff.mp h
      obtain ⟨rfl, -⟩ := Prod.mk.inj heq
      exact .task (Option.not_isSome_iff_eq_none.mp hclosure) hget
  | taskGoesOn os =>
    obtain ⟨phase, hphase, heq⟩ := Option.map_eq_some_iff.mp h
    obtain ⟨rfl, -⟩ := Prod.mk.inj heq
    exact .taskGoesOn hphase
  | writeInitialized initialized =>
    cases initialized with
    | true =>
      obtain ⟨rfl, -⟩ := Prod.mk.inj (Option.some_inj.mp h)
      exact .others w.trk.camera w.stops (by decide)
    | false =>
      simp only [step, Bool.false_eq_true, if_false] at h
      split at h
      · rename_i hstate
        obtain ⟨rfl, -⟩ := Prod.mk.inj (Option.some_inj.mp h)
        exact .stop hstate
      · obtain ⟨rfl, -⟩ := Prod.mk.inj (Option.some_inj.mp h)
        exact .others w.trk.camera w.stops (by decide)
  | answerStop os =>
    simp only [step] at h
    split at h
    · cases h
    · obtain ⟨⟨trk, success⟩, happly, heq⟩ := Option.map_eq_some_iff.mp h
      obtain ⟨rfl, -⟩ := Prod.mk.inj heq
      obtain ⟨camera, rfl, -⟩ := Tracking.apply_cases happly
      exact .others camera _ fun hm => by cases hm
  | writeRoi =>
    obtain ⟨rfl, -⟩ := Prod.mk.inj (Option.some_inj.mp h)
    exact .writeRoi
  | writeFrameSize frameSize os =>
    obtain ⟨⟨camera, result⟩, -, heq⟩ := Option.map_eq_some_iff.mp h
    obtain ⟨rfl, -⟩ := Prod.mk.inj heq
    exact .others camera w.stops fun hm => by cases hm
  | writeFrameFormat frameFormat os =>
    obtain ⟨rfl, -⟩ := Prod.mk.inj (Option.some_inj.mp h)
    exact .others _ w.stops fun hm => by cases hm

/-! ## Callbacks that are not interrupted -/

/-- The tracker as `Trk.Tracking` has it: a frame that is held is one at the spinlock. -/
def ofTracking (t : Tracking) : Threads :=
  { trk := { t with held := false }, frame := if t.held then some .waiting else none }

section
variable {t t' : Tracking} {w w' w'' : Threads} {m : Move} {ms : List Move} {resps resps' : List WriteResp}

theorem ofTracking_of_not_held (h : t.held = false) : ofTracking t = { trk := t } := by
  obtain ⟨tracker, state, spinlock, snapshot, currentFrameSize, camera, queue, held, log⟩ := t
  obtain rfl : held = false := h
  rfl

theorem runAll_cons (h : w.step m = some (w', [])) (hrest : w'.runAll ms = some (w'', resps)) :
    w.runAll (m :: ms) = some (w'', resps) := by
  rw [runAll, h, Option.bind_some]
  dsimp only
  rw [hrest, Option.map_some]
  rfl

theorem runAll_single (h : w.step m = some (w', resps)) : w.runAll [m] = some (w', resps) := by
  rw [runAll, h, Option.bind_some]
  exact congrArg (fun resps => some (w', resps)) (List.append_nil resps)

/-- The moves lead to a tracker without a callback or a closure in progress. -/
theorem returns_of (hheld : t.held = false) (ms : List Move) (h : w.runAll ms = some ({ trk := t }, resps)) :
    ∃ ms, w.runAll ms = some (ofTracking t, resps) := by
  rw [ofTracking_of_not_held hheld]
  exact ⟨ms, h⟩

/-- Restoring the camera has nothing to do with the frames. -/
theorem apply_held (t : Tracking) (held : Bool) (os : Os × Os) : ({ t with held } : Tracking).apply os =
    (t.apply os).map fun (t', success) => ({ t' with held }, success) := by
  unfold Tracking.apply
  cases t.snapshot.pixformat with
  | none => rfl
  | some pixformat =>
    dsimp only
    rw [Option.map_map]
    rfl

theorem setFieldValueRoi_held (t : Tracking) (held : Bool) : ({ t with held } : Tracking).setFieldValueRoi =
    ({ t.setFieldValueRoi.1 with held }, t.setFieldValueRoi.2) := by
  unfold Tracking.setFieldValueRoi Tracking.snapshotInit
  cases t.snapshot.initialized <;> rfl

/-- A frame at the spinlock, which it finds taken or released. -/
theorem waiting_uninterrupted (hheld : t.held = false) :
    ∃ ms, runAll { trk := t, frame := some .waiting } ms = some (ofTracking t.onFrameTrackerRunning, []) := by
  obtain ⟨tracker, state, spinlock, snapshot, currentFrameSize, camera, queue, held, log⟩ := t
  obtain rfl : held = false := hheld
  cases spinlock with
  | wait => exact ⟨[], rfl⟩
  | done => exact ⟨[.frameGoesOn true ({}, {}), .frameGoesOn true ({}, {})], rfl⟩

theorem frame_uninterrupted {roiFits : Bool} {os : Os × Os} (hheld : t.held = false)
    (h : t.onFrame roiFits os = some t') : ∃ ms, runAll { trk := t } ms = some (ofTracking t', []) := by
  unfold Tracking.onFrame at h
  have henter : step { trk := t } .frame = some ({ trk := t, frame := onFrame t.state }, []) := rfl
  cases hstate : t.state <;> rw [hstate] at h henter <;> dsimp only at h
  case trackerInit =>
    unfold Tracking.onFrameTrackerInit at h
    cases roiFits with
    | true =>
      obtain rfl := Option.some_inj.mp h
      exact returns_of hheld [.frame, .frameGoesOn true os, .frameGoesOn true os] (runAll_cons henter rfl)
    | false =>
      obtain ⟨⟨trk, success⟩, happly, rfl⟩ := Option.map_eq_some_iff.mp h
      obtain ⟨camera, rfl, -⟩ := Tracking.apply_cases happly
      refine returns_of hheld [.frame, .frameGoesOn false os, .frameGoesOn false os]
        (runAll_cons henter (runAll_cons rfl (runAll_single ?_)))
      show ((Tracking.apply _ os).map _).map _ = _
      rw [happly]
      rfl
  case trackerRunningFirst =>
    obtain rfl := Option.some_inj.mp h
    obtain ⟨frameSize, hcurrent⟩ := t.currentInit_cases
    obtain ⟨ms, hms⟩ := waiting_uninterrupted (t := { t.currentInit with state := .trackerRunning })
      (by rw [hcurrent]; exact hheld)
    exact ⟨.frame :: .frameGoesOn roiFits os :: ms, runAll_cons henter (runAll_cons rfl hms)⟩
  case trackerRunning =>
    obtain rfl := Option.some_inj.mp h
    obtain ⟨ms, hms⟩ := waiting_uninterrupted hheld
    exact ⟨.frame :: ms, runAll_cons henter hms⟩
  case camConfStart =>
    obtain rfl := Option.some_inj.mp h
    have hkept : t.onFrameCamConfStart.held = false := by
      rw [Tracking.onFrameCamConfStart]
      rcases t.snapshotInit_cases with ⟨heq, -⟩ | ⟨-, -, heq⟩
      · rw [heq]
        exact hheld
      · rw [heq]
        exact hheld
    exact returns_of hkept [.frame, .frameGoesOn roiFits os] (runAll_cons henter rfl)
  case trackerInitFirst =>
    obtain rfl := Option.some_inj.mp h
    exact returns_of hheld [.frame, .frameGoesOn roiFits os] (runAll_cons henter rfl)
  all_goals
    obtain rfl := Option.some_inj.mp h
    exact returns_of hheld [.frame] (runAll_cons henter rfl)

/-- **Uninterrupted steps.** What a callback, a closure or a write does in one piece is what it does step by step with
    nothing in between, and so are its responses. -/
theorem step_uninterrupted {e : Event} (h : t.step e = some (t', resps)) :
    ∃ ms, (ofTracking t).runAll ms = some (ofTracking t', resps) := by
  cases e with
  | frame roiFits os =>
    simp only [Tracking.step] at h
    split at h
    · cases h
    · rename_i hheld
      rw [Bool.not_eq_true] at hheld
      obtain ⟨t₁, hframe, heq⟩ := Option.map_eq_some_iff.mp h
      obtain ⟨rfl, rfl⟩ := Prod.mk.inj heq
      rw [ofTracking_of_not_held hheld]
      exact frame_uninterrupted hheld hframe
  | resume =>
    simp only [Tracking.step] at h
    split at h
    · rename_i hready
      obtain ⟨hheld, hspin⟩ := hready
      obtain ⟨rfl, rfl⟩ := Prod.mk.inj (Option.some_inj.mp h)
      obtain ⟨tracker, state, spinlock, snapshot, currentFrameSize, camera, queue, held, log⟩ := t
      obtain rfl : held = true := hheld
      obtain rfl : spinlock = .done := hspin
      exact ⟨[.frameGoesOn true ({}, {}), .frameGoesOn true ({}, {})], rfl⟩
    · cases h
  | task i os =>
    obtain ⟨task, hget, heq⟩ := Option.map_eq_some_iff.mp h
    obtain ⟨rfl, rfl⟩ := Prod.mk.inj heq
    have htask : (ofTracking t).step (.task i) = some ({ ofTracking t with
        trk := { t with held := false, queue := t.queue.eraseIdx i }, closure := some (.started task) }, []) := by
      show Option.map _ t.queue[i]? = _
      rw [hget]
      rfl
    cases task with
    | grayscale => exact ⟨[.task i, .taskGoesOn os, .taskGoesOn os], runAll_cons htask rfl⟩
    | update => exact ⟨[.task i, .taskGoesOn os, .taskGoesOn os], runAll_cons htask rfl⟩
    | notify => exact ⟨[.task i, .taskGoesOn os], runAll_cons htask rfl⟩
  | writeInitialized initialized os =>
    cases initialized with
    | true =>
      obtain ⟨rfl, rfl⟩ := Prod.mk.inj (Option.some_inj.mp h)
      exact ⟨[], rfl⟩
    | false =>
      simp only [Tracking.step, Tracking.setFieldValueInitialized, Bool.false_eq_true, if_false] at h
      split at h
      · rename_i hstate
        obtain ⟨⟨trk, success⟩, happly, heq⟩ := Option.map_eq_some_iff.mp h
        obtain ⟨rfl, rfl⟩ := Prod.mk.inj heq
        have happly' : ({ t with state := .disabled, held := false } : Tracking).apply os =
            some ({ trk with held := false }, success) := by
          refine (apply_held { t with state := .disabled } false os).trans ?_
          rw [happly]
          rfl
        obtain ⟨camera, rfl, -⟩ := Tracking.apply_cases happly
        have hbegin : (ofTracking t).step (.writeInitialized false) =
            some ({ ofTracking t with trk := { t with state := .disabled, held := false }, stops := 1 }, []) := if_pos hstate
        refine ⟨[.writeInitialized false, .answerStop os], runAll_cons hbegin (runAll_single ?_)⟩
        show Option.map _ (Tracking.apply _ os) = _
        rw [happly']
        rfl
      · rename_i hstate
        obtain ⟨rfl, rfl⟩ := Prod.mk.inj (Option.some_inj.mp h)
        refine ⟨[.writeInitialized false], runAll_single ?_⟩
        exact if_neg hstate
  | writeRoi =>
    have hset : t.setFieldValueRoi = (t', resps) := Option.some_inj.mp h
    have hheld : t'.held = t.held := by
      have hsame := setFieldValueRoi_held t t.held
      rw [hset] at hsame
      exact congrArg (fun r => r.1.held) hsame
    refine ⟨[.writeRoi], runAll_single ?_⟩
    have hset' := setFieldValueRoi_held t false
    rw [hset] at hset'
    rw [step, ofTracking, hset', ofTracking, hheld]
  | writeFrameSize frameSize os =>
    obtain ⟨⟨camera, result⟩, hsize, heq⟩ := Option.map_eq_some_iff.mp h
    obtain ⟨rfl, rfl⟩ := Prod.mk.inj heq
    refine ⟨[.writeFrameSize frameSize os], runAll_single ?_⟩
    show Option.map _ (t.camera.setFrameSize os frameSize) = _
    rw [hsize]
    rfl
  | writeFrameFormat frameFormat os =>
    obtain ⟨rfl, rfl⟩ := Prod.mk.inj (Option.some_inj.mp h)
    exact ⟨[.writeFrameFormat frameFormat os], rfl⟩

end

end Threads

end Esp32Cam.Trk
