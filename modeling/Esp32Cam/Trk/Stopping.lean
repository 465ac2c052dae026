/-
  Esp32Cam.Trk.Stopping — a tracker that has been stopped.

  `stopped` holds from a write `Initialized = false` that is answered with Ok to the next
  write of `Roi`. `Quiet` is what is asked of every step in between: the tracker stays
  disabled, and is neither initialized nor updated, nor is an update reported.

  Neither the closures of earlier frames nor a frame's callback look at the state again
  before they write it. `stays_stopped_iff`: a stop lasts, whatever comes behind it,
  exactly when its answer finds the state as the stop has written it, none of the closures
  on the work queue or running, and no callback in progress that has still to write
  (`Idle`); a run of which every stop finds the tracker so is quiet throughout.
  `the_grayscale_task_starts_a_stopped_tracker` is the run of one frame and one closure.
-/

import Esp32Cam.Lib.PartialRun
import Esp32Cam.Trk.Threads

namespace Esp32Cam.Trk

open Esp32Cam.Cam Esp32Cam.Lib.PartialRun

/-- The tracker, and whether it has been stopped since the last write of `Roi`. -/
structure Watched where
  threads : Threads
  stopped : Bool := false
  deriving DecidableEq, Repr

namespace Watched

def answersStop : Move → List WriteResp → Bool
  | .answerStop _, resps => resps.any (·.result == .ok)
  | _, _ => false

def step (w : Watched) (m : Move) : Option Watched :=
  (w.threads.step m).map fun (threads, resps) => ⟨threads, (w.stopped || answersStop m resps) && m != .writeRoi⟩

def Stops (w : Watched) (m : Move) : Prop :=
  ∃ threads resps, w.threads.step m = some (threads, resps) ∧ answersStop m resps = true

/-- The tracker is disabled, and nothing is left that would change that. A callback that
    only restores the camera may still be in progress. -/
structure Idle (t : Threads) : Prop where
  state : t.trk.state = .disabled
  queue : t.trk.queue = []
  closure : t.closure = none
  frame : t.frame = none ∨ t.frame = some .refused

def Quiet (w : Watched) (_ : Move) (w' : Watched) : Prop :=
  w'.stopped = true →
    w'.threads.trk.state = .disabled ∧ (w.stopped = true → w'.threads.trk.log = w.threads.trk.log)

def init (camera : Ov2640) : Watched := { threads := { trk := { camera } } }

def runAll (w : Watched) (ms : List Move) : Option Watched := ms.foldlM step w

section
variable {w w' : Watched} {m : Move} {t t' : Threads} {resps : List WriteResp}

theorem step_cases (h : w.step m = some w') : ∃ resps, w.threads.step m = some (w'.threads, resps) ∧
    w'.stopped = ((w.stopped || answersStop m resps) && m != .writeRoi) := by
  obtain ⟨⟨threads, resps⟩, hstep, rfl⟩ := Option.map_eq_some_iff.mp h
  exact ⟨resps, hstep, rfl⟩

/-! ## A stop that lasts -/

/-- An idle tracker is left so by everything but a write of `Roi`. -/
theorem idle_step (hi : Idle t) (hm : m ≠ .writeRoi) (h : t.step m = some (t', resps)) :
    Idle t' ∧ t'.trk.log = t.trk.log := by
  obtain ⟨hstate, hqueue, hclosure, hframe⟩ := hi
  cases Threads.step_moved h with
  | frame _ =>
    refine ⟨⟨hstate, hqueue, hclosure, Or.inl ?_⟩, rfl⟩
    show Threads.onFrame t.trk.state = none
    rw [hstate]
    rfl
  | frameGoesOn hphase hstep =>
    rcases hframe with hframe | hframe
    · rw [hframe] at hphase
      cases hphase
    · -- what is left of the callback restores the camera
      rw [hframe] at hphase
      obtain rfl := Option.some_inj.mp hphase
      obtain ⟨⟨trk, success⟩, happly, rfl⟩ := Option.map_eq_some_iff.mp hstep
      obtain ⟨camera, rfl, -⟩ := Tracking.apply_cases happly
      exact ⟨⟨hstate, hqueue, hclosure, Or.inl rfl⟩, rfl⟩
  | task _ hget =>
    rw [hqueue] at hget
    cases hget
  | taskGoesOn hphase =>
    rw [hclosure] at hphase
    cases hphase
  | stop hne => exact absurd hstate hne
  | writeRoi => exact absurd rfl hm
  | others camera stops _ => exact ⟨⟨hstate, hqueue, hclosure, hframe⟩, rfl⟩

theorem ne_writeRoi_of_answersStop (h : answersStop m resps = true) : m ≠ .writeRoi := by
  rintro rfl
  cases h

/-- While it is stopped, the tracker is idle. -/
def Inv (w : Watched) : Prop := w.stopped = true → Idle w.threads

theorem init_inv (camera : Ov2640) : Inv (init camera) := by
  intro h
  cases h

theorem inv_step (hi : Inv w) (hidle : Stops w m → Idle w.threads) (h : w.step m = some w') : Inv w' ∧ Quiet w m w' := by
  obtain ⟨resps, hstep, hstopped⟩ := step_cases h
  have hkept : w'.stopped = true → Idle w'.threads ∧ w'.threads.trk.log = w.threads.trk.log := by
    intro hw'
    rw [hstopped, Bool.and_eq_true, Bool.or_eq_true, bne_iff_ne] at hw'
    obtain ⟨hwas, hm⟩ := hw'
    refine idle_step ?_ hm hstep
    rcases hwas with hwas | hstop
    · exact hi hwas
    · exact hidle ⟨_, _, hstep, hstop⟩
  exact ⟨fun hw' => (hkept hw').1, fun hw' => ⟨(hkept hw').1.state, fun _ => (hkept hw').2⟩⟩

theorem quiet_of_idle_stops (hi : Inv w) (ms : List Move)
    (h : Along step (fun w m _ => Stops w m → Idle w.threads) w ms) : Along step Quiet w ms := by
  induction ms generalizing w with
  | nil => trivial
  | cons m ms ih =>
    intro w' hw'
    obtain ⟨hidle, hrest⟩ := h w' hw'
    obtain ⟨hi', hquiet⟩ := inv_step hi hidle hw'
    exact ⟨hquiet, ih hi' hrest⟩

/-- Behind a stop of an idle tracker nothing happens before the next write of `Roi`. -/
theorem quiet_of_idle (hi : Idle w.threads) (ms : List Move) (hms : .writeRoi ∉ ms) : Along step Quiet w ms := by
  induction ms generalizing w with
  | nil => trivial
  | cons m ms ih =>
    intro w' hw'
    rw [List.mem_cons, not_or] at hms
    obtain ⟨hne, hms⟩ := hms
    obtain ⟨resps, hstep, -⟩ := step_cases hw'
    obtain ⟨hi', hlog⟩ := idle_step hi (Ne.symm hne) hstep
    exact ⟨fun _ => ⟨hi'.state, fun _ => hlog⟩, ih hi' hms⟩

/-! ## A stop that does not -/

/-- While the spinlock is taken, the update that releases it is queued or running. -/
def Locked (t : Threads) : Prop :=
  t.trk.spinlock = .wait → .update ∈ t.trk.queue ∨ t.closure = some (.started .update)

theorem init_locked (camera : Ov2640) : Locked (init camera).threads := by
  intro h
  cases h

theorem snapshotInit_kept (t : Tracking) :
    t.snapshotInit.1.spinlock = t.spinlock ∧ t.snapshotInit.1.queue = t.queue := by
  rcases t.snapshotInit_cases with ⟨heq, -⟩ | ⟨-, -, heq⟩
  · rw [heq]
    exact ⟨rfl, rfl⟩
  · rw [heq]
    exact ⟨rfl, rfl⟩

theorem stepFrame_locked {roiFits : Bool} {os : Os × Os} {phase : FramePhase} (hl : Locked t)
    (h : t.stepFrame roiFits os phase = some t') : Locked t' := by
  cases phase with
  | camConfStart =>
    obtain rfl := Option.some_inj.mp h
    obtain ⟨hspin, hqueue⟩ := snapshotInit_kept t.trk
    intro hw
    refine (hl (hspin.symm.trans hw)).imp_left fun hmem => ?_
    exact List.mem_append_left _ (hqueue.symm ▸ hmem)
  | trackerInit =>
    simp only [Threads.stepFrame] at h
    split at h
    · obtain rfl := Option.some_inj.mp h
      exact hl
    · obtain rfl := Option.some_inj.mp h
      exact hl
  | refused =>
    obtain ⟨⟨trk, success⟩, happly, rfl⟩ := Option.map_eq_some_iff.mp h
    obtain ⟨camera, rfl, -⟩ := Tracking.apply_cases happly
    exact hl
  | trackerRunningFirst =>
    obtain rfl := Option.some_inj.mp h
    obtain ⟨frameSize, hcurrent⟩ := t.trk.currentInit_cases
    rw [hcurrent]
    exact hl
  | waiting =>
    simp only [Threads.stepFrame] at h
    split at h
    · cases h
    · obtain rfl := Option.some_inj.mp h
      exact hl
  | cropping =>
    obtain rfl := Option.some_inj.mp h
    exact fun _ => Or.inl (List.mem_append_right _ (List.mem_singleton_self _))
  | trackerInitFirst | initialized =>
    obtain rfl := Option.some_inj.mp h
    exact hl

theorem stepClosure_locked {os : Os} {phase : ClosurePhase} (hl : Locked t) (hphase : t.closure = some phase) :
    Locked (t.stepClosure os phase) := by
  have hkept : phase ≠ .started .update → t.trk.spinlock = .wait → Task.update ∈ t.trk.queue := by
    intro hne hw
    refine (hl hw).resolve_right fun hclosure => hne ?_
    rw [hphase] at hclosure
    exact Option.some_inj.mp hclosure
  cases phase with
  | started task =>
    cases task with
    | grayscale => exact fun hw => Or.inl (hkept nofun hw)
    | update => exact nofun
    | notify => exact fun hw => Or.inl (hkept nofun hw)
  | switched result => exact fun hw => Or.inl (hkept nofun hw)
  | updated => exact fun hw => Or.inl (List.mem_append_left _ (hkept nofun hw))

theorem step_locked (hl : Locked t) (h : t.step m = some (t', resps)) : Locked t' := by
  cases Threads.step_moved h with
  | frame _ => exact hl
  | frameGoesOn _ hstep => exact stepFrame_locked hl hstep
  | task hclosure hget =>
    rename_i i task
    intro hw
    have hmem : Task.update ∈ t.trk.queue := (hl hw).resolve_right fun hsome => by
      rw [hclosure] at hsome
      cases hsome
    by_cases htask : task = .update
    · exact Or.inr (by rw [htask])
    · obtain ⟨j, hj⟩ := List.mem_iff_getElem?.mp hmem
      refine Or.inl (List.mem_eraseIdx_iff_getElem?.mpr ⟨j, fun hij => htask ?_, hj⟩)
      rw [hij, hget] at hj
      exact Option.some_inj.mp hj
  | taskGoesOn hphase => exact stepClosure_locked hl hphase
  | stop _ => exact hl
  | writeRoi =>
    obtain ⟨hspin, hqueue⟩ := snapshotInit_kept t.trk
    intro hw
    exact (hl (hspin.symm.trans hw)).imp_left fun hmem => hqueue.symm ▸ hmem
  | others camera stops _ => exact hl

theorem runAll_locked {ms : List Move} (hl : Locked w.threads) (h : w.runAll ms = some w') : Locked w'.threads := by
  induction ms generalizing w with
  | nil =>
    obtain rfl := Option.some_inj.mp h
    exact hl
  | cons m ms ih =>
    rw [runAll, List.foldlM_cons] at h
    obtain ⟨w₁, hstep, hrest⟩ := Option.bind_eq_some_iff.mp h
    obtain ⟨resps, hthreads, -⟩ := step_cases hstep
    exact ih (step_locked hl hthreads) hrest

/-- A stopped tracker is quiet, whatever comes before the next write of `Roi`. -/
def Lasting (t : Threads) : Prop := ∀ ms, .writeRoi ∉ ms → Along step Quiet ⟨t, true⟩ ms

theorem Lasting.step (hq : Lasting t) (h : t.step m = some (t', resps)) (hm : m ≠ .writeRoi) :
    t'.trk.state = .disabled ∧ t'.trk.log = t.trk.log ∧ Lasting t' := by
  have hstep : Watched.step ⟨t, true⟩ m = some ⟨t', true⟩ := by
    have hne : (m != .writeRoi) = true := bne_iff_ne.mpr hm
    simp only [Watched.step, h, Option.map_some, Bool.true_or, hne, Bool.and_self]
  have hquiet : Quiet ⟨t, true⟩ m ⟨t', true⟩ := (hq [m] (by simpa using hm.symm) _ hstep).1
  refine ⟨(hquiet rfl).1, (hquiet rfl).2 rfl, fun ms hms => ?_⟩
  have hcons : .writeRoi ∉ m :: ms := by
    rw [List.mem_cons, not_or]
    exact ⟨hm.symm, hms⟩
  exact (hq _ hcons _ hstep).2

/-- A closure that is running goes on. -/
theorem taskGoesOn_eq {phase : ClosurePhase} (h : t.closure = some phase) :
    t.step (.taskGoesOn {}) = some (t.stepClosure {} phase, []) := by
  rw [Threads.step, h, Option.map_some]

theorem Lasting.not_switched (hq : Lasting t) (result : RequestResult) : t.closure ≠ some (.switched result) := by
  intro h
  obtain ⟨hstate, -, -⟩ := hq.step (taskGoesOn_eq h) (by decide)
  simp only [Threads.stepClosure] at hstate
  split at hstate <;> cases hstate

theorem Lasting.not_started (hq : Lasting t) (task : Task) : t.closure ≠ some (.started task) := by
  intro h
  obtain ⟨-, hlog, hq'⟩ := hq.step (taskGoesOn_eq h) (by decide)
  cases task with
  | grayscale => exact hq'.not_switched _ rfl
  | update => exact absurd hlog (by simp [Threads.stepClosure])
  | notify => exact absurd hlog (by simp [Threads.stepClosure])

/-- Whatever task is left, it is started. -/
theorem Lasting.queue_nil (hq : Lasting t) (hclosure : t.closure = none) : t.trk.queue = [] := by
  cases hqueue : t.trk.queue with
  | nil => rfl
  | cons task tasks =>
    have hstep : t.step (.task 0) =
        some ({ t with trk := { t.trk with queue := t.trk.queue.eraseIdx 0 }, closure := some (.started task) }, []) := by
      rw [Threads.step, hclosure, Option.isSome_none, if_neg Bool.false_ne_true, hqueue, List.getElem?_cons_zero,
        Option.map_some]
    obtain ⟨-, -, hq'⟩ := hq.step hstep (by decide)
    exact absurd rfl (hq'.not_started task)

theorem Lasting.closure_none (hq : Lasting t) : t.closure = none := by
  cases h : t.closure with
  | none => rfl
  | some phase =>
    cases phase with
    | started task => exact absurd h (hq.not_started task)
    | switched result => exact absurd h (hq.not_switched result)
    | updated =>
      -- the notification is pushed
      obtain ⟨-, -, hq'⟩ := hq.step (taskGoesOn_eq h) (by decide)
      exact absurd (hq'.queue_nil rfl) (List.append_ne_nil_of_right_ne_nil _ (List.cons_ne_nil _ _))

/-- A callback that is in progress goes on. -/
theorem frameGoesOn_eq {phase : FramePhase} (h : t.frame = some phase)
    (hstep : t.stepFrame true ({}, {}) phase = some t') : t.step (.frameGoesOn true ({}, {})) = some (t', []) := by
  rw [Threads.step, h, Option.bind_some, hstep, Option.map_some]

theorem Lasting.not_cropping (hq : Lasting t) : t.frame ≠ some .cropping := by
  intro h
  obtain ⟨-, -, hq'⟩ := hq.step (frameGoesOn_eq h rfl) (by decide)
  exact absurd (hq'.queue_nil hq.closure_none) (List.append_ne_nil_of_right_ne_nil _ (List.cons_ne_nil _ _))

/-- Whatever a callback has still to do, but restore the camera, a stopped tracker must not do. -/
theorem Lasting.frame_idle (hq : Lasting t) (hl : Locked t) : t.frame = none ∨ t.frame = some .refused := by
  have hclosure := hq.closure_none
  have hqueue := hq.queue_nil hclosure
  cases h : t.frame with
  | none => exact Or.inl rfl
  | some phase =>
    cases phase with
    | camConfStart =>
      obtain ⟨-, -, hq'⟩ := hq.step (frameGoesOn_eq h rfl) (by decide)
      exact absurd (hq'.queue_nil hclosure) (List.append_ne_nil_of_right_ne_nil _ (List.cons_ne_nil _ _))
    | trackerInitFirst =>
      obtain ⟨hstate, -, -⟩ := hq.step (frameGoesOn_eq h rfl) (by decide)
      cases hstate
    | trackerInit =>
      obtain ⟨-, hlog, -⟩ := hq.step (frameGoesOn_eq h rfl) (by decide)
      exact absurd hlog (by simp)
    | initialized =>
      obtain ⟨hstate, -, -⟩ := hq.step (frameGoesOn_eq h rfl) (by decide)
      cases hstate
    | refused => exact Or.inr rfl
    | trackerRunningFirst =>
      obtain ⟨hstate, -, -⟩ := hq.step (frameGoesOn_eq h rfl) (by decide)
      cases hstate
    | waiting =>
      have hdone : t.trk.spinlock = .done := by
        cases hspin : t.trk.spinlock with
        | done => rfl
        | wait =>
          have hupdate := hl hspin
          rw [hqueue, hclosure] at hupdate
          rcases hupdate with hmem | hrunning
          · cases hmem
          · cases hrunning
      have hstep : t.stepFrame true ({}, {}) .waiting = some { t with frame := some .cropping } := by
        rw [Threads.stepFrame, hdone]
      obtain ⟨-, -, hq'⟩ := hq.step (frameGoesOn_eq h hstep) (by decide)
      exact absurd rfl hq'.not_cropping
    | cropping => exact absurd h hq.not_cropping

/-- An answer leaves the threads as they are, and the tracker but for the camera. -/
theorem stop_cases (h : t.step m = some (t', resps)) (hstop : answersStop m resps = true) :
    ∃ camera, t' = { t with trk := { t.trk with camera }, stops := t'.stops } := by
  unfold answersStop at hstop
  split at hstop
  · simp only [Threads.step] at h
    split at h
    · cases h
    · obtain ⟨⟨trk, success⟩, happly, heq⟩ := Option.map_eq_some_iff.mp h
      obtain ⟨rfl, -⟩ := Prod.mk.inj heq
      obtain ⟨camera, rfl, -⟩ := Tracking.apply_cases happly
      exact ⟨camera, rfl⟩
  · cases hstop

end

/-! ## Stopped tracking -/

/-- **Stopped tracking.** For every run up to an answer to a stop: with the answer, and
    whatever comes behind it, nothing happens before the next write of `Roi`, exactly when
    the answer finds the tracker idle. In a run whose stops all do, none of them is undone. -/
theorem stays_stopped_iff (camera : Ov2640) :
    (∀ ms w m, (init camera).runAll ms = some w → Stops w m →
      ((∀ fs, .writeRoi ∉ fs → Along step Quiet w (m :: fs)) ↔ Idle w.threads)) ∧
    ∀ ms, Along step (fun w m _ => Stops w m → Idle w.threads) (init camera) ms → Along step Quiet (init camera) ms := by
  refine ⟨fun ms w m hrun hstops => ?_, fun ms => quiet_of_idle_stops (init_inv camera) ms⟩
  obtain ⟨t', resps, hstep, hanswer⟩ := hstops
  have hm : m ≠ .writeRoi := ne_writeRoi_of_answersStop hanswer
  constructor
  · intro h
    have hstopped : w.step m = some ⟨t', true⟩ := by
      have hne : (m != .writeRoi) = true := bne_iff_ne.mpr hm
      simp only [step, hstep, Option.map_some, hanswer, Bool.or_true, hne, Bool.and_self]
    have hlocked : Locked t' := step_locked (runAll_locked (init_locked camera) hrun) hstep
    have hlasting : Lasting t' := fun fs hfs => (h fs hfs _ hstopped).2
    have hstate : t'.trk.state = .disabled := ((h [] (by decide) _ hstopped).1 rfl).1
    have hclosure := hlasting.closure_none
    have hqueue := hlasting.queue_nil hclosure
    have hframe := hlasting.frame_idle hlocked
    obtain ⟨camera', hkept⟩ := stop_cases hstep hanswer
    rw [hkept] at hstate hqueue hclosure hframe
    exact ⟨hstate, hqueue, hclosure, hframe⟩
  · intro hidle fs hfs
    refine quiet_of_idle hidle _ ?_
    rw [List.mem_cons, not_or]
    exact ⟨hm.symm, hfs⟩

def vga : Ov2640 := Ov2640.init { stored := some 8 } {}

theorem a_stop_before_the_first_frame_lasts :
    ∀ fs, .writeRoi ∉ fs →
      Along step Quiet
        ⟨{ trk := { camera := vga, snapshot := ⟨some .jpeg, (640, 480), true⟩ }, stops := 1 }, false⟩
        (.answerStop ({}, {}) :: fs) :=
  ((stays_stopped_iff vga).1 [.writeRoi, .writeInitialized false] _ (.answerStop ({}, {})) rfl ⟨_, _, rfl, rfl⟩).mpr
    ⟨rfl, rfl, rfl, Or.inl rfl⟩

/-- The tracker is started, gets one frame, and is stopped: the closure of the frame starts it again. -/
theorem the_grayscale_task_starts_a_stopped_tracker :
    ¬ Along step Quiet (init vga)
      [.writeRoi, .frame, .frameGoesOn true ({}, {}), .writeInitialized false, .answerStop ({}, {}),
        .task 0, .taskGoesOn {}, .taskGoesOn {}] := by
  intro h
  obtain ⟨-, h⟩ := h _ rfl
  obtain ⟨-, h⟩ := h _ rfl
  obtain ⟨-, h⟩ := h _ rfl
  obtain ⟨-, h⟩ := h _ rfl
  obtain ⟨-, h⟩ := h _ rfl
  obtain ⟨-, h⟩ := h _ rfl
  obtain ⟨-, h⟩ := h _ rfl
  obtain ⟨hquiet, -⟩ := h _ rfl
  exact absurd (hquiet (by decide)).1 (by decide)

end Watched

end Esp32Cam.Trk
