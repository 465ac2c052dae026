/-
  Esp32Cam.Trk.Restoring — the camera behind a tracking session.

  A session begins with a write of `Roi` while none is going on, and ends with a stop or
  with a frame the rectangle does not fit. `Recorded` keeps what the camera's configuration
  was right before it began, and whether all writes to the camera since have been accepted.

  What is restored is the snapshot, and the snapshot is taken once (`snapshot_kept`): by
  the first session. `restored_iff`: a session that ends with all writes accepted leaves
  the camera as it found it exactly when it found it as the snapshot has it; it does when
  it begins like that, or takes the snapshot itself. `the_second_session_restores_the_first`
  has the frame size changed in between.
-/

import Esp32Cam.Lib.PartialRun
import Esp32Cam.Trk.Tracking

namespace Esp32Cam.Trk

open Esp32Cam.Cam Esp32Cam.Lib.PartialRun

structure Session where
  before : Config
  writesOk : Bool := true
  deriving DecidableEq, Repr

structure Recorded where
  trk : Tracking
  session : Option Session := none
  deriving DecidableEq, Repr

namespace Recorded

/-- The result of restoring the camera, where the event ends a session. -/
def applied (t : Tracking) : Event → Option Bool
  | .frame false os => if t.held = false ∧ t.state = .trackerInit then (t.apply os).map Prod.snd else none
  | .writeInitialized false os => if t.state ≠ .disabled then (t.apply os).map Prod.snd else none
  | _ => none

def refused (t : Tracking) : Event → Bool
  | .task i os => t.queue[i]? = some .grayscale && (t.camera.setFrameFormat os (some .grayscale)).2 != .ok
  | _ => false

def record (t : Tracking) (session : Option Session) (e : Event) : Option Session :=
  match e with
  | .writeRoi => session.or (some { before := t.camera.config })
  | e =>
    if (applied t e).isSome then none
    else session.map fun s => { s with writesOk := s.writesOk && !refused t e }

def step (r : Recorded) (e : Event) : Option Recorded :=
  (r.trk.step e).map fun (trk, _) => ⟨trk, record r.trk r.session e⟩

def init (camera : Ov2640) : Recorded := { trk := { camera } }

def Ends (r : Recorded) (e : Event) (s : Session) : Prop :=
  r.session = some s ∧ s.writesOk = true ∧ applied r.trk e = some true

def Restored (r : Recorded) (e : Event) (r' : Recorded) : Prop := ∀ s, r.Ends e s → r'.trk.camera.config = s.before

/-- The snapshot is of this configuration. -/
def Snapshot.Of (s : Snapshot) (c : Config) : Prop := s.pixformat = some c.1 ∧ s.frameSize = c.2

/-- A session begins with the configuration the snapshot is of, or takes the snapshot. -/
def StartsAlike (r : Recorded) (e : Event) : Prop :=
  e = .writeRoi → r.session = none →
    if r.trk.snapshot.initialized then Snapshot.Of r.trk.snapshot r.trk.camera.config else r.trk.camera.initialized = true

section
variable {r r' : Recorded} {e : Event} {t t' : Tracking} {resps : List WriteResp}

theorem step_cases (h : r.step e = some r') :
    ∃ resps, r.trk.step e = some (r'.trk, resps) ∧ r'.session = record r.trk r.session e := by
  obtain ⟨⟨trk, resps⟩, hstep, rfl⟩ := Option.map_eq_some_iff.mp h
  exact ⟨resps, hstep, rfl⟩

/-! ## What is restored -/

/-- Restoring writes the snapshot, whatever the rest of the tracker's state. -/
theorem apply_config {t₀ : Tracking} {os : Os × Os} {success : Bool} (h : t₀.apply os = some (t', success))
    (hsnapshot : t₀.snapshot = t.snapshot) (hcamera : t₀.camera = t.camera)
    (hresult : (t.apply os).map Prod.snd = some true) : Snapshot.Of t.snapshot t'.camera.config := by
  have hsame : (t₀.apply os).map Prod.snd = (t.apply os).map Prod.snd := by
    unfold Tracking.apply
    rw [hsnapshot, hcamera]
    cases t.snapshot.pixformat with
    | none => rfl
    | some pixformat =>
      dsimp only
      rw [Option.map_map, Option.map_map]
      rfl
  rw [h, hresult] at hsame
  obtain rfl : success = true := Option.some_inj.mp hsame
  obtain ⟨camera, rfl, hok⟩ := Tracking.apply_cases h
  obtain ⟨hconfig, hpixformat⟩ := hok rfl
  rw [← hsnapshot]
  exact ⟨hpixformat, (congrArg Prod.snd hconfig).symm⟩

theorem applied_config (h : t.step e = some (t', resps)) (happlied : applied t e = some true) :
    Snapshot.Of t.snapshot t'.camera.config := by
  unfold applied at happlied
  split at happlied
  · rename_i os
    split at happlied
    · rename_i hrejects
      obtain ⟨hheld, hstate⟩ := hrejects
      simp only [Tracking.step, hheld, Bool.false_eq_true, if_false, Tracking.onFrame, hstate,
        Tracking.onFrameTrackerInit] at h
      obtain ⟨t₁, hframe, heq⟩ := Option.map_eq_some_iff.mp h
      obtain ⟨rfl, -⟩ := Prod.mk.inj heq
      obtain ⟨⟨t₂, success⟩, happly, rfl⟩ := Option.map_eq_some_iff.mp hframe
      show Snapshot.Of t.snapshot t₂.camera.config
      exact apply_config happly rfl rfl happlied
    · cases happlied
  · rename_i os
    split at happlied
    · rename_i hstate
      simp only [Tracking.step, Tracking.setFieldValueInitialized, Bool.false_eq_true, if_false, if_pos hstate] at h
      obtain ⟨⟨t₁, success⟩, happly, heq⟩ := Option.map_eq_some_iff.mp h
      obtain ⟨rfl, -⟩ := Prod.mk.inj heq
      exact apply_config happly rfl rfl happlied
    · cases happlied
  · cases happlied

theorem of_unique {s : Snapshot} {c d : Config} (hc : Snapshot.Of s c) (hd : Snapshot.Of s d) : c = d :=
  Prod.ext (Option.some_inj.mp (hc.1.symm.trans hd.1)) (hc.2.symm.trans hd.2)

theorem restored_step_iff (h : r.step e = some r') :
    Restored r e r' ↔ ∀ s, r.Ends e s → Snapshot.Of r.trk.snapshot s.before := by
  obtain ⟨resps, hstep, -⟩ := step_cases h
  constructor
  · intro hrestored s hends
    rw [← hrestored s hends]
    exact applied_config hstep hends.2.2
  · intro hof s hends
    exact of_unique (applied_config hstep hends.2.2) (hof s hends)

/-! ## The snapshot -/

theorem snapshotInit_kept (h : t.snapshot.initialized = true) : t.snapshotInit.1 = t := by
  rcases t.snapshotInit_cases with ⟨heq, -⟩ | ⟨hnot, -⟩
  · rw [heq]
  · rw [h] at hnot
    cases hnot

theorem onFrameTrackerRunning_snapshot (t : Tracking) : t.onFrameTrackerRunning.snapshot = t.snapshot := by
  unfold Tracking.onFrameTrackerRunning
  split <;> rfl

theorem onFrame_snapshot {roiFits : Bool} {os : Os × Os} (hs : t.snapshot.initialized = true)
    (h : t.onFrame roiFits os = some t') : t'.snapshot = t.snapshot := by
  unfold Tracking.onFrame at h
  cases hstate : t.state <;> rw [hstate] at h <;> dsimp only at h
  case camConfStart =>
    obtain rfl := Option.some_inj.mp h
    rw [Tracking.onFrameCamConfStart, snapshotInit_kept hs]
    rfl
  case trackerInit =>
    unfold Tracking.onFrameTrackerInit at h
    split at h
    · obtain rfl := Option.some_inj.mp h
      rfl
    · obtain ⟨⟨t₁, success⟩, happly, rfl⟩ := Option.map_eq_some_iff.mp h
      obtain ⟨camera, rfl, -⟩ := Tracking.apply_cases happly
      rfl
  case trackerRunningFirst =>
    obtain rfl := Option.some_inj.mp h
    obtain ⟨frameSize, hcurrent⟩ := t.currentInit_cases
    rw [onFrameTrackerRunning_snapshot, hcurrent]
  case trackerRunning =>
    obtain rfl := Option.some_inj.mp h
    exact onFrameTrackerRunning_snapshot t
  all_goals
    obtain rfl := Option.some_inj.mp h
    rfl

/-- The snapshot is taken once. -/
theorem snapshot_kept (hs : t.snapshot.initialized = true) (h : t.step e = some (t', resps)) :
    t'.snapshot = t.snapshot := by
  cases e with
  | frame roiFits os =>
    simp only [Tracking.step] at h
    split at h
    · cases h
    · obtain ⟨t₁, hframe, heq⟩ := Option.map_eq_some_iff.mp h
      obtain ⟨rfl, -⟩ := Prod.mk.inj heq
      exact onFrame_snapshot hs hframe
  | resume =>
    simp only [Tracking.step] at h
    split at h
    · obtain ⟨rfl, -⟩ := Prod.mk.inj (Option.some_inj.mp h)
      rfl
    · cases h
  | task i os =>
    obtain ⟨task, -, heq⟩ := Option.map_eq_some_iff.mp h
    obtain ⟨rfl, -⟩ := Prod.mk.inj heq
    cases task <;> rfl
  | writeInitialized initialized os =>
    simp only [Tracking.step, Tracking.setFieldValueInitialized] at h
    split at h
    · obtain ⟨rfl, -⟩ := Prod.mk.inj (Option.some_inj.mp h)
      rfl
    · split at h
      · obtain ⟨⟨t₁, success⟩, happly, heq⟩ := Option.map_eq_some_iff.mp h
        obtain ⟨rfl, -⟩ := Prod.mk.inj heq
        obtain ⟨camera, rfl, -⟩ := Tracking.apply_cases happly
        rfl
      · obtain ⟨rfl, -⟩ := Prod.mk.inj (Option.some_inj.mp h)
        rfl
  | writeRoi =>
    obtain ⟨state, rfl⟩ := Tracking.writeRoi_cases h
    rw [snapshotInit_kept hs]
  | writeFrameSize frameSize os =>
    obtain ⟨⟨camera, result⟩, -, heq⟩ := Option.map_eq_some_iff.mp h
    obtain ⟨rfl, -⟩ := Prod.mk.inj heq
    rfl
  | writeFrameFormat frameFormat os =>
    obtain ⟨rfl, -⟩ := Prod.mk.inj (Option.some_inj.mp h)
    rfl

/-- The snapshot is of the configuration before the session. -/
def Inv (r : Recorded) : Prop :=
  ∀ s, r.session = some s → r.trk.snapshot.initialized = true ∧ Snapshot.Of r.trk.snapshot s.before

theorem inv_step (hi : Inv r) (hstart : StartsAlike r e) (h : r.step e = some r') : Inv r' := by
  obtain ⟨resps, hstep, hsession⟩ := step_cases h
  intro s hs
  rw [hsession] at hs
  by_cases he : e = .writeRoi
  · subst he
    cases hbefore : r.session with
    | some s₀ =>
      rw [record, hbefore] at hs
      obtain rfl := Option.some_inj.mp hs
      obtain ⟨hinit, hof⟩ := hi _ hbefore
      rw [snapshot_kept hinit hstep]
      exact ⟨hinit, hof⟩
    | none =>
      rw [record, hbefore] at hs
      obtain rfl := Option.some_inj.mp hs
      have halike := hstart rfl hbefore
      split at halike
      · rename_i hinit
        rw [snapshot_kept hinit hstep]
        exact ⟨hinit, halike⟩
      · rename_i hinit
        obtain ⟨state, hroi⟩ := Tracking.writeRoi_cases hstep
        rw [hroi]
        rcases r.trk.snapshotInit_cases with ⟨-, hcontra⟩ | ⟨-, -, heq⟩
        · rcases hcontra with hcontra | hcontra
          · exact absurd hcontra hinit
          · rw [halike] at hcontra
            cases hcontra
        · rw [heq]
          exact ⟨rfl, rfl, rfl⟩
  · have hold : ∃ s₀, r.session = some s₀ ∧ s.before = s₀.before := by
      unfold record at hs
      split at hs
      · exact absurd rfl he
      · split at hs
        · cases hs
        · obtain ⟨s₀, hs₀, rfl⟩ := Option.map_eq_some_iff.mp hs
          exact ⟨s₀, hs₀, rfl⟩
    obtain ⟨s₀, hs₀, hsame⟩ := hold
    obtain ⟨hinit, hof⟩ := hi s₀ hs₀
    rw [snapshot_kept hinit hstep, hsame]
    exact ⟨hinit, hof⟩

theorem restored_of_starts (hi : Inv r) (es : List Event) (h : Along step (fun r e _ => StartsAlike r e) r es) :
    Along step Restored r es := by
  induction es generalizing r with
  | nil => trivial
  | cons e es ih =>
    intro r' hr'
    obtain ⟨hstart, hrest⟩ := h r' hr'
    exact ⟨(restored_step_iff hr').mpr fun s hends => (hi s hends.1).2, ih (inv_step hi hstart hr') hrest⟩

end

/-! ## Restored configurations -/

/-- **Camera configuration.** For every run: each session that ends with all writes to the
    camera accepted leaves the configuration it has found exactly when the snapshot is of
    that configuration; and it is where every session begins with the configuration the
    snapshot is of, or takes it of an initialized camera. -/
theorem restored_iff (camera : Ov2640) (es : List Event) :
    (Along step Restored (init camera) es ↔
      Along step (fun r e _ => ∀ s, r.Ends e s → Snapshot.Of r.trk.snapshot s.before) (init camera) es) ∧
    (Along step (fun r e _ => StartsAlike r e) (init camera) es → Along step Restored (init camera) es) := by
  refine ⟨?_, restored_of_starts (fun s hs => ?_) es⟩
  · exact along_iff_along (I := fun _ => True) (fun _ _ _ _ _ _ => trivial) (fun r e r' hr' _ => restored_step_iff hr')
      trivial
  · cases hs

theorem the_first_session_is_restored :
    Along step Restored (init (Ov2640.init { stored := some 8 } {})) [.writeRoi, .writeInitialized false ({}, {})] := by
  refine (restored_iff _ _).2 fun r _ => ⟨fun _ _ => ?_, fun r' _ => ⟨nofun, trivial⟩⟩
  rw [if_neg (by decide)]
  rfl

/-- The second of two sessions restores the frame size from before the first. -/
theorem the_second_session_restores_the_first :
    ¬ Along step Restored (init (Ov2640.init { stored := some 8 } {}))
      [.writeRoi, .writeInitialized false ({}, {}), .writeFrameSize (320, 240) {}, .writeRoi,
        .writeInitialized false ({}, {})] := by
  intro h
  obtain ⟨-, h⟩ := h _ rfl
  obtain ⟨-, h⟩ := h _ rfl
  obtain ⟨-, h⟩ := h _ rfl
  obtain ⟨-, h⟩ := h _ rfl
  obtain ⟨hrestored, -⟩ := h _ rfl
  exact absurd (hrestored ⟨(.jpeg, (320, 240)), true⟩ ⟨by decide, rfl, by decide⟩) (by decide)

end Recorded

end Esp32Cam.Trk
