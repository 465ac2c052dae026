/-
  Esp32Cam.Mav.CameraHistory — what becomes of a sequence of commands to make a shot.

  What is expected of them:
  - a command that repeats one that is still in the history (its confirmation is not
    zero) makes no shot, and is answered with the recorded result (`Repeats`);
  - the number of captures the camera reports is the number of shots made (`Counted`);
  - the history has the last four distinct requests, each once (`Kept`).

  As the code has it a known request is shot again (`shouldCapture`), the number goes up
  by one for a shot and by the number of the result for a command, and a request that is
  shot is put into the history by `processMakeShot` and by its caller. The history is a list
  here, which the ring of the code stands for (`push_represents`).

  - `retransmissions_iff`, `count_iff`, `history_iff`: what each of the three takes.
  - `idempotent_and_accounted_iff`: the number is right behind a command exactly if the
    shot has been made, and the history exactly if it has not, so that no command leaves
    both right.
-/

import Esp32Cam.Lib.Recent
import Esp32Cam.Lib.Run
import Esp32Cam.Mav.Camera
import Esp32Cam.Ut.CircularBuffer

namespace Esp32Cam.Mav.Camera

open Esp32Cam.Lib
open Esp32Cam.Ut (CircularBuffer)

variable {F : Type} [SinglePrecision F]

/-- A message with the command to make a shot, and what the recorder answers. -/
structure Shot (F : Type) [SinglePrecision F] where
  env : Env
  uninitialized : UInt8
  message : Message F
  command : CommandLong F
  decodes : message.body.command uninitialized = some command
  shoots : command.command = MavCmd.imageStartCapture

namespace Shot

def sequence (s : Shot F) : Nat := SinglePrecision.toUnsigned s.command.param4

def totalImages (s : Shot F) : Nat := SinglePrecision.toUnsigned s.command.param3

def process (s : Shot F) (h : History) : History × Turn F × Microservice.Ret :=
  Camera.process h s.env s.uninitialized s.message

end Shot

/-- How often the recorder is told to make a shot. -/
def recFrameStarts (t : Turn F) : Nat :=
  t.commands.countP fun
    | .recFrameStart _ => true
    | _ => false

def acknowledged (t : Turn F) : Option MavResult :=
  t.responses.findSome? fun m =>
    match m.body with
    | .commandAck ack => some ack.result
    | _ => none

def reportedCount (h : History) (env : Env) (m : Message F) (c : CommandLong F) : Option Int :=
  match (processRequestMessageCameraCaptureStatus h env { message := m } c).1.message.body with
  | .cameraCaptureStatus status => some status.imageCount
  | _ => none

/-- The history, with the requests and the shots made beside it. -/
structure Accounted where
  history : History := {}
  requests : List Nat := []
  captures : Nat := 0

def capture (a : Accounted) (s : Shot F) : Accounted :=
  let (history, t, _) := s.process a.history
  { history, requests := a.requests ++ [s.sequence],
    captures := a.captures + if s.env.recFrame = some true then recFrameStarts t else 0 }

def Repeats (a : Accounted) (s : Shot F) : Prop :=
  ∀ prev, s.command.confirmation ≠ 0 → a.history.findBySequence s.sequence = some prev →
    recFrameStarts (s.process a.history).2.1 = 0 ∧ acknowledged (s.process a.history).2.1 = some prev.result

def Counted (F : Type) (a : Accounted) : Prop :=
  ∀ env (m : Message F) c, reportedCount a.history env m c = some (a.captures : Int)

def History.sequences (h : History) : List Nat := h.imageCaptureSequence.map (·.sequence)

def Kept (a : Accounted) : Prop := a.history.sequences.Perm (recent kHistoryCapacity a.requests)

structure IdempotentAndAccounted (es : List (Shot F)) : Prop where
  repeats : Along capture Repeats {} es
  counted : Always capture (Counted F) {} es
  kept : Always capture Kept {} es

/-! ## What a command does -/

/-- Whether a shot is to be made, for a request or for one that is known. -/
def shouldCapture (h : History) (s : Shot F) : Bool :=
  s.totalImages == 1 && ((h.findBySequence s.sequence).isSome || s.command.confirmation == 0)

def shotResult (env : Env) : MavResult :=
  match env.recFrame with
  | some started => if started then .accepted else .failed
  | none => .denied

def result (h : History) (s : Shot F) : MavResult :=
  if s.totalImages = 1 then if shouldCapture h s then shotResult s.env else .denied else .unsupported

def recorded (h : History) (s : Shot F) : ImageCapture := ⟨s.sequence, s.totalImages, result h s, []⟩

section
variable {h : History} {a : Accounted} {s : Shot F}

theorem process_eq : s.process h = processCmdImageStartCapture h s.env { message := s.message } s.command := by
  unfold Shot.process Camera.process
  rw [s.decodes]
  simp only [processCommandLong, s.shoots, MavCmd.imageStartCapture, MavCmd.requestMessage]
  rfl

theorem processMakeShot_eq (t : Turn F) : processMakeShot h s.env t s.command =
    (if shouldCapture h s then
      { h with imageCaptureCount := h.imageCaptureCount + 1 }.push (recorded h s) else h,
     if shouldCapture h s && s.env.recFrame.isSome then
      (t.carryOut .sdFatInit).carryOut (.recFrameStart (fileName s.env)) else t.carryOut .sdFatInit,
     recorded h s) := by
  unfold processMakeShot recorded result shouldCapture shotResult Shot.totalImages Shot.sequence
  dsimp only
  by_cases htotal : (SinglePrecision.toUnsigned s.command.param3 : Nat) = 1
  · rw [htotal]
    cases hknown : (h.findBySequence (SinglePrecision.toUnsigned s.command.param4)).isSome ||
        s.command.confirmation == 0 with
    | false => simp
    | true =>
      cases s.env.recFrame with
      | none => simp
      | some started => simp
  · simp [htotal]

def shot (h : History) (s : Shot F) : History :=
  if shouldCapture h s then { h with imageCaptureCount := h.imageCaptureCount + 1 }.push (recorded h s) else h

theorem history_eq : (s.process h).1 =
    { (shot h s).push (recorded h s) with imageCaptureCount := (shot h s).imageCaptureCount + (result h s).code } := by
  rw [process_eq]
  unfold processCmdImageStartCapture
  rw [processMakeShot_eq]
  rfl

theorem recFrameStarts_eq : recFrameStarts (s.process h).2.1 =
    if shouldCapture h s && s.env.recFrame.isSome then 1 else 0 := by
  rw [process_eq]
  unfold processCmdImageStartCapture
  rw [processMakeShot_eq]
  dsimp only
  have hsent : ∀ t : Turn F, recFrameStarts (if (recorded h s).result = .accepted then
      t.respond Globals.getCompIdCamera (.cameraImageCaptured (imageCaptured s.env (recorded h s))) else t) =
      recFrameStarts t := by
    intro t
    split
    · rfl
    · rfl
  rw [hsent]
  split
  · rfl
  · rfl

theorem acknowledged_eq : acknowledged (s.process h).2.1 = some (result h s) := by
  rw [process_eq]
  unfold processCmdImageStartCapture
  rw [processMakeShot_eq]
  dsimp only
  split
  · split
    · rfl
    · rfl
  · split
    · rfl
    · rfl

omit [SinglePrecision F] in
theorem reportedCount_eq (env : Env) (m : Message F) (c : CommandLong F) :
    reportedCount h env m c = some h.imageCaptureCount := rfl

theorem counted_iff (s : Shot F) : Counted F a ↔ a.history.imageCaptureCount = a.captures := by
  constructor
  · intro hcounted
    exact Option.some_inj.mp (hcounted s.env s.message s.command)
  · intro hcount env m c
    rw [reportedCount_eq, hcount]

/-! ## Repeated requests -/

/-- A request that is still known and repeated, with the capture the search finds. -/
def IsRepeated (a : Accounted) (s : Shot F) (prev : ImageCapture) : Prop :=
  s.command.confirmation ≠ 0 ∧ a.history.findBySequence s.sequence = some prev

/-- A known request for one shot is denied as a new one would be where there is no
    recorder, and one for more shots is refused. -/
theorem repeats_iff : Repeats a s ↔ ∀ prev, IsRepeated a s prev →
    if s.totalImages = 1 then s.env.recFrame = none ∧ prev.result = .denied else prev.result = .unsupported := by
  unfold Repeats IsRepeated
  apply forall_congr'
  intro prev
  rw [and_imp]
  apply imp_congr_right
  intro hconfirmation
  apply imp_congr_right
  intro hfind
  rw [recFrameStarts_eq, acknowledged_eq, Option.some_inj]
  by_cases htotal : s.totalImages = 1
  · have hshould : shouldCapture a.history s = true := by simp [shouldCapture, htotal, hfind]
    cases hrec : s.env.recFrame with
    | none => simp [hshould, htotal, result, shotResult, hrec, eq_comm]
    | some started => simp [hshould, htotal]
  · have hshould : shouldCapture a.history s = false := by simp [shouldCapture, htotal]
    simp [hshould, htotal, result, eq_comm]

/-! ## The number of captures -/

def Succeeds (h : History) (s : Shot F) : Prop := shouldCapture h s = true ∧ s.env.recFrame = some true

theorem shot_count : (shot h s).imageCaptureCount = h.imageCaptureCount + if shouldCapture h s then 1 else 0 := by
  unfold shot
  split
  · rfl
  · exact (Int.add_zero _).symm

theorem shouldCapture_total (hshould : shouldCapture h s = true) : s.totalImages = 1 := by
  simp only [shouldCapture, Bool.and_eq_true, beq_iff_eq] at hshould
  exact hshould.1

theorem result_code_pos (hshould : shouldCapture h s = false) : 0 < (result h s).code := by
  unfold result
  split
  · simp [hshould, MavResult.code]
  · decide

theorem counted_step (hcounted : Counted F a) : Counted F (capture a s) ↔ Succeeds a.history s := by
  rw [counted_iff s] at hcounted ⊢
  show (s.process a.history).1.imageCaptureCount = ((a.captures + if s.env.recFrame = some true then
    recFrameStarts (s.process a.history).2.1 else 0 : Nat) : Int) ↔ _
  rw [history_eq, recFrameStarts_eq]
  show (shot a.history s).imageCaptureCount + ((result a.history s).code : Int) = _ ↔ _
  rw [shot_count, hcounted]
  unfold Succeeds
  cases hshould : shouldCapture a.history s with
  | false =>
    have hcode := result_code_pos hshould
    simp
    omega
  | true =>
    have hresult : result a.history s = shotResult s.env := by simp [result, shouldCapture_total hshould, hshould]
    rw [hresult]
    unfold shotResult
    rcases s.env.recFrame with _ | _ | _
    · simp [MavResult.code]
      omega
    · simp [MavResult.code]
      omega
    · simp [MavResult.code]

/-! ## The history -/

/-- What the ring keeps when one is put into it. -/
def History.keeps (h : History) : List Nat :=
  if h.sequences.length < kHistoryCapacity then h.sequences else h.sequences.drop 1

theorem push_sequences (i : ImageCapture) : (h.push i).sequences = h.keeps ++ [i.sequence] := by
  unfold History.push History.keeps History.sequences
  dsimp only
  rw [List.map_append, List.length_map]
  split
  · rfl
  · rw [List.map_drop]
    rfl

/-- The list is what the ring of the code stands for. -/
theorem push_represents {b : CircularBuffer ImageCapture kHistoryCapacity} (i : ImageCapture)
    (hring : b.Represents h.imageCaptureSequence) :
    ∃ b', b.emplaceBack true i = some b' ∧ b'.Represents (h.push i).imageCaptureSequence := by
  unfold History.push
  by_cases hroom : h.imageCaptureSequence.length < kHistoryCapacity
  · simp only [hroom, if_true]
    exact hring.emplaceBack hroom true
  · simp only [hroom, if_false]
    have hbound := hring.bound
    cases hcaptures : h.imageCaptureSequence with
    | nil => simp [hcaptures, kHistoryCapacity] at hroom
    | cons c captures =>
      rw [hcaptures] at hring hbound hroom
      simp only [List.length_cons] at hbound hroom
      exact hring.emplaceBack_overwrite (by omega)

theorem sequences_shot (hshould : shouldCapture h s = true) : (shot h s).sequences = h.keeps ++ [s.sequence] := by
  unfold shot
  rw [if_pos hshould]
  exact push_sequences _

theorem sequences_process : (s.process h).1.sequences = (shot h s).keeps ++ [s.sequence] := by
  rw [history_eq]
  exact push_sequences _

/-- The ring, as the last requests that differ. -/
def Recent (a : Accounted) : Prop := a.history.sequences = recent kHistoryCapacity a.requests

theorem recent_keeps (hrecent : Recent a) : a.history.keeps = recent 3 a.requests := by
  unfold History.keeps
  rw [hrecent]
  exact recent_kept

/-- No shot is made, and the request is not one that is still there when it is put in. -/
def IsNew (a : Accounted) (s : Shot F) : Prop :=
  shouldCapture a.history s = false ∧ s.sequence ∉ a.history.keeps

theorem recent_step (hrecent : Recent a) (hnew : IsNew a s) : Recent (capture a s) := by
  show (s.process a.history).1.sequences = recent (3 + 1) (a.requests ++ [s.sequence])
  have hshot : shot a.history s = a.history := by simp [shot, hnew.1]
  have hkeeps := hnew.2
  rw [sequences_process, hshot]
  rw [recent_keeps hrecent] at hkeeps ⊢
  exact (recent_snoc hkeeps).symm

theorem recent_start : Recent {} := rfl

theorem kept_of_recent (hrecent : Recent a) : Kept a := by
  unfold Kept
  rw [hrecent]

/-- A request put into the history twice is in it twice. -/
theorem not_kept (htwice : s.sequence ∈ (shot a.history s).keeps) : ¬ Kept (capture a s) := by
  intro hkept
  have hnodup : (s.process a.history).1.sequences.Nodup := hkept.nodup_iff.mpr recent_nodup
  rw [sequences_process] at hnodup
  exact List.disjoint_of_nodup_append hnodup htwice (List.mem_singleton.mpr rfl)

theorem kept_step (hrecent : Recent a) : Kept (capture a s) ↔ IsNew a s := by
  constructor
  · intro hkept
    cases hshould : shouldCapture a.history s with
    | true =>
      refine absurd hkept (not_kept ?_)
      unfold History.keeps
      rw [sequences_shot hshould]
      split
      · simp
      · rename_i hfull
        have hlast : 1 ≤ a.history.keeps.length := by
          simp only [List.length_append, List.length_singleton, kHistoryCapacity] at hfull
          omega
        rw [List.drop_append_of_le_length hlast]
        simp
    | false =>
      refine ⟨hshould, fun hthere => not_kept ?_ hkept⟩
      have hshot : shot a.history s = a.history := by simp [shot, hshould]
      rwa [hshot]
  · intro hnew
    exact kept_of_recent (recent_step hrecent hnew)

end

/-! ## Sequences of commands -/

/-- A repeated request is treated as it should be where there is no recorder and the
    request has been denied, or where it is refused as it has been. -/
theorem retransmissions_iff (es : List (Shot F)) : Along capture Repeats {} es ↔
    Along capture (fun a s => ∀ prev, IsRepeated a s prev →
      if s.totalImages = 1 then s.env.recFrame = none ∧ prev.result = .denied else prev.result = .unsupported) {} es :=
  along_iff (I := fun _ => True) (fun _ _ _ => trivial) (fun _ _ _ => repeats_iff) trivial

/-- The number of captures is right as long as every command makes a shot. -/
theorem count_iff (es : List (Shot F)) :
    Always capture (Counted F) {} es ↔ Along capture (fun a s => Succeeds a.history s) {} es :=
  always_iff_along (I := fun _ => True) (fun _ _ _ _ _ => trivial) (fun _ _ _ hcounted => counted_step hcounted) trivial
    fun _ _ _ => rfl

/-- The history is right as long as no command makes a shot, or repeats a request that
    is still there. -/
theorem history_iff (es : List (Shot F)) : Always capture Kept {} es ↔ Along capture IsNew {} es :=
  always_iff_along (I := Recent) (fun _ _ hrecent _ hnew => recent_step hrecent hnew)
    (fun _ _ hrecent _ => kept_step hrecent) recent_start (kept_of_recent recent_start)

/-- The first command already leaves the number of captures wrong, or the history. -/
theorem idempotent_and_accounted_iff (es : List (Shot F)) : IdempotentAndAccounted es ↔ es = [] := by
  constructor
  · intro h
    cases es with
    | nil => rfl
    | cons s es =>
      have hsucceeds : Succeeds ({} : Accounted).history s := (counted_step h.counted.1).mp h.counted.2.head
      have hnew : IsNew {} s := (kept_step recent_start).mp h.kept.2.head
      have hshould := hnew.1
      rw [hsucceeds.1] at hshould
      cases hshould
  · intro h
    rcases h with rfl
    exact ⟨trivial, fun _ _ _ => rfl, kept_of_recent recent_start⟩

/-- A request for one image with the sequence number 7, sent for the time that is its confirmation. -/
def requestAgain (confirmation : UInt8) : Shot Int where
  env := { recFrame := some true }
  uninitialized := 0
  message := ⟨255, 190, .commandLong ⟨1, 100, MavCmd.imageStartCapture, confirmation, 0, 0, 1, 7, 0, 0, 0⟩⟩
  command := ⟨1, 100, MavCmd.imageStartCapture, confirmation, 0, 0, 1, 7, 0, 0, 0⟩
  decodes := rfl
  shoots := rfl

/-- The request is sent, answered, and sent again: a second shot is made. -/
theorem a_repeated_request_is_shot_again : ¬ IdempotentAndAccounted [requestAgain 0, requestAgain 1] := by
  intro h
  have hrepeats : Repeats (capture {} (requestAgain 0)) (requestAgain 1) := h.repeats.2.1
  have hnone := (hrepeats ⟨7, 1, .accepted, []⟩ (by decide) (by decide)).1
  exact absurd hnone (by decide)

end Esp32Cam.Mav.Camera
