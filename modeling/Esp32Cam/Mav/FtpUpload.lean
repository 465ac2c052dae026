/-
  Esp32Cam.Mav.FtpUpload — the file of a transfer, in every run.

  A buffered file is handed over open in its file system (`Handover`). From then on no
  step of the client writes to the file system (`step_content`): the steps move the
  file's cursor, and nothing else of it.

  `HasFile` is the invariant: while the session is created or the file is transferred,
  the client has the open file, and the offset of the transfer never stands behind the
  cursor's position. Every step keeps it (`step_hasFile`).
-/

import Esp32Cam.Mav.FtpAnswers

namespace Esp32Cam.Mav.BftFtpClient

open Esp32Cam.Lib Esp32Cam.Bft

def content (c : BftFtpClient) : List UInt8 := c.fs.pool.take c.fs.memoryPoolNextWritePosition

/-- A file as it is handed over: open in its file system. -/
structure BufferedFile where
  fs : SingleBufferRamFileSystem
  file : File
  isOpen : ∃ content cursor, Holds fs file content cursor

/-- A buffered file is the open file of its file system. -/
def Handover : Event → Prop
  | .onFileBufferingFinished fs file => ∃ content cursor, Holds fs file content cursor
  | _ => True

/-! ## The file system is not written to -/

/-- The file systems differ in their cursors only. -/
def SameFile (fs fs' : SingleBufferRamFileSystem) : Prop :=
  ∃ p, fs' = { fs with memoryPoolCurrentPosition := p }

theorem SameFile.refl (fs : SingleBufferRamFileSystem) : SameFile fs fs := ⟨fs.memoryPoolCurrentPosition, rfl⟩

theorem SameFile.trans {fs fs' fs'' : SingleBufferRamFileSystem} (h : SameFile fs fs') (h' : SameFile fs' fs'') :
    SameFile fs fs'' := by
  obtain ⟨p, rfl⟩ := h
  obtain ⟨q, rfl⟩ := h'
  exact ⟨q, rfl⟩

theorem sameFile_seek (fs : SingleBufferRamFileSystem) (f : File) (offset : Int) (origin : Position) :
    SameFile fs (f.seek fs offset origin).1 := by
  unfold File.seek
  split
  · simp only [FileSystem.seek, SingleBufferRamFileSystem.seek]
    split
    · exact .refl fs
    · exact ⟨_, rfl⟩
  · exact .refl fs

theorem sameFile_getCurrentPosition (fs : SingleBufferRamFileSystem) (f : File) :
    SameFile fs (f.getCurrentPosition fs).1 := by
  have hseek := sameFile_seek fs f 0 .current
  unfold File.getCurrentPosition
  unfold File.seek at hseek
  split
  · rename_i h
    rw [if_pos h] at hseek
    exact hseek
  · exact .refl fs

theorem sameFile_read (fs : SingleBufferRamFileSystem) (f : File) (n : Nat) : SameFile fs (f.read fs n).1 := by
  unfold File.read
  split
  · simp only [FileSystem.read, SingleBufferRamFileSystem.read]
    split
    · exact .refl fs
    · exact ⟨_, rfl⟩
  · exact .refl fs

section
variable (c : BftFtpClient)

theorem sameFile_seekFile (offset : Int) : SameFile c.fs (c.seekFile offset).fs := by
  unfold seekFile
  split
  · exact .refl _
  · exact sameFile_seek _ _ _ _

theorem sameFile_client_getCurrentPosition : SameFile c.fs c.getCurrentPosition.1.fs := by
  unfold getCurrentPosition
  split
  · exact .refl _
  · exact sameFile_getCurrentPosition _ _

theorem sameFile_respond (m : MavlinkMessage) : SameFile c.fs (c.respond m).fs := by
  rw [respond_eq]
  dsimp only
  split
  · unfold nextChunk
    split
    · exact .refl _
    · exact sameFile_read _ _ _
  · exact .refl _

theorem sameFile_handleTransferringTransition (sessionId : UInt32) :
    SameFile c.fs (c.handleTransferringTransition sessionId).fs :=
  (sameFile_seekFile c.handleTransitionCommon 0).trans (sameFile_client_getCurrentPosition _)

theorem sameFile_writeTaken : SameFile c.fs c.writeTaken.fs := by
  rw [writeTaken_eq]
  exact sameFile_client_getCurrentPosition c

/-- What the client makes of a message leaves the file's bytes. -/
theorem Takes.sameFile {c' : BftFtpClient} {m : FileTransferProtocol} (h : Takes c m c') : SameFile c.fs c'.fs := by
  cases h with
  | nothing | stopped | denied | closed | notClosed => exact .refl _
  | granted =>
    have hgranted : SameFile c.fs (c.granted m).fs :=
      sameFile_handleTransferringTransition c.stopTimer.handleSuccessfulAttemptCommon _
    exact hgranted.trans (sameFile_respond (c.granted m) (.fileTransferProtocol m))
  | acknowledged => exact (sameFile_writeTaken c).trans (sameFile_respond c.writeTaken (.fileTransferProtocol m))
  | refused =>
    exact sameFile_respond (c.stopTimer.push (.failed "Could not transfer a file chunk, got FAILED response")
      |>.handleClosingSessionTransition) (.fileTransferProtocol m)

theorem Fires.sameFile {c' : BftFtpClient} (h : Fires c c') : SameFile c.fs c'.fs := by
  cases h with
  | idle | request | max | givenUp | closing => exact .refl _
  | write => exact sameFile_seekFile _ _

theorem sameFile_onDelayedSend : SameFile c.fs c.onDelayedSend.fs := by
  unfold onDelayedSend
  split
  · exact .refl _
  · exact sameFile_respond _ _

end

def accepts (c : BftFtpClient) : Event → Bool
  | .onFileBufferingFinished _ _ => c.requestRepeat.state = .idle
  | _ => false

/-- A client at work leaves a buffered file alone. -/
theorem step_not_accepted {c : BftFtpClient} {fs : SingleBufferRamFileSystem} {file : File}
    (h : accepts c (.onFileBufferingFinished fs file) = false) : step c (.onFileBufferingFinished fs file) = c := by
  have hs : c.requestRepeat.state ≠ .idle := of_decide_eq_false h
  rw [step, onFileBufferingFinished]
  split
  · exact absurd ‹_› hs
  · rfl

theorem step_accepted {c : BftFtpClient} {fs : SingleBufferRamFileSystem} {file : File}
    (h : accepts c (.onFileBufferingFinished fs file) = true) : step c (.onFileBufferingFinished fs file) =
      ({ c with fs := fs }.handleCreatingSessionTransition file).resendSessionOpenRequest.startOnce := by
  have hs : c.requestRepeat.state = .idle := of_decide_eq_true h
  rw [step, onFileBufferingFinished, hs]

theorem process_sameFile (c : BftFtpClient) (m : MavlinkMessage) : SameFile c.fs (c.process m).1.fs := by
  cases m with
  | fileTransferProtocol m => exact (process_takes c m).sameFile
  | other => exact .refl _

theorem step_sameFile {c : BftFtpClient} {e : Event} (h : accepts c e = false) : SameFile c.fs (step c e).fs := by
  cases e with
  | onFileBufferingFinished fs file =>
    rw [step_not_accepted h]
    exact .refl _
  | message m => exact process_sameFile c m
  | onHrTimer => exact (onHrTimer_fires c).sameFile
  | onDelayedSend => exact sameFile_onDelayedSend c

/-- Only a newly buffered file changes the bytes. -/
theorem step_content {c : BftFtpClient} {e : Event} (h : accepts c e = false) : (step c e).content = c.content := by
  obtain ⟨p, hp⟩ := step_sameFile h
  unfold content
  rw [hp]

/-! ## What has been sent stays sent -/

theorem Takes.sent_grows {c c' : BftFtpClient} {m : FileTransferProtocol} (h : Takes c m c') : c.sent <+: c'.sent := by
  cases h with
  | nothing | stopped | denied | closed | notClosed => exact List.prefix_refl _
  | granted => rw [sessionGranted_sent]; exact List.prefix_append _ _
  | acknowledged => rw [writeAcknowledged_sent]; exact List.prefix_append _ _
  | refused => rw [writeRefused_sent]; exact List.prefix_append _ _

theorem grows_of_sent_eq {c c' : BftFtpClient} (h : c'.sent = c.sent) : c.sent <+: c'.sent :=
  ⟨[], by rw [h, List.append_nil]⟩

theorem step_sent_grows (c : BftFtpClient) (e : Event) : c.sent <+: (step c e).sent := by
  cases e with
  | onFileBufferingFinished fs file =>
    cases h : accepts c (.onFileBufferingFinished fs file) with
    | true =>
      rw [step_accepted h]
      exact List.prefix_refl _
    | false => exact grows_of_sent_eq (congrArg BftFtpClient.sent (step_not_accepted h))
  | message m =>
    cases m with
    | fileTransferProtocol m => exact (process_takes c m).sent_grows
    | other => exact List.prefix_refl _
  | onHrTimer => exact grows_of_sent_eq (onHrTimer_sent c)
  | onDelayedSend =>
    by_cases hd : c.delayedSends = 0
    · refine grows_of_sent_eq ?_
      rw [step, onDelayedSend, if_pos hd]
    · rw [step, onDelayedSend_sent hd]; exact List.prefix_append _ _

/-! ## The offset of a transfer -/

def Advances (c : BftFtpClient) (m : FileTransferProtocol) : Prop :=
  c.requestRepeat.state = .transferring ∧ Answers m .writeFile .ack ∧ c.validateIncomingMessageSessionId m = true ∧
    c.atEof = false

instance (c : BftFtpClient) (m : FileTransferProtocol) : Decidable (Advances c m) :=
  inferInstanceAs (Decidable (_ ∧ _ ∧ _ ∧ _))

/-- A step that does not advance the transfer leaves its offset, or begins it. -/
theorem Takes.fileOffset {c c' : BftFtpClient} {m : FileTransferProtocol} (h : Takes c m c') (ha : ¬ Advances c m)
    (hs : c'.requestRepeat.state = .transferring) : c'.requestRepeat.fileOffset = 0 ∨
      c.requestRepeat.state = .transferring ∧ c'.requestRepeat.fileOffset = c.requestRepeat.fileOffset := by
  cases h with
  | nothing | stopped => exact Or.inr ⟨hs, rfl⟩
  | denied | closed | notClosed => cases hs
  | granted =>
    left
    rw [sessionGranted_eq, show ((c.granted m).respond (.fileTransferProtocol m)).startOnce.requestRepeat =
      ((c.granted m).respond (.fileTransferProtocol m)).requestRepeat from rfl, respond_requestRepeat]
    rfl
  | acknowledged hst hm hv =>
    exfalso
    cases he : c.atEof with
    | true => simp [writeAcknowledged, push, startOnce, writeTaken_eq, he] at hs
    | false => exact ha ⟨hst, hm, hv, he⟩
  | refused => simp [writeRefused, startOnce, handleClosingSessionTransition] at hs

theorem onHrTimer_fileOffset (c : BftFtpClient) : c.onHrTimer.requestRepeat.fileOffset = c.requestRepeat.fileOffset := by
  have hfires := onHrTimer_fires c
  generalize c.onHrTimer = c' at hfires ⊢
  cases hfires with
  | write => simp [startOnce, resendFileTransferRequest, notifyDelayedSend, handleFailedAttemptCommon, stopTimer]
  | idle | request | max | givenUp | closing => rfl

theorem onHrTimer_state {c : BftFtpClient} (hs : c.onHrTimer.requestRepeat.state = .transferring) :
    c.requestRepeat.state = .transferring := by
  have hfires := onHrTimer_fires c
  generalize c.onHrTimer = c' at hfires hs
  cases hfires with
  | idle | request | max => exact hs
  | givenUp | closing => cases hs
  | write _ h => exact h

theorem step_advances {c : BftFtpClient} {m : FileTransferProtocol} (h : Advances c m) :
    step c (.message (.fileTransferProtocol m)) = c.writeAcknowledged m := step_acknowledged h.1 h.2.1 h.2.2.1

/-! ## The invariant -/

/-- The file the client works with is open; the offset is a position of it, up to the cursor. -/
structure HasFile (c : BftFtpClient) : Prop where
  held : c.requestRepeat.state = .creatingSession ∨ c.requestRepeat.state = .transferring →
    ∃ file, c.requestRepeat.bftFile = some file ∧ Holds c.fs file c.content c.fs.memoryPoolCurrentPosition
  offset : c.requestRepeat.state = .transferring →
    ∃ o : Nat, c.requestRepeat.fileOffset = o ∧ o ≤ c.fs.memoryPoolCurrentPosition

/-- Where nothing is held, nothing is asked. -/
theorem hasFile_of_closed {c : BftFtpClient} (h : c.requestRepeat.state = .idle ∨ c.requestRepeat.state = .closingSession ∨
    c.requestRepeat.state = .max) : HasFile c := by
  constructor
  · rintro (hs | hs) <;> rw [hs] at h <;> rcases h with h | h | h <;> cases h
  · intro hs
    rw [hs] at h
    rcases h with h | h | h <;> cases h

section
variable {c : BftFtpClient} {file : File} {bytes : List UInt8} {p o : Nat}

theorem content_of_holds (h : Holds c.fs file bytes p) : c.content = bytes := by
  unfold content
  rw [h.next, h.content]

theorem hasFile_of_holds (hs : c.requestRepeat.state ≠ .transferring) (hf : c.requestRepeat.bftFile = some file)
    (hh : Holds c.fs file bytes p) : HasFile c := by
  refine ⟨fun _ => ⟨file, hf, ?_⟩, fun h => absurd h hs⟩
  rw [content_of_holds hh, hh.current]
  exact hh

theorem hasFile_of_uploading (h : Uploading file bytes p c) (ho : c.requestRepeat.fileOffset = o) (hle : o ≤ p) :
    HasFile c := by
  refine ⟨fun _ => ⟨file, h.bftFile, ?_⟩, fun _ => ⟨o, ho, ?_⟩⟩
  · rw [content_of_holds h.holds, h.holds.current]
    exact h.holds
  · rw [h.holds.current]
    exact hle

/-- A client that transfers has its file, its cursor and its offset. -/
theorem HasFile.uploading (h : HasFile c) (hs : c.requestRepeat.state = .transferring) :
    ∃ file o, Uploading file c.content c.fs.memoryPoolCurrentPosition c ∧ c.requestRepeat.fileOffset = (o : Nat) ∧
      o ≤ c.fs.memoryPoolCurrentPosition := by
  obtain ⟨file, hf, hh⟩ := h.held (Or.inr hs)
  obtain ⟨o, ho, hle⟩ := h.offset hs
  exact ⟨file, o, ⟨hs, hf, hh⟩, ho, hle⟩

/-- A resend seeks the file to the offset. -/
theorem Uploading.seekFile (h : Uploading file bytes p c) (ho : o ≤ p) : Uploading file bytes o (c.seekFile o) where
  state := by rw [seekFile_requestRepeat]; exact h.state
  bftFile := by rw [seekFile_requestRepeat]; exact h.bftFile
  holds := by
    have hp := h.lt
    have hin := h.holds.inside
    unfold BftFtpClient.seekFile
    rw [h.bftFile]
    dsimp only
    rw [h.holds.seek_start o (by omega), Nat.min_eq_left (by omega)]
    exact h.holds.at_cursor (by omega)

end

section
variable {c : BftFtpClient} {m : FileTransferProtocol}

theorem granted_hasFile (h : HasFile c) (hs : c.requestRepeat.state = .creatingSession) : HasFile (c.granted m) := by
  obtain ⟨file, hf, hh⟩ := h.held (Or.inl hs)
  obtain ⟨hup, ho, _, _⟩ := granted_uploading (m := m) hf hh
  exact hasFile_of_uploading (o := 0) hup ho (Nat.le_refl 0)

theorem writeTaken_hasFile (h : HasFile c) (hs : c.requestRepeat.state = .transferring) (he : c.atEof = false) :
    HasFile c.writeTaken := by
  obtain ⟨file, _, hup, _, _⟩ := h.uploading hs
  obtain ⟨hup', ho, _, _⟩ := writeTaken_uploading hup he
  exact hasFile_of_uploading hup' ho (Nat.le_refl _)

/-- Forming a message of a transfer moves the cursor on. -/
theorem respond_hasFile (h : HasFile c) (hs : c.requestRepeat.state = .transferring) (m : MavlinkMessage) :
    HasFile (c.respond m) := by
  obtain ⟨file, o, hup, ho, hle⟩ := h.uploading hs
  exact hasFile_of_uploading (hup.respond m) (by rw [respond_requestRepeat]; exact ho) (Nat.le_add_right_of_le hle)

theorem sessionGranted_hasFile (h : HasFile c) (hs : c.requestRepeat.state = .creatingSession) :
    HasFile (c.sessionGranted m) := by
  have hres := respond_hasFile (granted_hasFile (m := m) h hs) (granted_state c m) (.fileTransferProtocol m)
  exact ⟨hres.held, hres.offset⟩

theorem writeAcknowledged_hasFile (h : HasFile c) (hs : c.requestRepeat.state = .transferring) :
    HasFile (c.writeAcknowledged m) := by
  cases he : c.atEof with
  | true =>
    refine hasFile_of_closed (Or.inr (Or.inl ?_))
    simp [writeAcknowledged, push, startOnce, writeTaken_eq, he]
  | false =>
    have hres := respond_hasFile (writeTaken_hasFile h hs he) (writeTaken_state hs he) (.fileTransferProtocol m)
    exact ⟨hres.held, hres.offset⟩

/-- A resend puts the cursor back at the offset. -/
theorem resend_uploading {file : File} {bytes : List UInt8} {p o : Nat} (h : Uploading file bytes p c)
    (ho : c.requestRepeat.fileOffset = o) (hle : o ≤ p) :
    let c' := c.stopTimer.handleFailedAttemptCommon.resendFileTransferRequest.startOnce
    Uploading file bytes o c' ∧ c'.requestRepeat.fileOffset = o ∧ c'.sent = c.sent := by
  have hup : Uploading file bytes p c.stopTimer.handleFailedAttemptCommon := ⟨h.state, h.bftFile, h.holds⟩
  have hseek := hup.seekFile hle
  have heq : c.stopTimer.handleFailedAttemptCommon.resendFileTransferRequest =
      (c.stopTimer.handleFailedAttemptCommon.seekFile o).notifyDelayedSend := by
    rw [resendFileTransferRequest, show c.stopTimer.handleFailedAttemptCommon.requestRepeat.fileOffset = o from ho]
  rw [heq]
  refine ⟨⟨hseek.state, hseek.bftFile, hseek.holds⟩, ?_, seekFile_sent _ _⟩
  simpa [startOnce, notifyDelayedSend, handleFailedAttemptCommon, stopTimer] using ho

theorem Takes.hasFile {c' : BftFtpClient} (ht : Takes c m c') (h : HasFile c) : HasFile c' := by
  cases ht with
  | nothing => exact h
  | stopped => exact ⟨h.held, h.offset⟩
  | granted hs _ => exact sessionGranted_hasFile h hs
  | acknowledged hs _ _ => exact writeAcknowledged_hasFile h hs
  | denied | closed | notClosed => exact hasFile_of_closed (Or.inl rfl)
  | refused =>
    refine hasFile_of_closed (Or.inr (Or.inl ?_))
    simp [writeRefused, startOnce, handleClosingSessionTransition]

theorem Fires.hasFile {c' : BftFtpClient} (ht : Fires c c') (h : HasFile c) : HasFile c' := by
  cases ht with
  | idle _ hs => exact hasFile_of_closed (Or.inl hs)
  | request _ _ => exact ⟨h.held, h.offset⟩
  | max _ hs => exact hasFile_of_closed (Or.inr (Or.inr hs))
  | givenUp => exact hasFile_of_closed (Or.inl rfl)
  | closing => exact hasFile_of_closed (Or.inr (Or.inl rfl))
  | write _ hs =>
    obtain ⟨file, o, hup, ho, hle⟩ := h.uploading hs
    obtain ⟨hup', ho', _⟩ := resend_uploading hup ho hle
    exact hasFile_of_uploading hup' ho' (Nat.le_refl o)

theorem onDelayedSend_hasFile (h : HasFile c) : HasFile c.onDelayedSend := by
  unfold onDelayedSend
  split
  · exact h
  by_cases hs : c.requestRepeat.state = .transferring
  · exact respond_hasFile (c := { c with delayedSends := c.delayedSends - 1 }) ⟨h.held, h.offset⟩ hs _
  · rw [respond_eq]
    dsimp only
    rw [if_neg hs]
    exact ⟨h.held, h.offset⟩

/-- Every step keeps the file. -/
theorem step_hasFile {e : Event} (h : HasFile c) (he : accepts c e = true → Handover e) : HasFile (step c e) := by
  cases e with
  | onFileBufferingFinished fs file =>
    cases ha : accepts c (.onFileBufferingFinished fs file) with
    | true =>
      obtain ⟨bytes, p, hh⟩ := he ha
      rw [step_accepted ha]
      refine hasFile_of_holds ?_ rfl hh
      nofun
    | false =>
      rw [step_not_accepted ha]
      exact h
  | message m =>
    cases m with
    | fileTransferProtocol m => exact (process_takes c m).hasFile h
    | other => exact h
  | onHrTimer => exact (onHrTimer_fires c).hasFile h
  | onDelayedSend => exact onDelayedSend_hasFile h

theorem run_hasFile {es : List Event} (h : HasFile c) (hes : ∀ e ∈ es, Handover e) : HasFile (run step c es) := by
  induction es generalizing c with
  | nil => exact h
  | cons e es ih =>
    exact ih (step_hasFile h fun _ => hes e List.mem_cons_self) fun d hd => hes d (List.mem_cons_of_mem _ hd)

theorem init_hasFile (fs : SingleBufferRamFileSystem) (sessionId : UInt32) (fileOffset : Int) (fileSize : Nat) :
    HasFile (init fs sessionId fileOffset fileSize) := hasFile_of_closed (Or.inl rfl)

end

end Esp32Cam.Mav.BftFtpClient
